import FileES.Go.Path

/-! Names that can exist, unchanged, on every supported platform. -/

namespace FileES.Portable

open Go

inductive Kind
  | reservedDevice
  | reservedRune
  | controlRune
  | separator
  | trailingDotOrSpace
  | empty
  | caseCollision
  deriving DecidableEq, Repr

structure Problem where
  kind : Kind
  detail : Str := []
  deriving DecidableEq, Repr

def reservedRunes : Str := ":*?\"<>|"

def isReservedRune (r : Char) : Bool := reservedRunes.contains r

def isControlRune (r : Char) : Bool := r.toNat < 0x20 || r.toNat = 0x7f

def reservedDeviceNames : List Str :=
  ["CON", "PRN", "AUX", "NUL", "COM1", "COM2", "COM3", "COM4", "COM5", "COM6", "COM7", "COM8", "COM9",
    "LPT1", "LPT2", "LPT3", "LPT4", "LPT5", "LPT6", "LPT7", "LPT8", "LPT9"].map String.toList

def isReservedDeviceName (name : Str) : Bool :=
  reservedDeviceNames.contains (toUpperASCII (name.takeWhile (· ≠ '.')))

def runeProblem : Str → Option Problem
  | [] => none
  | r :: segment =>
    if r = '/' || r = '\\' then some { kind := .separator, detail := [r] }
    else if isControlRune r then some { kind := .controlRune }
    else if isReservedRune r then some { kind := .reservedRune, detail := [r] }
    else runeProblem segment

def segmentProblem (segment : Str) : Option Problem :=
  if segment = [] then some { kind := .empty }
  else match runeProblem segment with
    | some problem => some problem
    | none =>
      let last := segment.getLastD '.'
      if last = '.' || last = ' ' then some { kind := .trailingDotOrSpace, detail := [last] }
      else if isReservedDeviceName segment then some { kind := .reservedDevice }
      else none

def collides (toUpper : Str → Str) (name : Str) (siblings : List Str) : Option Str :=
  siblings.find? (fun sibling => sibling ≠ name && toUpper sibling = toUpper name)

variable {segment : Str}

lemma runeProblem_eq_none : runeProblem segment = none ↔
      ∀ r ∈ segment, r ≠ '/' ∧ r ≠ '\\' ∧ isControlRune r = false ∧ isReservedRune r = false := by
  induction segment with
  | nil => simp [runeProblem]
  | cons r segment ih =>
    rw [runeProblem, List.forall_mem_cons, ← ih]
    split
    · rename_i h
      simp only [Bool.or_eq_true, decide_eq_true_eq] at h
      simp only [reduceCtorEq, false_iff]
      rintro ⟨⟨h₁, h₂, _⟩, _⟩
      exact h.elim h₁ h₂
    · rename_i h
      simp only [Bool.or_eq_true, decide_eq_true_eq, not_or] at h
      split
      · rename_i hc
        simp [hc]
      · rename_i hc
        split
        · rename_i hr
          simp [hr]
        · rename_i hr
          simp [h, hc, hr]

lemma segmentProblem_eq_none (h : segmentProblem segment = none) :
    segment ≠ [] ∧ runeProblem segment = none ∧ segment.getLastD '.' ≠ '.' := by
  rw [segmentProblem] at h
  split at h
  · cases h
  · rename_i hne
    split at h
    · cases h
    · rename_i hr
      dsimp only at h
      split at h
      · cases h
      · rename_i hl
        simp only [Bool.or_eq_true, decide_eq_true_eq, not_or] at hl
        exact ⟨hne, hr, hl.1⟩

lemma plain_of_portable (h : segmentProblem segment = none) : Plain segment := by
  obtain ⟨hne, _, hl⟩ := segmentProblem_eq_none h
  refine ⟨hne, ?_, ?_⟩
  · rintro rfl
    exact hl rfl
  · rintro rfl
    exact hl rfl

end FileES.Portable
