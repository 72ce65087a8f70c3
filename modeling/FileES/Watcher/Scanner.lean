import FileES.Lib.Maps
import FileES.Policy.Ignore

/-! The events, the ignore rules and the state of the scanner. -/

namespace FileES.Watcher

open Go Lib Policy List

abbrev Time := ℕ

inductive EntryType
  | file
  | dir
  deriving DecidableEq, Repr

inductive OpType
  | added
  | modified
  | deleted
  | renamed
  | renameUncertain
  deriving DecidableEq, Repr

structure Event where
  session : String := ""
  sequence : ℕ := 0
  (path rel : Path)
  oldRel : Path := []
  type : EntryType := .file
  op : OpType
  identityVerified : Bool := false
  deriving DecidableEq, Repr

def Event.WellFormed (ev : Event) : Prop :=
  ev.op ≠ .renamed → ev.oldRel = [] ∧ ev.identityVerified = false

instance (ev : Event) : Decidable ev.WellFormed := inferInstanceAs (Decidable (_ → _))

structure Glob where
  raw : Str
  deriving DecidableEq, Repr

def Glob.matches (g : Glob) (rel : Path) : Bool :=
  let p := if hasPrefix g.raw ['!'] then g.raw.drop 1 else g.raw
  if !contains p "**" then pathMatch p rel else matchDoublestar p rel

structure Ignores where
  igRegex : Option (Path → Bool) := none
  builtinGlobs : List Glob := builtinIgnorePatterns.map Glob.mk
  hardGlobs : List Glob := []
  softGlobs : List Glob := []

def Ignores.isIgnored (ig : Ignores) (rel : Path) : Bool :=
  (match ig.igRegex with
    | some regex => regex rel
    | none => false) ||
    ig.builtinGlobs.any (fun g => g.matches rel) || ig.hardGlobs.any (fun g => g.matches rel) ||
    ig.softGlobs.any (fun g => g.matches rel)

def Ignores.addLine (ig : Ignores) (text : Str) : Ignores :=
  let line := trimSpace text
  if line = [] || hasPrefix line ['#'] then ig
  else if hasPrefix line ['!'] then { ig with hardGlobs := ig.hardGlobs ++ [⟨line⟩] }
  else { ig with softGlobs := ig.softGlobs ++ [⟨line⟩] }

def Ignores.reload (ig : Ignores) (lines : List Str) : Ignores :=
  lines.foldl Ignores.addLine { ig with hardGlobs := [], softGlobs := [] }

def walkedPaths (rel : Path) : List Path :=
  (List.range (split rel).length).map (fun n => join ((split rel).take (n + 1)))

def BuiltinPruned (rel : Path) : Prop :=
  ∃ p ∈ walkedPaths rel, (builtinIgnorePatterns.map Glob.mk).any (fun g => g.matches p) = true

lemma builtinGlobs_any (rel : Path) :
    (builtinIgnorePatterns.map Glob.mk).any (fun g => g.matches rel) = ignoredName (lastSegment rel) := by
  have hraw : ∀ pattern ∈ builtinIgnorePatterns, hasPrefix pattern ['!'] = false := by decide
  rw [← builtin_any, any_map, Bool.eq_iff_iff, any_eq_true, any_eq_true]
  refine exists_congr fun pattern => and_congr_right fun hp => ?_
  simp [Glob.matches, matchPattern, hraw pattern hp]

variable {rel : Path}

lemma lastSegment_walked {n : ℕ} (hn : n < (split rel).length) :
    lastSegment (join ((split rel).take (n + 1))) = (split rel)[n] := by
  have hne : (split rel).take (n + 1) ≠ [] := by
    intro h
    have := congrArg length h
    simp only [length_take, length_nil] at this
    omega
  have hs : split (join ((split rel).take (n + 1))) = (split rel).take (n + 1) := by
    apply split_join _ hne
    intro seg hseg
    exact notMem_of_mem_split (mem_of_mem_take hseg)
  rw [lastSegment, hs, getLastD_eq_getLast?, getLast?_take]
  simp [hn]

lemma builtinPruned_iff : BuiltinPruned rel ↔ ∃ seg ∈ split rel, ignoredName seg = true := by
  simp only [BuiltinPruned, walkedPaths, mem_map, mem_range, builtinGlobs_any]
  constructor
  · rintro ⟨_, ⟨n, hn, rfl⟩, h⟩
    rw [lastSegment_walked hn] at h
    exact ⟨_, getElem_mem hn, h⟩
  · rintro ⟨seg, hseg, h⟩
    obtain ⟨n, hn, rfl⟩ := mem_iff_getElem.mp hseg
    exact ⟨_, ⟨n, hn, rfl⟩, by rwa [lastSegment_walked hn]⟩

structure Meta where
  mtimeSec : ℤ := 0
  size : ℕ := 0
  md5 : String := ""
  identity : String := ""
  isDir : Bool := false
  deriving DecidableEq, Repr

abbrev Index := Maps.Map Path Meta

inductive Mode
  | baselining
  | active
  deriving DecidableEq, Repr

structure Scanner where
  wc : Path := []
  mode : Mode := .active
  session : String
  sequence : ℕ := 0
  cur : Index := ∅
  missingSince : Maps.Map Path Time := ∅
  acknowledged : Maps.Map Path ℕ := ∅
  acknowledgedTrees : Maps.Map Path ℕ := ∅
  ignores : Ignores := {}
  debounceD : ℕ := 0
  requireRenameIdentity : Bool := false
  useMD5 : Bool := false
  md5Cutoff : ℕ := 0
  md5BudgetBytes : ℕ := 0
  base : Index := ∅

end FileES.Watcher
