import FileES.Go.Path
import FileES.Lib.Fallible

/-! `path.Match`, which is also `filepath.Match` on POSIX systems. -/

namespace FileES.Go

open Lib.Fallible

inductive BadPattern
  | bad
  deriving DecidableEq, Repr

def scanToStar (inrange : Bool) : Str → Str × Str
  | [] => ([], [])
  | '\\' :: c :: pattern =>
    let (chunk, rest) := scanToStar inrange pattern
    ('\\' :: c :: chunk, rest)
  | c :: pattern =>
    if c = '*' ∧ inrange = false then ([], c :: pattern)
    else
      let (chunk, rest) := scanToStar (if c = '[' then true else if c = ']' then false else inrange) pattern
      (c :: chunk, rest)

def scanChunk (pattern : Str) : Bool × Str × Str :=
  (hasPrefix pattern ['*'], scanToStar false (pattern.dropWhile (· = '*')))

def getEsc : Str → Except BadPattern (Char × Str)
  | [] => .error .bad
  | c :: chunk =>
    if c = '-' ∨ c = ']' then .error .bad
    else match if c = '\\' then chunk else c :: chunk with
      | r :: next :: rest => .ok (r, next :: rest)
      | _ => .error .bad

def matchRanges (r : Char) : ℕ → Str → (nrange : ℕ) → Bool → Except BadPattern (Bool × Str)
  | 0, _, _, _ => .error .bad
  | fuel + 1, chunk, nrange, matched =>
    if hasPrefix chunk [']'] && nrange > 0 then .ok (matched, chunk.drop 1)
    else do
      let (lo, chunk) ← getEsc chunk
      let (hi, chunk) ← if hasPrefix chunk ['-'] then getEsc (chunk.drop 1) else pure (lo, chunk)
      matchRanges r fuel chunk (nrange + 1) (matched || (lo ≤ r && r ≤ hi))

def matchLiteral (c : Char) : Str → Option Str
  | [] => none
  | d :: s => if c = d then some s else none

def matchChunkFrom : ℕ → Str → Option Str → Except BadPattern (Option Str)
  | 0, _, s => .ok s
  | _ + 1, [], s => .ok s
  | fuel + 1, '[' :: chunk, s => do
    let negated := hasPrefix chunk ['^']
    let r := ((s.bind List.head?).getD (Char.ofNat 0))
    let (matched, rest) ← matchRanges r (chunk.length + 1) (if negated then chunk.drop 1 else chunk) 0 false
    let s := s.bind (fun s => if s = [] ∨ matched = negated then none else some (s.drop 1))
    matchChunkFrom fuel rest s
  | fuel + 1, '?' :: chunk, s =>
    matchChunkFrom fuel chunk (s.bind (fun s => if s = [] ∨ hasPrefix s ['/'] then none else some (s.drop 1)))
  | _ + 1, ['\\'], _ => .error .bad
  | fuel + 1, '\\' :: c :: chunk, s => matchChunkFrom fuel chunk (s.bind (matchLiteral c))
  | fuel + 1, c :: chunk, s => matchChunkFrom fuel chunk (s.bind (matchLiteral c))

def matchChunk (chunk s : Str) : Except BadPattern (Option Str) :=
  matchChunkFrom chunk.length chunk (some s)

def skipMatch (chunk : Str) (last : Bool) : Str → Except BadPattern (Option Str)
  | [] => .ok none
  | c :: name =>
    if c = '/' then .ok none
    else do
      match ← matchChunk chunk name with
      | some t => if last && t ≠ [] then skipMatch chunk last name else pure (some t)
      | none => skipMatch chunk last name

def checkRest : ℕ → Str → Except BadPattern Unit
  | 0, _ => .ok ()
  | fuel + 1, pattern =>
    if pattern = [] then .ok ()
    else do
      let (_, chunk, rest) := scanChunk pattern
      let _ ← matchChunk chunk []
      checkRest fuel rest

def matchFrom : ℕ → Str → Str → Except BadPattern Bool
  | 0, _, name => .ok (name = [])
  | fuel + 1, pattern, name =>
    if pattern = [] then .ok (name = [])
    else
      let (star, chunk, rest) := scanChunk pattern
      if star && chunk = [] then .ok (!name.contains '/')
      else do
        let here ← matchChunk chunk name
        match here.filter (fun t => t = [] || rest ≠ []) with
        | some t => matchFrom fuel rest t
        | none =>
          let skipped ← if star then skipMatch chunk (rest = []) name else pure none
          match skipped with
          | some t => matchFrom fuel rest t
          | none => do
            checkRest rest.length rest
            pure false

def pathMatch (pattern name : Str) : Bool :=
  match matchFrom (pattern.length + 1) pattern name with
  | .ok matched => matched
  | .error _ => false

def Literal (pattern : Str) : Prop :=
  ∀ c ∈ pattern, c ≠ '/' ∧ c ≠ '[' ∧ c ≠ '?' ∧ c ≠ '\\'

instance (pattern : Str) : Decidable (Literal pattern) := List.decidableBAll _ pattern

example : pathMatch "*.tmp" "a.b.tmp" = true := by decide

example : pathMatch "[a-c]?*x" "b/x" = false := by decide

variable {pattern chunk t name : Str} {fuel : ℕ}

lemma scanToStar_literal (h : Literal pattern) :
    scanToStar false pattern = (pattern.takeWhile (· ≠ '*'), pattern.dropWhile (· ≠ '*')) := by
  induction pattern with
  | nil => rfl
  | cons c pattern ih =>
    obtain ⟨_, hb, _, he⟩ := h c (by simp)
    have ht : Literal pattern := fun d hd => h d (by simp [hd])
    by_cases hs : c = '*'
    · simp [scanToStar, hs]
    · have hin : (if c = '[' then true else if c = ']' then false else false) = false := by simp [hb]
      rw [scanToStar]
      · rw [hin, ih ht]
        simp [hs]
      · rintro _ _ rfl
        exact (he rfl).elim

lemma matchChunkFrom_literal (h : Literal chunk) (hf : chunk.length ≤ fuel) {s : Option Str} :
    matchChunkFrom fuel chunk s = .ok (some t) ↔ s = some (chunk ++ t) := by
  induction chunk generalizing fuel s with
  | nil => cases fuel <;> simp [matchChunkFrom]
  | cons c chunk ih =>
    obtain ⟨_, hb, hq, he⟩ := h c (by simp)
    have ht : Literal chunk := fun d hd => h d (by simp [hd])
    cases fuel with
    | zero => simp at hf
    | succ fuel =>
      have hfuel : chunk.length ≤ fuel := by simpa using hf
      rw [matchChunkFrom, ih ht hfuel]
      · cases s with
        | none => simp
        | some s =>
          cases s with
          | nil => simp [matchLiteral]
          | cons d s =>
            by_cases hd : c = d
            · simp [matchLiteral, hd]
            · simp [matchLiteral, hd, Ne.symm hd]
      · rintro rfl; exact (hb rfl).elim
      · rintro rfl; exact (hq rfl).elim
      · rintro rfl; exact (he rfl).elim
      · rintro _ _ rfl; exact (he rfl).elim

lemma skipMatch_literal (h : Literal chunk) {last : Bool} (hm : skipMatch chunk last name = .ok (some t)) :
    ∃ skipped, '/' ∉ skipped ∧ name = skipped ++ chunk ++ t := by
  induction name with
  | nil => cases hm
  | cons c name ih =>
    rw [skipMatch] at hm
    split at hm
    · cases hm
    · rename_i hc
      have hstep : skipMatch chunk last name = .ok (some t) →
          ∃ skipped, '/' ∉ skipped ∧ c :: name = skipped ++ chunk ++ t := by
        intro hm
        obtain ⟨skipped, hs, rfl⟩ := ih hm
        exact ⟨c :: skipped, by simp [hs, Ne.symm hc], by simp⟩
      cases hr : matchChunk chunk name with
      | error e =>
        rw [hr] at hm
        cases hm
      | ok r =>
        rw [hr] at hm
        cases r with
        | none => exact hstep hm
        | some u =>
          have hu := (matchChunkFrom_literal h le_rfl).mp hr
          change (if (last && decide (u ≠ [])) = true then skipMatch chunk last name else .ok (some u)) = _ at hm
          split at hm
          · exact hstep hm
          · cases hm
            exact ⟨[c], by simp [Ne.symm hc], by simpa using hu⟩

lemma Literal.sublist {p q : Str} (h : Literal p) (hs : q.Sublist p) : Literal q := fun c hc => h c (hs.subset hc)

lemma matchFrom_literal (h : Literal pattern) (hm : matchFrom fuel pattern name = .ok true) : '/' ∉ name := by
  induction fuel generalizing pattern name with
  | zero =>
    simp only [matchFrom, Except.ok.injEq, decide_eq_true_eq] at hm
    simp [hm]
  | succ fuel ih =>
    rw [matchFrom] at hm
    split at hm
    · simp only [Except.ok.injEq, decide_eq_true_eq] at hm
      simp [hm]
    · have hl : Literal (pattern.dropWhile (· = '*')) := h.sublist (List.dropWhile_sublist _)
      have hscan := scanToStar_literal hl
      rw [scanChunk, hscan] at hm
      generalize hchunk : (pattern.dropWhile (· = '*')).takeWhile (· ≠ '*') = chunk at hm
      generalize hrest : (pattern.dropWhile (· = '*')).dropWhile (· ≠ '*') = rest at hm
      have hc : Literal chunk := hchunk ▸ hl.sublist (List.takeWhile_sublist _)
      have hr : Literal rest := hrest ▸ hl.sublist (List.dropWhile_sublist _)
      have hslash : '/' ∉ chunk := fun hm => (hc '/' hm).1 rfl
      dsimp only at hm
      split at hm
      · simpa using hm
      · obtain ⟨here, hhere, hnext⟩ := bind_ok.mp hm
        clear hm
        cases hf : here.filter (fun t => t = [] || rest ≠ []) with
        | some u =>
          rw [hf] at hnext
          obtain rfl := (Option.filter_eq_some_iff.mp hf).1
          have hname := (matchChunkFrom_literal hc le_rfl).mp hhere
          obtain rfl := Option.some.inj hname
          simpa [hslash] using ih hr hnext
        | none =>
          rw [hf] at hnext
          dsimp only at hnext
          split at hnext
          · obtain ⟨skipped, hskip, hlast⟩ := bind_ok.mp hnext
            cases skipped with
            | none =>
              obtain ⟨_, _, hfalse⟩ := bind_ok.mp hlast
              cases hfalse
            | some u =>
              obtain ⟨taken, ht, rfl⟩ := skipMatch_literal hc hskip
              simpa [ht, hslash] using ih hr hlast
          · obtain ⟨_, hpure, hlast⟩ := bind_ok.mp hnext
            cases hpure
            obtain ⟨_, _, hfalse⟩ := bind_ok.mp hlast
            cases hfalse

lemma pathMatch_literal (h : Literal pattern) (hm : pathMatch pattern name = true) : '/' ∉ name := by
  rw [pathMatch] at hm
  split at hm
  · rename_i hr
    exact matchFrom_literal h (hm ▸ hr)
  · cases hm

end FileES.Go
