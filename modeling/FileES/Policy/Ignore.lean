import FileES.Go.Match

/-! The file-selection rules shared by every ingestion path. -/

namespace FileES.Policy

open Go

def builtinIgnorePatterns : List Str :=
  ["**/~$*", "**/.~lock.*#", "**/*.tmp", "**/*.bak",
    "**/.DS_Store", "**/Thumbs.db", "**/desktop.ini",
    "**/.vscode", "**/.idea", "**/*.swp", "**/*.swo",
    "**/node_modules", "**/__pycache__", "**/*.o", "**/*.pyc",
    "**/.git",
    "**/*.dwl", "**/*.dwl2", "**/*.sv$", "**/*.ac$",
    "**/*.wbk", "**/*.asd", "**/*.xlk", "**/*.laccdb"].map String.toList

def matchTrailing (suffix : Str) : ℕ → Str → Bool
  | 0, rel => pathMatch suffix rel
  | fuel + 1, rel =>
    pathMatch suffix rel ||
      match afterFirst '/' rel with
      | none => false
      | some rest => matchTrailing suffix fuel rest

def matchDoublestar (pattern rel : Str) : Bool :=
  if pattern = "**" then true
  else match cut "**/" pattern with
    | none => hasPrefix rel (trimSuffix pattern "**")
    | some (before, found) =>
      let suffix := found.drop 3
      if before ≠ [] && !hasPrefix rel before then false
      else matchTrailing suffix rel.length (rel.drop before.length)

def matchPattern (pattern rel : Str) : Bool :=
  if !contains pattern "**" then pathMatch pattern rel else matchDoublestar pattern rel

def isBuiltinIgnored (rel : Path) : Bool :=
  let rel := trimPrefix (replaceAll rel '\\' '/') "./"
  builtinIgnorePatterns.any (fun pattern => matchPattern pattern rel)

def ignoredName (name : Str) : Bool :=
  (builtinIgnorePatterns.map (List.drop 3)).any (fun pattern => pathMatch pattern name)

variable {suffix : Str}

lemma matchTrailing_literal (h : Literal suffix) {fuel : ℕ} {rel : Path} (hf : rel.length ≤ fuel) :
    matchTrailing suffix fuel rel = pathMatch suffix (lastSegment rel) := by
  induction fuel generalizing rel with
  | zero =>
    have hr : rel = [] := List.length_eq_zero_iff.mp (Nat.le_zero.mp hf)
    simp [matchTrailing, hr, lastSegment]
  | succ fuel ih =>
    rw [matchTrailing]
    cases ha : afterFirst '/' rel with
    | none =>
      have hs : split rel = [rel] := split_of_notMem (afterFirst_eq_none.mp ha)
      simp [lastSegment, hs]
    | some rest =>
      obtain ⟨seg, _, rfl, hs⟩ := split_of_afterFirst ha
      have hlen : rest.length ≤ fuel := by
        simp only [List.length_append, List.length_cons] at hf
        omega
      have hno : pathMatch suffix (seg ++ '/' :: rest) = false := by
        by_contra hm
        exact pathMatch_literal h (by simpa using hm) (by simp)
      rw [hno, Bool.false_or, lastSegment_cons hs]
      exact ih hlen

lemma matchPattern_anywhere (h : Literal suffix) (rel : Path) :
    matchPattern ("**/" ++ suffix) rel = pathMatch suffix (lastSegment rel) := by
  have hc : contains ("**/" ++ suffix) "**" = true := by simp [contains, cut, hasPrefix]
  have hcut : cut "**/" ("**/" ++ suffix) = some ([], "**/" ++ suffix) := by simp [cut, hasPrefix]
  have hne : "**/" ++ suffix ≠ "**" := by simp
  rw [matchPattern, hc, matchDoublestar, if_neg hne, hcut]
  simpa using matchTrailing_literal h le_rfl

lemma builtinIgnorePatterns_literal :
    ∀ pattern ∈ builtinIgnorePatterns, pattern = "**/" ++ pattern.drop 3 ∧ Literal (pattern.drop 3) := by
  decide

lemma builtin_any (rel : Path) :
    builtinIgnorePatterns.any (fun pattern => matchPattern pattern rel) = ignoredName (lastSegment rel) := by
  rw [ignoredName, List.any_map, Bool.eq_iff_iff, List.any_eq_true, List.any_eq_true]
  refine exists_congr fun pattern => and_congr_right fun hp => ?_
  obtain ⟨hpat, hl⟩ := builtinIgnorePatterns_literal pattern hp
  rw [hpat, matchPattern_anywhere hl, Function.comp_apply, ← hpat]

lemma lastSegment_trimPrefix (rel : Path) : lastSegment (trimPrefix rel "./") = lastSegment rel := by
  rw [trimPrefix]
  split
  · rename_i hp
    obtain ⟨rest, rfl⟩ := hasPrefix_iff.mp hp
    have hs : split ("./" ++ rest) = ['.'] :: split rest := by
      change split ('.' :: '/' :: rest) = _
      rw [split_cons_of_ne (by decide), split_slash]
      rfl
    exact (lastSegment_cons hs).symm
  · rfl

lemma isBuiltinIgnored_eq (rel : Path) : isBuiltinIgnored rel = ignoredName (lastSegment (replaceAll rel '\\' '/')) := by
  rw [isBuiltinIgnored, builtin_any, lastSegment_trimPrefix]

example : isBuiltinIgnored "a/b/~$plan.docx" = true := by decide

end FileES.Policy
