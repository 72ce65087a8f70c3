import Mathlib.Data.Char
import Mathlib.Data.List.DropRight
import Mathlib.Data.List.Lex
import Mathlib.Tactic

/-! The string functions of Go's standard library that the program calls, over valid UTF-8 text. -/

namespace FileES.Go

open List Option

abbrev Str := List Char

instance : LawfulBEq Str := inferInstance

instance : Coe String Str := ⟨String.toList⟩

variable (s : Str)

def byteLen : ℕ := (s.map Char.utf8Size).sum

def bytes : List UInt8 := s.flatMap String.utf8EncodeChar

def hasPrefix (p : Str) : Bool := p.isPrefixOf s

def trimPrefix (p : Str) : Str := if hasPrefix s p then s.drop p.length else s

def hasSuffix (p : Str) : Bool := p.isSuffixOf s

def trimSuffix (p : Str) : Str := if hasSuffix s p then s.take (s.length - p.length) else s

def cut (sub : Str) : Str → Option (Str × Str)
  | [] => if sub = [] then some ([], []) else none
  | c :: s =>
    if hasPrefix (c :: s) sub then some ([], c :: s)
    else (cut sub s).map (fun r => (c :: r.1, r.2))

def contains (sub : Str) : Bool := (cut sub s).isSome

def containsAny (chars : Str) : Bool := s.any (fun c => chars.contains c)

def replaceAll (old new : Char) : Str := s.map (fun c => if c = old then new else c)

def afterFirst (c : Char) : Str → Option Str
  | [] => none
  | d :: s => if d = c then some s else afterFirst c s

def beforeLast (c : Char) (s : Str) : Option Str := (afterFirst c s.reverse).map List.reverse

def trim (c : Char) (s : Str) : Str := (s.dropWhile (· = c)).rdropWhile (· = c)

def isSpace (c : Char) : Bool :=
  let n := c.toNat
  (9 ≤ n && n ≤ 13) || n = 0x20 || n = 0x85 || n = 0xA0 || n = 0x1680 || (0x2000 ≤ n && n ≤ 0x200A) ||
    n = 0x2028 || n = 0x2029 || n = 0x202F || n = 0x205F || n = 0x3000

def trimSpace : Str := (s.dropWhile isSpace).rdropWhile isSpace

/-- Besides capitals only the long s and the Kelvin sign fold onto ASCII, so this is exact against an ASCII
constant. -/
def foldRune (c : Char) : Char :=
  if c = Char.ofNat 0x17F then 's' else if c = Char.ofNat 0x212A then 'k' else c.toLower

def equalFold (t : Str) : Bool := s.map foldRune == t.map foldRune

/-- `strings.ToUpper`, exact for membership in a set of ASCII words without `I` and `S`. -/
def toUpperASCII : Str := s.map Char.toUpper

lemma text_ne {a b : String} (h : decide (a = b) = false) : a.toList ≠ b.toList :=
  fun e => of_decide_eq_false h (String.toList_inj.mp e)

variable {s p t : Str} {c : Char}

lemma hasPrefix_iff : hasPrefix s p = true ↔ p <+: s := by simp [hasPrefix]

lemma hasSuffix_iff : hasSuffix s p = true ↔ p <:+ s := isSuffixOf_iff_suffix

lemma containsAny_eq_false {chars : Str} : containsAny s chars = false ↔ ∀ c ∈ s, c ∉ chars := by simp [containsAny]

lemma afterFirst_eq_some : afterFirst c s = some t ↔ ∃ u, c ∉ u ∧ s = u ++ c :: t := by
  constructor
  · intro h
    induction s with
    | nil => cases h
    | cons d s ih =>
      by_cases hd : d = c
      · simp only [afterFirst, hd, if_true, some.injEq] at h
        exact ⟨[], by simp, by simp [hd, h]⟩
      · simp only [afterFirst, hd, if_false] at h
        obtain ⟨u, hu, rfl⟩ := ih h
        exact ⟨d :: u, by simp [hu, Ne.symm hd], rfl⟩
  · rintro ⟨u, hu, rfl⟩
    induction u with
    | nil => simp [afterFirst]
    | cons d u ih =>
      rw [mem_cons, not_or] at hu
      simp [afterFirst, Ne.symm hu.1, ih hu.2]

lemma afterFirst_length (h : afterFirst c s = some t) : t.length < s.length := by
  obtain ⟨u, _, rfl⟩ := afterFirst_eq_some.mp h
  simp only [length_append, length_cons]
  omega

lemma beforeLast_eq_some : beforeLast c s = some t ↔ ∃ u, c ∉ u ∧ s = t ++ c :: u := by
  simp only [beforeLast, map_eq_some_iff, afterFirst_eq_some]
  constructor
  · rintro ⟨v, ⟨u, hu, hs⟩, rfl⟩
    exact ⟨u.reverse, by simpa using hu, by simpa using congrArg reverse hs⟩
  · rintro ⟨u, hu, rfl⟩
    exact ⟨t.reverse, ⟨u.reverse, by simpa using hu, by simp⟩, by simp⟩

lemma beforeLast_length (h : beforeLast c s = some t) : t.length < s.length := by
  obtain ⟨u, hu, rfl⟩ := map_eq_some_iff.mp h
  simpa using afterFirst_length hu

end FileES.Go
