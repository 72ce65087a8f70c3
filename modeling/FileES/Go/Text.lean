import FileES.Go.UUID

/-! Letter case, numbers and the hexadecimal and base64 encodings, as the validators of public channels use them. -/

namespace FileES.Go

open List

structure Lowering where
  rune : Char → Char
  idem : ∀ c, rune (rune c) = rune c
  space : ∀ c, isSpace (rune c) = isSpace c

def toLower (L : Lowering) (s : Str) : Str := s.map L.rune

lemma toNat_ofNat_ascii : ∀ n < 128, (Char.ofNat n).toNat = n := by decide

def lowerASCII (c : Char) : Char := if 65 ≤ c.toNat ∧ c.toNat ≤ 90 then Char.ofNat (c.toNat + 32) else c

lemma toNat_lowerASCII (c : Char) : lowerASCII c = c ∧ ¬ (65 ≤ c.toNat ∧ c.toNat ≤ 90) ∨
      (65 ≤ c.toNat ∧ c.toNat ≤ 90) ∧ (lowerASCII c).toNat = c.toNat + 32 := by
  by_cases hc : 65 ≤ c.toNat ∧ c.toNat ≤ 90
  · right
    refine ⟨hc, ?_⟩
    rw [lowerASCII, if_pos hc]
    exact toNat_ofNat_ascii _ (by omega)
  · exact .inl ⟨if_neg hc, hc⟩

lemma isSpace_eq_false {c : Char} (h : 64 < c.toNat) (h' : c.toNat < 128) : isSpace c = false := by
  simp [isSpace]
  omega

def Lowering.ascii : Lowering where
  rune := lowerASCII
  idem := by
    intro c
    rcases toNat_lowerASCII c with ⟨h, _⟩ | ⟨hc, h⟩
    · rw [h, h]
    · rcases toNat_lowerASCII (lowerASCII c) with ⟨h', _⟩ | ⟨hc', _⟩
      · exact h'
      · omega
  space := by
    intro c
    rcases toNat_lowerASCII c with ⟨h, _⟩ | ⟨hc, h⟩
    · rw [h]
    · rw [isSpace_eq_false (by omega) (by omega), isSpace_eq_false (by omega) (by omega)]

def isControl (c : Char) : Bool := c.toNat < 0x20 || (0x7F ≤ c.toNat && c.toNat < 0xA0)

def isDigit (c : Char) : Bool := '0' ≤ c && c ≤ '9'

def parseUint32 (s : Str) : Option ℕ :=
  if s ≠ [] ∧ s.all isDigit then
    let n := s.foldl (fun n c => 10 * n + (c.toNat - 48)) 0
    if n < 2 ^ 32 then some n else none
  else none

def hexEncode (b : List UInt8) : Str :=
  b.flatMap (fun x => [hexDigit (x.toNat / 16), hexDigit (x.toNat % 16)])

def isHex (s : Str) : Bool := (bytes s).length % 2 = 0 && (bytes s).all (fun b => (hexValue b).isSome)

def sextet (c : Char) : Option ℕ :=
  if 'A' ≤ c ∧ c ≤ 'Z' then some (c.toNat - 65)
  else if 'a' ≤ c ∧ c ≤ 'z' then some (c.toNat - 71)
  else if isDigit c then some (c.toNat + 4)
  else if c = '+' then some 62
  else if c = '/' then some 63
  else none

def unpack : List ℕ → Option (List ℕ)
  | [] => some []
  | [_] => none
  | [a, b] => if b % 16 = 0 then some [a * 4 + b / 16] else none
  | [a, b, c] => if c % 4 = 0 then some [a * 4 + b / 16, b % 16 * 16 + c / 4] else none
  | a :: b :: c :: d :: rest => (unpack rest).map ([a * 4 + b / 16, b % 16 * 16 + c / 4, c % 4 * 64 + d] ++ ·)

def decodeBase64 (s : Str) : Option (List ℕ) :=
  (s.filter (fun c => c ≠ '\r' && c ≠ '\n')).mapM sextet >>= unpack

variable {s : Str}

lemma dropWhile_rdropWhile (p : Char → Bool) (t : Str) :
    ((t.dropWhile p).rdropWhile p).dropWhile p = (t.dropWhile p).rdropWhile p := by
  rw [dropWhile_eq_self_iff]
  intro hl
  obtain ⟨u, hu⟩ := List.rdropWhile_prefix p (t.dropWhile p)
  have hpos : 0 < (t.dropWhile p).length := by
    rw [← hu, length_append]
    omega
  have hfirst := dropWhile_get_zero_not p t hpos
  rw [get_eq_getElem, getElem_of_eq hu.symm hpos, getElem_append_left hl] at hfirst
  exact hfirst

lemma trimSpace_idem (s : Str) : trimSpace (trimSpace s) = trimSpace s := by
  rw [trimSpace, trimSpace, dropWhile_rdropWhile, rdropWhile_idempotent]

lemma trim_idem (c : Char) (s : Str) : trim c (trim c s) = trim c s := by
  rw [trim, trim, dropWhile_rdropWhile, rdropWhile_idempotent]

lemma trimSpace_toLower (L : Lowering) (s : Str) : trimSpace (toLower L s) = toLower L (trimSpace s) := by
  have hcomp : isSpace ∘ L.rune = isSpace := funext L.space
  simp only [trimSpace, toLower, rdropWhile, dropWhile_map, hcomp, ← map_reverse]

lemma toLower_idem (L : Lowering) (s : Str) : toLower L (toLower L s) = toLower L s := by
  simp only [toLower, map_map]
  exact map_congr_left (fun c _ => L.idem c)

lemma hexDigit_ascii : ∀ n < 16, bytes [hexDigit n] = [UInt8.ofNat (hexDigit n).toNat] ∧
    (hexValue (UInt8.ofNat (hexDigit n).toNat)).isSome = true := by decide

lemma bytes_append (s t : Str) : bytes (s ++ t) = bytes s ++ bytes t := by simp [bytes]

lemma bytes_hexEncode (b : List UInt8) :
    (bytes (hexEncode b)).length = 2 * b.length ∧ (bytes (hexEncode b)).all (fun x => (hexValue x).isSome) = true := by
  induction b with
  | nil => exact ⟨rfl, rfl⟩
  | cons x b ih =>
    have hx : x.toNat < 256 := x.toNat_lt
    obtain ⟨hhi, hhi'⟩ := hexDigit_ascii (x.toNat / 16) (by omega)
    obtain ⟨hlo, hlo'⟩ := hexDigit_ascii (x.toNat % 16) (by omega)
    have hsplit : bytes (hexEncode (x :: b)) = bytes [hexDigit (x.toNat / 16)] ++
        (bytes [hexDigit (x.toNat % 16)] ++ bytes (hexEncode b)) := by
      simp only [← bytes_append]
      rfl
    rw [hsplit, hhi, hlo]
    refine ⟨?_, ?_⟩
    · simp only [length_append, ih.1, length_cons, length_nil]
      omega
    · simp only [all_append, all_cons, all_nil, hhi', hlo', ih.2, Bool.and_true]

lemma isHex_hexEncode (b : List UInt8) : isHex (hexEncode b) = true := by
  obtain ⟨hlen, hall⟩ := bytes_hexEncode b
  simp [isHex, hlen, hall]

example : decodeBase64 "YWJjZA" = some [97, 98, 99, 100] := by decide

end FileES.Go
