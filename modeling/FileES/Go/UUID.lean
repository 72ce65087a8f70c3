import FileES.Go.Strings

/-! The spellings that `uuid.Parse` accepts and the one that `UUID.String` writes. -/

namespace FileES.Go

abbrev UUID := List ℕ

def hexValue (b : UInt8) : Option ℕ :=
  if 48 ≤ b.toNat ∧ b.toNat ≤ 57 then some (b.toNat - 48)
  else if 97 ≤ b.toNat ∧ b.toNat ≤ 102 then some (b.toNat - 87)
  else if 65 ≤ b.toNat ∧ b.toNat ≤ 70 then some (b.toNat - 55)
  else none

def hexDigit (n : ℕ) : Char := Char.ofNat (if n < 10 then 48 + n else 87 + n)

def hyphens : List ℕ := [8, 13, 18, 23]

def digitPlaces : List ℕ := (List.range 36).filter (fun i => i ∉ hyphens)

def digitsAt (s : List UInt8) (places : List ℕ) : Option UUID := places.mapM (fun i => s[i]? >>= hexValue)

def parseHyphenated (s : List UInt8) : Option UUID :=
  if hyphens.all (fun i => s[i]? = some 45) then digitsAt s digitPlaces else none

def lowerByte (b : UInt8) : UInt8 := if 65 ≤ b.toNat ∧ b.toNat ≤ 90 then b + 32 else b

def parseUUID (s : Str) : Option UUID :=
  let b := bytes s
  if b.length = 36 then parseHyphenated b
  else if b.length = 45 then
    if (b.take 9).map lowerByte = bytes "urn:uuid:" then parseHyphenated (b.drop 9) else none
  else if b.length = 38 then parseHyphenated (b.drop 1)
  else if b.length = 32 then digitsAt b (List.range 32)
  else none

def uuidString (u : UUID) : Str :=
  let d := u.map hexDigit
  d.take 8 ++ '-' :: (d.drop 8).take 4 ++ '-' :: (d.drop 12).take 4 ++ '-' :: (d.drop 16).take 4 ++ '-' :: d.drop 20

def isUUID (s : Str) : Bool := (parseUUID s).isSome

def canonicalUUID (s : Str) : Bool := (parseUUID s).map uuidString = some s

end FileES.Go
