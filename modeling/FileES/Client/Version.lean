import FileES.Client.Update
import Mathlib.Order.PiLex

/-! The order of the client's versions. -/

namespace FileES.Update

open Go List

def components (v : Str) : List Str := (canonicalClientVersion v).splitOn '.'

/-- A version of dot-separated runs of ASCII digits. -/
abbrev NumericVersion := { v : Str // ∀ part ∈ components v, part ≠ [] ∧ allDigits part = true }

abbrev number (part : Str) : ℕ := Nat.ofDigitChars 10 part 0

/-- The numbers of the parts, followed by zeros. -/
def numbers (parts : List Str) : Lex (ℕ → ℕ) := toLex (fun i => number (parts.getD i []))

def NumericVersion.order (v : NumericVersion) : Lex (ℕ → ℕ) := numbers (components v)

variable {p q : Str} {c : Char} {x y : List Str}

lemma number_cons : number (c :: p) = 10 ^ p.length * (c.toNat - 48) + number p := by
  rw [number, Nat.ofDigitChars_cons, Nat.ofDigitChars_eq_ofDigitChars_zero, Nat.mul_zero, Nat.zero_add]
  rfl

lemma allDigits_cons : allDigits (c :: p) = true ↔ (48 ≤ c.toNat ∧ c.toNat ≤ 57) ∧ allDigits p = true := by
  simp [allDigits, Char.isDigit, UInt32.le_iff_toNat_le]

lemma mul_add_lt {k a b r : ℕ} (hr : r < k) (h : a < b) : k * a + r < k * b :=
  calc k * a + r < k * a + k := Nat.add_lt_add_left hr _
    _ ≤ k * b := Nat.mul_le_mul_left k h

lemma number_lt (h : allDigits p = true) : number p < 10 ^ p.length := by
  induction p with
  | nil => exact Nat.one_pos
  | cons c p ih =>
    obtain ⟨hc, hp⟩ := allDigits_cons.mp h
    rw [number_cons, length_cons, pow_succ]
    exact mul_add_lt (ih hp) (by omega)

lemma number_lt_of_lex (hl : p.length = q.length) (hp : allDigits p = true) (hq : allDigits q = true) (h : p < q) :
    number p < number q := by
  induction p generalizing q with
  | nil =>
    cases q with
    | nil => exact absurd h (lt_irrefl _)
    | cons d q => cases hl
  | cons c p ih =>
    cases q with
    | nil => cases hl
    | cons d q =>
      obtain ⟨hc, hp⟩ := allDigits_cons.mp hp
      obtain ⟨hd, hq'⟩ := allDigits_cons.mp hq
      replace hl : p.length = q.length := Nat.succ.inj hl
      rw [number_cons, number_cons, hl]
      rcases cons_lt_cons_iff.mp h with hlt | ⟨rfl, hlt⟩
      · have hlt : c.toNat < d.toNat := hlt
        have hlow : number p < 10 ^ q.length := hl ▸ number_lt hp
        exact (mul_add_lt hlow (by omega)).trans_le (Nat.le_add_right _ _)
      · exact Nat.add_lt_add_left (ih hl hp hq' hlt) _

/-- Digits without a needless zero in front. -/
structure Normal (p : Str) : Prop where
  digits : allDigits p = true
  shape : ∃ c t, p = c :: t ∧ (t ≠ [] → c ≠ '0')

lemma normal_numericPart (h : allDigits p = true) : Normal (numericPart p) ∧ number (numericPart p) = number p := by
  induction p with
  | nil => exact ⟨⟨rfl, _, _, rfl, fun h => absurd rfl h⟩, rfl⟩
  | cons c p ih =>
    by_cases hc : c = '0'
    · subst hc
      have heq : numericPart ('0' :: p) = numericPart p := by simp [numericPart]
      rw [heq, number_cons]
      simpa using ih (allDigits_cons.mp h).2
    · have heq : numericPart (c :: p) = c :: p := by simp [numericPart, hc]
      rw [heq]
      exact ⟨⟨h, c, p, rfl, fun _ => hc⟩, rfl⟩

lemma Normal.number_lt (hp : Normal p) (hq : Normal q) (h : p.length < q.length) : number p < number q := by
  obtain ⟨hdp, c, t, rfl, -⟩ := hp
  obtain ⟨hdq, d, u, rfl, hu⟩ := hq
  rw [length_cons, length_cons] at h
  have hne : d.toNat ≠ 48 := fun h48 => hu (by rintro rfl; simp at h) (Char.toNat_inj.mp h48)
  have hd : 0 < d.toNat - 48 := by
    have := allDigits_cons.mp hdq
    omega
  calc number (c :: t) < 10 ^ (c :: t).length := Update.number_lt hdp
    _ ≤ 10 ^ u.length := Nat.pow_le_pow_right (by decide) (Nat.le_of_lt_succ h)
    _ ≤ 10 ^ u.length * (d.toNat - 48) := Nat.le_mul_of_pos_right _ hd
    _ ≤ number (d :: u) := number_cons ▸ Nat.le_add_right _ _

lemma comparePart_numericPart (hp : allDigits p = true) (hq : allDigits q = true) :
    comparePart (numericPart p) (numericPart q) = compare (number p) (number q) := by
  obtain ⟨hp, hnp⟩ := normal_numericPart hp
  obtain ⟨hq, hnq⟩ := normal_numericPart hq
  rw [← hnp, ← hnq, comparePart]
  split
  · exact (compare_lt_iff_lt.mpr (hp.number_lt hq ‹_›)).symm
  · split
    · exact (compare_gt_iff_gt.mpr (hq.number_lt hp ‹_›)).symm
    · have hl : (numericPart p).length = (numericPart q).length := by omega
      split
      · exact (compare_lt_iff_lt.mpr (number_lt_of_lex hl hp.digits hq.digits ‹_›)).symm
      · split
        · exact (compare_gt_iff_gt.mpr (number_lt_of_lex hl.symm hq.digits hp.digits ‹_›)).symm
        · rename_i hle hge
          rw [le_antisymm (not_lt.mp hge) (not_lt.mp hle)]
          exact (compare_eq_iff_eq.mpr rfl).symm

lemma numbers_lt_iff : numbers y < numbers x ↔ number (y.headD []) < number (x.headD []) ∨
    number (y.headD []) = number (x.headD []) ∧ numbers y.tail < numbers x.tail := by
  change (∃ i, _) ↔ _ ∨ _ ∧ ∃ i, _
  rw [← Nat.or_exists_add_one]
  simp only [Nat.forall_lt_succ_left]
  cases x <;> cases y <;> simp [numbers, and_assoc]

lemma padTo_succ (n : ℕ) : padTo (n + 1) (x.map numericPart) =
    numericPart (x.headD []) :: padTo n (x.tail.map numericPart) := by
  cases x <;> simp [padTo, numericPart, replicate_succ]

abbrev Digits (x : List Str) : Prop := ∀ p ∈ x, allDigits p = true

lemma Digits.head (h : Digits x) : allDigits (x.headD []) = true := by
  cases x with
  | nil => rfl
  | cons p x => exact h p mem_cons_self

lemma foldl_gt {n : ℕ} (hx : x.length ≤ n) (hy : y.length ≤ n) (hdx : Digits x) (hdy : Digits y) (o : Ordering) :
    (zipWith comparePart (padTo n (x.map numericPart)) (padTo n (y.map numericPart))).foldl (fun o o' => o.then o') o =
      .gt ↔ o = .gt ∨ o = .eq ∧ numbers y < numbers x := by
  induction n generalizing x y o with
  | zero =>
    rw [length_eq_zero_iff.mp (Nat.le_zero.mp hx), length_eq_zero_iff.mp (Nat.le_zero.mp hy)]
    have h : ¬ numbers [] < numbers [] := lt_irrefl _
    simp [padTo, h]
  | succ n ih =>
    rw [padTo_succ, padTo_succ, zipWith_cons_cons, foldl_cons, comparePart_numericPart hdx.head hdy.head,
      ih (by simpa using hx) (by simpa using hy) (fun p hp => hdx p (mem_of_mem_tail hp))
        (fun p hp => hdy p (mem_of_mem_tail hp)), numbers_lt_iff (x := x)]
    cases o with
    | lt => simp
    | eq => simp [compare_gt_iff_gt, eq_comm (b := number (x.head?.getD []))]
    | gt => simp

lemma available_iff (v w : NumericVersion) : clientUpdateAvailable v w = true ↔ w.order < v.order := by
  have hparts : ∀ v : NumericVersion, numericClientVersionParts v = some ((components v).map numericPart) := by
    intro v
    exact if_pos (by simpa [components] using v.2)
  have hv : Digits (components v) := fun p hp => (v.2 p hp).2
  have hw : Digits (components w) := fun p hp => (w.2 p hp).2
  have hfold := foldl_gt (le_max_left _ _) (le_max_right _ _) hv hw .eq
  have hcompare : clientUpdateAvailable v w = true ↔ sameClientVersion v w = false ∧ w.order < v.order := by
    simp only [clientUpdateAvailable, compareNumericClientVersions, hparts, compareParts]
    simp [hfold, NumericVersion.order]
  rw [hcompare, and_iff_right_iff_imp]
  intro h
  by_contra hs
  have hsame : canonicalClientVersion v = canonicalClientVersion w := by simpa [sameClientVersion] using hs
  rw [NumericVersion.order, NumericVersion.order, components, components, hsame] at h
  exact lt_irrefl _ h

end FileES.Update
