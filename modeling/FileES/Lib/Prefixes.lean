import Mathlib.Tactic

/-! Taking the longest prefix of a list whose elements all pass a test against what was taken before. -/

namespace FileES.Lib.Prefixes

open List

variable {S A : Type} (ok : S → A → Bool) (next : S → A → S)

def takeAcc : S → List A → List A
  | _, [] => []
  | s, a :: l => if ok s a then a :: takeAcc (next s a) l else []

def AllOk : S → List A → Prop
  | _, [] => True
  | s, a :: l => ok s a = true ∧ AllOk (next s a) l

lemma takeAcc_initial (s : S) (l : List A) : takeAcc ok next s l <+: l := by
  induction l generalizing s with
  | nil => exact prefix_refl []
  | cons a l ih =>
    rw [takeAcc]
    split
    · exact cons_prefix_cons.mpr ⟨rfl, ih (next s a)⟩
    · exact List.nil_prefix

variable {s : S}

lemma prefix_takeAcc_iff {l₁ : List A} (l₂ : List A) : l₁ <+: takeAcc ok next s (l₁ ++ l₂) ↔ AllOk ok next s l₁ := by
  induction l₁ generalizing s with
  | nil => simp [AllOk]
  | cons a l₁ ih =>
    rw [cons_append, takeAcc, AllOk, ← ih]
    split
    · rename_i h
      simp [h, cons_prefix_cons]
    · rename_i h
      simp [h]

lemma allOk_takeAcc (s : S) (l : List A) : AllOk ok next s (takeAcc ok next s l) := by
  obtain ⟨rest, hl⟩ := takeAcc_initial ok next s l
  rw [← prefix_takeAcc_iff ok next rest, hl]

lemma takeAcc_maximal (s : S) (l : List A) : takeAcc ok next s l = l ∨
    ∃ a post, l = takeAcc ok next s l ++ a :: post ∧ ¬ AllOk ok next s (takeAcc ok next s l ++ [a]) := by
  obtain ⟨rest, hl⟩ := takeAcc_initial ok next s l
  cases rest with
  | nil => exact .inl (by simpa using hl)
  | cons a post =>
    refine .inr ⟨a, post, hl.symm, fun hok => ?_⟩
    have hlong := (prefix_takeAcc_iff ok next post).mpr hok
    rw [append_assoc, singleton_append, hl] at hlong
    simpa using hlong.length_le

lemma exists_mem_takeAcc_iff {P : A → Prop} {l : List A} : ((∃ a ∈ l, P a) → ∃ a ∈ takeAcc ok next s l, P a) ↔
      ∀ pre a post, l = pre ++ a :: post → (∀ b ∈ pre, ¬ P b) → P a → AllOk ok next s (pre ++ [a]) := by
  constructor
  · intro h pre a post hl hpre ha
    obtain ⟨b, hb, hPb⟩ := h ⟨a, by simp [hl], ha⟩
    have hl' : l = (pre ++ [a]) ++ post := by simp [hl]
    have hp := takeAcc_initial ok next s l
    rcases List.prefix_or_prefix_of_prefix hp (hl' ▸ prefix_append (pre ++ [a]) post) with hshort | hlong
    · rcases prefix_concat_iff.mp hshort with heq | hpre'
      · rw [← prefix_takeAcc_iff ok next post, ← hl', heq]
      · exact (hpre b (hpre'.subset hb) hPb).elim
    · rw [hl'] at hlong
      exact (prefix_takeAcc_iff ok next post).mp hlong
  · rintro h ⟨a, ha, hPa⟩
    classical
    have hfirst : ∃ pre a post, l = pre ++ a :: post ∧ (∀ b ∈ pre, ¬ P b) ∧ P a := by
      clear h
      induction l with
      | nil => cases ha
      | cons b l ih =>
        by_cases hb : P b
        · exact ⟨[], b, l, rfl, by simp, hb⟩
        · rcases mem_cons.mp ha with rfl | ha
          · exact (hb hPa).elim
          · obtain ⟨pre, c, post, rfl, hpre, hc⟩ := ih ha
            exact ⟨b :: pre, c, post, rfl, by simp [hb]; exact hpre, hc⟩
    obtain ⟨pre, b, post, hl, hpre, hb⟩ := hfirst
    have hl' : l = (pre ++ [b]) ++ post := by simp [hl]
    have hok := (prefix_takeAcc_iff ok next post).mpr (h pre b post hl hpre hb)
    rw [← hl'] at hok
    exact ⟨b, hok.subset (by simp), hb⟩

lemma filter_le_of_sorted {K : Type} [LinearOrder K] (key : A → K) {pre post : List A} {a : A}
    (hs : (pre ++ a :: post).Pairwise (fun x y => key x < key y)) :
    (pre ++ a :: post).filter (fun x => key x ≤ key a) = pre ++ [a] := by
  obtain ⟨_, hcons, hpre⟩ := pairwise_append.mp hs
  have hpost := (pairwise_cons.mp hcons).1
  have hlow : pre.filter (fun x => key x ≤ key a) = pre := by
    apply filter_eq_self.mpr
    intro x hx
    simpa using (hpre x hx a (by simp)).le
  have hhigh : post.filter (fun x => key x ≤ key a) = [] := by
    apply filter_eq_nil_iff.mpr
    intro x hx
    simpa using hpost x hx
  rw [filter_append, filter_cons_of_pos (by simp), hlow, hhigh]

end FileES.Lib.Prefixes
