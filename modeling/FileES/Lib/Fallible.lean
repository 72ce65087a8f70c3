import Mathlib.Tactic

/-! Taking apart computations that may fail. -/

namespace FileES.Lib.Fallible

open List

variable {ε α β : Type}

variable {x : Except ε α} {f : α → Except ε β} {b b' : β} {c : Bool} {e : ε} {a : α} {as : List α} {bs : List β}
  {γ : Type} {p : Prop}

lemma bind_ok : (x >>= f) = .ok b ↔ ∃ a, x = .ok a ∧ f a = .ok b := by
  cases x with
  | error e =>
    refine ⟨?_, ?_⟩
    · intro h
      cases h
    · rintro ⟨_, h, _⟩
      cases h
  | ok a =>
    refine ⟨fun h => ⟨a, rfl, h⟩, ?_⟩
    rintro ⟨_, h, hf⟩
    cases h
    exact hf

def require (c : Bool) (e : ε) : Except ε Unit := if c then .ok () else .error e

lemma bind₂_ok {g : α → β → Except ε γ} {y : γ} :
    (x >>= fun a => f a >>= g a) = .ok y ↔ ∃ a, x = .ok a ∧ ∃ b, f a = .ok b ∧ g a b = .ok y := by
  simp only [bind_ok]

lemma bind₃_ok {δ : Type} {g : α → β → Except ε γ} {k : α → β → γ → Except ε δ} {y : δ} :
    (x >>= fun a => f a >>= fun b => g a b >>= k a b) = .ok y ↔
      ∃ a, x = .ok a ∧ ∃ b, f a = .ok b ∧ ∃ c, g a b = .ok c ∧ k a b c = .ok y := by
  simp only [bind_ok]

lemma require_ok {u : Unit} : require c e = .ok u ↔ c = true := by
  cases c with
  | false => simp [require]
  | true => simp [require]

lemma guard_ok [Decidable p] : (if p then .error e else x) = .ok a ↔ ¬ p ∧ x = .ok a := by split <;> simp [*]

lemma ite_ok [Decidable p] : (if p then x else .error e) = .ok a ↔ p ∧ x = .ok a := by split <;> simp [*]

def present (o : Option α) (e : ε) : Except ε α :=
  match o with
  | some a => .ok a
  | none => .error e

lemma present_eq_ok {o : Option α} : present o e = .ok a ↔ o = some a := by
  cases o with
  | none => simp [present]
  | some b => simp [present]

lemma require_ne_error {e' : ε} (h : e ≠ e') : require c e ≠ .error e' := by
  cases c with
  | false => exact fun hc => h (by cases hc; rfl)
  | true => exact fun hc => by cases hc

lemma bind_ne_error (hx : x ≠ .error e) (hf : ∀ a, f a ≠ .error e) : (x >>= f) ≠ .error e := by
  cases x with
  | error e' => exact fun h => hx (by cases h; rfl)
  | ok a => exact hf a

lemma mapM_ne_error (hf : ∀ a, f a ≠ .error e) : as.mapM f ≠ .error e := by
  induction as with
  | nil => exact fun h => by cases h
  | cons a as ih =>
    rw [mapM_cons]
    exact bind_ne_error (hf a) (fun _ => bind_ne_error ih (fun _ h => by cases h))

lemma forall₂_of_mapM_eq_ok (h : as.mapM f = .ok bs) : List.Forall₂ (fun a b => f a = .ok b) as bs := by
  induction as generalizing bs with
  | nil =>
    cases h
    exact .nil
  | cons a as ih =>
    rw [mapM_cons] at h
    obtain ⟨b', hb', h⟩ := bind_ok.mp h
    obtain ⟨bs', hbs', h⟩ := bind_ok.mp h
    cases h
    exact .cons hb' (ih hbs')

lemma mem_of_mapM_eq_ok (h : as.mapM f = .ok bs) : b ∈ bs ↔ ∃ a ∈ as, f a = .ok b := by
  replace h := forall₂_of_mapM_eq_ok h
  induction h with
  | nil => simp
  | cons hb _ ih =>
    rw [mem_cons, exists_mem_cons_iff, hb, Except.ok.injEq, eq_comm]
    exact or_congr Iff.rfl ih

lemma exists_of_mapM_eq_ok (h : as.mapM f = .ok bs) (ha : a ∈ as) : ∃ b ∈ bs, f a = .ok b := by
  replace h := forall₂_of_mapM_eq_ok h
  induction h with
  | nil => cases ha
  | cons hb _ ih =>
    rcases mem_cons.mp ha with rfl | ha
    · exact ⟨_, by simp, hb⟩
    · obtain ⟨b, hb, hf⟩ := ih ha
      exact ⟨b, by simp [hb], hf⟩

lemma map_of_mapM_eq_ok {g : α → γ} {g' : β → γ} (hg : ∀ a b, f a = .ok b → g' b = g a)
    (h : as.mapM f = .ok bs) : bs.map g' = as.map g := by
  replace h := forall₂_of_mapM_eq_ok h
  induction h with
  | nil => rfl
  | cons hb _ ih => rw [map_cons, map_cons, hg _ _ hb, ih]

lemma mapM_eq_ok_map {g : α → β} (h : ∀ a ∈ as, f a = .ok (g a)) : as.mapM f = .ok (as.map g) := by
  induction as with
  | nil => rfl
  | cons a as ih =>
    rw [mapM_cons, h a (by simp), ih (fun b hb => h b (by simp [hb]))]
    rfl

lemma exists_mapM_eq_ok (h : ∀ a ∈ as, ∃ b, f a = .ok b) : ∃ bs, as.mapM f = .ok bs := by
  induction as with
  | nil => exact ⟨[], rfl⟩
  | cons a as ih =>
    obtain ⟨b, hb⟩ := h a (by simp)
    obtain ⟨bs, hbs⟩ := ih (fun a' ha' => h a' (by simp [ha']))
    refine ⟨b :: bs, ?_⟩
    rw [mapM_cons, hb, hbs]
    rfl

lemma foldlM_take_eq_ok {f : β → α → Except ε β} (h : as.foldlM f b = .ok b') (k : ℕ) :
    ∃ u, (as.take k).foldlM f b = .ok u := by
  rw [← take_append_drop k as, foldlM_append] at h
  obtain ⟨u, hu, _⟩ := bind_ok.mp h
  exact ⟨u, hu⟩

lemma foldlM_take_succ_eq_ok {f : β → α → Except ε β} {k : ℕ} (hk : k < as.length) :
    (as.take (k + 1)).foldlM f b = .ok b' ↔ ∃ u, (as.take k).foldlM f b = .ok u ∧ f u as[k] = .ok b' := by
  rw [take_succ_eq_append_getElem hk, foldlM_append, bind_ok]
  simp

lemma map_eq_ok {f : α → β} : x.map f = .ok b ↔ ∃ a, x = .ok a ∧ f a = b := by
  cases x with
  | error e => simp [Except.map]
  | ok a => simp [Except.map]

lemma mapError_eq_ok {ε' : Type} {f : ε → ε'} : x.mapError f = .ok a ↔ x = .ok a := by
  cases x with
  | error e => simp [Except.mapError]
  | ok a => simp [Except.mapError]

end FileES.Lib.Fallible
