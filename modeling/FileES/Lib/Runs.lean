import Mathlib.Tactic

/-! Runs of a deterministic machine, and the conditions under which every state of a run is good. -/

namespace FileES.Lib.Runs

open List

variable {S E : Type} (step : S → E → S)

def run (s : S) (es : List E) : S := es.foldl step s

/-- Every step of the run from `s` is taken in a state where `C` admits it. -/
def Admits (C : S → E → Prop) : S → List E → Prop
  | _, [] => True
  | s, e :: es => C s e ∧ Admits C (step s e) es

instance decidableAdmits (C : S → E → Prop) [∀ s e, Decidable (C s e)] (s : S) (es : List E) :
    Decidable (Admits step C s es) :=
  match es with
  | [] => isTrue trivial
  | e :: es =>
    have := decidableAdmits C (step s e) es
    inferInstanceAs (Decidable (C s e ∧ Admits step C (step s e) es))

/-- `P` holds in every state the run from `s` passes through. -/
def Along (P : S → Prop) (s : S) (es : List E) : Prop :=
  ∀ pre, pre <+: es → P (run step s pre)

@[simp] lemma run_nil (s : S) : run step s [] = s := rfl

@[simp] lemma run_cons (s : S) (e : E) (es : List E) : run step s (e :: es) = run step (step s e) es := rfl

lemma run_append (s : S) (es fs : List E) : run step s (es ++ fs) = run step (run step s es) fs := by
  simp [run, foldl_append]

lemma along_cons (P : S → Prop) (s : S) (e : E) (es : List E) :
    Along step P s (e :: es) ↔ P s ∧ Along step P (step s e) es := by
  constructor
  · intro h
    refine ⟨h [] List.nil_prefix, ?_⟩
    intro pre hp
    exact h (e :: pre) (cons_prefix_cons.mpr ⟨rfl, hp⟩)
  · rintro ⟨hs, h⟩ pre hp
    cases pre with
    | nil => exact hs
    | cons f pre =>
      obtain ⟨rfl, ht⟩ := cons_prefix_cons.mp hp
      exact h pre ht

@[simp] lemma along_nil (P : S → Prop) (s : S) : Along step P s [] ↔ P s := by simp [Along]

variable {P I : S → Prop} {s : S} {es : List E} {C D : S → E → Prop}

lemma Along.last (h : Along step P s es) : P (run step s es) := h es (prefix_refl es)

lemma run_invariant (hstep : ∀ s e, I s → I (step s e)) (hs : I s) (es : List E) : I (run step s es) := by
  induction es generalizing s with
  | nil => exact hs
  | cons e es ih => exact ih (hstep s e hs)

lemma Admits.at_step {pre : List E} {e : E} (h : Admits step C s es) (hp : pre ++ [e] <+: es) :
    C (run step s pre) e := by
  induction pre generalizing s es with
  | nil =>
    cases es with
    | nil => cases prefix_nil.mp hp
    | cons e' es =>
      obtain ⟨rfl, _⟩ := cons_prefix_cons.mp hp
      exact h.1
  | cons e' pre ih =>
    cases es with
    | nil => cases prefix_nil.mp hp
    | cons f es =>
      obtain ⟨rfl, hrest⟩ := cons_prefix_cons.mp hp
      exact ih h.2 hrest

lemma Admits.and (h : Admits step C s es) (h' : Admits step D s es) :
    Admits step (fun s e => C s e ∧ D s e) s es := by
  induction es generalizing s with
  | nil => trivial
  | cons e es ih => exact ⟨⟨h.1, h'.1⟩, ih h.2 h'.2⟩

lemma Admits.mono (h : Admits step C s es) (hcd : ∀ s e, C s e → D s e) : Admits step D s es := by
  induction es generalizing s with
  | nil => trivial
  | cons e es ih => exact ⟨hcd s e h.1, ih h.2⟩

lemma along_of_admits (hstep : ∀ s e, I s → C s e → I (step s e)) (hs : I s) (h : Admits step C s es) :
    Along step I s es := by
  induction es generalizing s with
  | nil => simpa using hs
  | cons e es ih => exact (along_cons step I s e es).mpr ⟨hs, ih (hstep s e hs h.1) h.2⟩

lemma along_iff_admits_of (hinv : ∀ s e, I s → D s e → I (step s e))
    (hstep : ∀ s e, I s → P s → D s e → (P (step s e) ↔ C s e)) (hs : I s) (hp : P s) (hd : Admits step D s es) :
    Along step P s es ↔ Admits step C s es := by
  induction es generalizing s with
  | nil => simpa [Admits] using hp
  | cons e es ih =>
    rw [along_cons]
    constructor
    · rintro ⟨_, h⟩
      have he : P (step s e) := h [] List.nil_prefix
      exact ⟨(hstep s e hs hp hd.1).mp he, (ih (hinv s e hs hd.1) he hd.2).mp h⟩
    · rintro ⟨hc, h⟩
      have he : P (step s e) := (hstep s e hs hp hd.1).mpr hc
      exact ⟨hp, (ih (hinv s e hs hd.1) he hd.2).mpr h⟩

lemma admits_true (s : S) (es : List E) : Admits step (fun _ _ => True) s es := by
  induction es generalizing s with
  | nil => trivial
  | cons e es ih => exact ⟨trivial, ih (step s e)⟩

lemma along_iff_admits (hinv : ∀ s e, I s → I (step s e)) (hstep : ∀ s e, I s → P s → (P (step s e) ↔ C s e))
    (hs : I s) (hp : P s) (es : List E) : Along step P s es ↔ Admits step C s es :=
  along_iff_admits_of step (fun s e h _ => hinv s e h) (fun s e h h' _ => hstep s e h h') hs hp (admits_true step s es)

end FileES.Lib.Runs
