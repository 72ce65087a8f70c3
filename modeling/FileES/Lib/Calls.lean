import FileES.Lib.Completion
import FileES.Lib.Durable

/-! Programs made of calls to the operating system: replacing a file, and commands that leave the modelled state alone. -/

namespace FileES.Lib.Calls

open Lib.Durable Lib.Effects

class Answers (ω : Type) where
  write : ω → Write

instance : Answers Write := ⟨id⟩

variable {σ ω ε : Type}

def settle (w : Write) (e : ε) : Prog σ ω ε Unit := if w.ok then pure () else fail e

variable [Answers ω]

def save (f : σ → σ) (e : ε) : Prog σ ω ε Unit := do
  let a ← ask
  update (fun s => (Answers.write a).store s (f s))
  settle (Answers.write a) e

def tryTo (f : σ → σ) : Prog σ ω ε Unit := do
  let a ← ask
  update (fun s => (Answers.write a).store s (f s))

def command (e : ε) : Prog σ ω ε Unit := do
  let a ← ask
  settle (Answers.write a) e

end FileES.Lib.Calls

namespace FileES.Lib.Effects

open Calls Durable

variable {P Q R : σ → Prop} {f : σ → σ} {e e' : ε}

protected lemma Never.settle {w : Write} (h : e ≠ e') : Never e' (settle w e : Prog σ ω ε Unit) := by
  rw [settle]
  split
  · exact .pure
  · exact .fail h

protected lemma Ensures.settle {w : Write} (h : w.ok = true → ∀ s, P s → Q s) (hR : w.ok = false → ∀ s, P s → R s) :
    Ensures P (settle w e : Prog σ ω ε Unit) (fun _ => Q) R := by
  cases hw : w.ok with
  | true =>
    rw [settle, hw, if_pos rfl]
    exact .pure (h hw)
  | false =>
    rw [settle, hw, if_neg (by decide)]
    exact .fail (hR hw)

variable [Answers ω]

protected lemma Ensures.save (hR : ∀ s, P s → R s) (hQ : ∀ s, P s → Q (f s)) (hRf : ∀ s, P s → R (f s)) :
    Ensures P (save f e : Prog σ ω ε Unit) (fun _ => Q) R := by
  refine .bind (.ask (T := fun _ => P) hR (fun _ _ hs => hs)) (fun a => ?_)
  have hstore : ∀ s, P s → ((Answers.write a).ok = true → Q ((Answers.write a).store s (f s))) ∧
      R ((Answers.write a).store s (f s)) := by
    intro s hs
    cases Answers.write a with
    | done => exact ⟨fun _ => hQ s hs, hRf s hs⟩
    | failed => exact ⟨fun h => absurd h (by decide), hR s hs⟩
    | unsynced => exact ⟨fun h => absurd h (by decide), hRf s hs⟩
  refine .seq (Q := fun s => ((Answers.write a).ok = true → Q s) ∧ R s) (.update hstore) ?_
  exact .settle (fun hw s hs => hs.1 hw) (fun _ s hs => hs.2)

protected lemma Ensures.save_at {s₀ : σ} (hR : R s₀) (hQ : Q (f s₀)) (hRf : R (f s₀)) :
    Ensures (· = s₀) (save f e : Prog σ ω ε Unit) (fun _ => Q) R := by
  refine .save (at_start hR) ?_ ?_
  · rintro _ rfl
    exact hQ
  · rintro _ rfl
    exact hRf

protected lemma Ensures.tryTo (hR : ∀ s, P s → R s) (hP : ∀ s, P s → P (f s)) :
    Ensures P (tryTo f : Prog σ ω ε Unit) (fun _ => P) R := by
  refine .bind (.ask (T := fun _ => P) hR (fun _ _ hs => hs)) (fun a => .update (fun s hs => ?_))
  cases Answers.write a with
  | done => exact hP s hs
  | failed => exact hs
  | unsynced => exact hP s hs

protected lemma Quiet.command : Quiet (command e : Prog σ ω ε Unit) := by
  refine .bind .ask (fun a => ?_)
  rw [settle]
  split
  · exact .pure
  · exact .fail

protected lemma Ensures.command (hR : ∀ s, P s → R s) : Ensures P (command e : Prog σ ω ε Unit) (fun _ => P) R :=
  Quiet.command.ensures hR

protected lemma Never.command (h : e ≠ e') : Never e' (command e : Prog σ ω ε Unit) :=
  .bind .ask (fun _ => .settle h)

protected lemma Never.save (h : e ≠ e') : Never e' (save f e : Prog σ ω ε Unit) :=
  .bind .ask (fun _ => .bind .update (fun _ => .settle h))

section

variable {w : ω} (hw : Answers.write w = .done)
include hw

protected lemma Completes.save (h : ∀ s, P s → Q (f s)) :
    Completes w P (save f e : Prog σ ω ε Unit) (fun _ => Q) := by
  refine .bind .ask (fun a s hs => ?_)
  obtain ⟨rfl, hs⟩ := hs
  refine Completes.bind (P := P) (Q := fun _ => Q) (.update (fun s hs => ?_)) (fun _ => ?_) s hs
  · rw [hw]
    exact h s hs
  · rw [settle, hw]
    exact .pure (fun s hs => hs)

lemma Completes.tryTo_done (h : ∀ s, P s → Q (f s)) : Completes w P (tryTo f : Prog σ ω ε Unit) (fun _ => Q) := by
  refine .bind .ask (fun a s hs => ?_)
  obtain ⟨rfl, hs⟩ := hs
  refine Completes.update (P := P) (fun s hs => ?_) s hs
  rw [hw]
  exact h s hs

protected lemma Completes.command : Completes w P (command e : Prog σ ω ε Unit) (fun _ => P) := by
  refine .bind .ask (fun a s hs => ?_)
  obtain ⟨rfl, hs⟩ := hs
  rw [settle, hw]
  exact Completes.pure (P := P) (fun s hs => hs) s hs

end

end FileES.Lib.Effects
