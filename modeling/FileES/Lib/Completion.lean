import FileES.Lib.Effects

/-! Programs that end normally when the world always gives the same good answer. -/

namespace FileES.Lib.Effects

variable {σ ω ε α β : Type}

/-- From a state with `P` the program ends normally with `Q`, if it is given enough good answers. -/
def Completes (w : ω) (P : σ → Prop) (m : Prog σ ω ε α) (Q : α → σ → Prop) : Prop :=
  ∀ s, P s → ∃ k a s', Q a s' ∧ ∀ n, m s (List.replicate (k + n) w) = (.ok a, s', List.replicate n w)

variable {w : ω} {P P' : σ → Prop} {R : σ → Prop} {Q Q' : α → σ → Prop} {m : Prog σ ω ε α}

lemma Completes.conseq (h : Completes w P m Q) (hp : ∀ s, P' s → P s) (hq : ∀ a s, Q a s → Q' a s) :
    Completes w P' m Q' := by
  intro s hs
  obtain ⟨k, a, s', hQ, hrun⟩ := h s (hp s hs)
  exact ⟨k, a, s', hq a s' hQ, hrun⟩

lemma Completes.post (h : Completes w P m Q) (hq : ∀ a s, Q a s → Q' a s) : Completes w P m Q' := h.conseq (fun _ hs => hs) hq

lemma Completes.pre (h : Completes w P m Q) (hp : ∀ s, P' s → P s) : Completes w P' m Q := h.conseq hp (fun _ _ hq => hq)

lemma Completes.and (h : Completes w P m Q) (h' : Ensures P m Q' R) : Completes w P m (fun a s => Q a s ∧ Q' a s) := by
  intro s hs
  obtain ⟨k, a, s', hQ, hrun⟩ := h s hs
  exact ⟨k, a, s', ⟨hQ, h'.of_run hs (hrun 0)⟩, hrun⟩

lemma Completes.ensuring (h : Completes w P m (fun _ _ => True)) (h' : Ensures P m Q R) : Completes w P m Q :=
  (h.and h').post (fun _ _ hq => hq.2)

protected lemma Completes.given {p : Prop} (h : p → Completes w P m Q) : Completes w (fun s => p ∧ P s) m Q :=
  fun s hs => h hs.1 s hs.2

protected lemma Completes.fix (h : ∀ s₀, P s₀ → Completes w (· = s₀) m Q) : Completes w P m Q := fun s hs => h s hs s rfl

variable {A : Type} {a : α} {f : α → Prog σ ω ε β} {T : β → σ → Prop} {r : Except ε α} {l : List A}

protected lemma Completes.pure (h : ∀ s, P s → Q a s) : Completes w P (pure a : Prog σ ω ε α) Q := by
  intro s hs
  refine ⟨0, a, s, h s hs, fun n => ?_⟩
  rw [Nat.zero_add]
  rfl

protected lemma Completes.any : Completes w P (pure a : Prog σ ω ε α) (fun _ _ => True) :=
  .pure (fun _ _ => trivial)

protected lemma Completes.done : Completes w P (pure a : Prog σ ω ε α) (fun _ => P) := Completes.pure (fun _ hs => hs)

protected lemma Completes.bind (hm : Completes w P m Q) (hf : ∀ a, Completes w (Q a) (f a) T) :
    Completes w P (m >>= f) T := by
  intro s hs
  obtain ⟨k, a, s₁, hQ, hrun⟩ := hm s hs
  obtain ⟨l, b, s₂, hT, hrun'⟩ := hf a s₁ hQ
  refine ⟨k + l, b, s₂, hT, fun n => ?_⟩
  rw [Nat.add_assoc, bind_run_of_ok (hrun (l + n))]
  exact hrun' n

protected lemma Completes.seq {Q : σ → Prop} {k : Prog σ ω ε β} (hm : Completes w P m (fun _ => Q))
    (hk : Completes w Q k T) : Completes w P (m >>= fun _ => k) T := hm.bind (fun _ => hk)

protected lemma Completes.ask : Completes w P (ask : Prog σ ω ε ω) (fun a s => a = w ∧ P s) := by
  intro s hs
  refine ⟨1, w, s, ⟨rfl, hs⟩, fun n => ?_⟩
  rw [Nat.add_comm, List.replicate_succ]
  rfl

protected lemma Completes.update {g : σ → σ} {T : Unit → σ → Prop} (h : ∀ s, P s → T () (g s)) :
    Completes w P (update g : Prog σ ω ε Unit) T := by
  intro s hs
  refine ⟨0, (), g s, h s hs, fun n => ?_⟩
  rw [Nat.zero_add]
  rfl

protected lemma Completes.read_bind {f : σ → Prog σ ω ε β} (h : ∀ s₀, P s₀ → Completes w (fun s => P s ∧ s = s₀) (f s₀) T) :
    Completes w P (read >>= f) T :=
  fun s hs => h s hs s ⟨hs, rfl⟩

protected lemma Completes.read_at {s₀ : σ} {f : σ → Prog σ ω ε β} (h : Completes w (· = s₀) (f s₀) T) :
    Completes w (· = s₀) (read >>= f) T := by
  rintro s rfl
  exact h s rfl

protected lemma Completes.except (hr : r = .ok a) (h : Completes w P (f a) T) :
    Completes w P (ofExcept r >>= f) T := by
  rw [hr]
  exact h

protected lemma Completes.ofExcept (hr : r = .ok a) (h : ∀ s, P s → Q a s) :
    Completes w P (ofExcept r : Prog σ ω ε α) Q := by
  rw [hr]
  exact .pure h

protected lemma Completes.attempt (h : Completes w P m Q) : Completes w P (attempt m) (fun result s => ∃ a, result = .ok a ∧ Q a s) := by
  intro s hs
  obtain ⟨k, a, s', hQ, hrun⟩ := h s hs
  refine ⟨k, .ok a, s', ⟨a, rfl, hQ⟩, fun n => ?_⟩
  rw [attempt, hrun]

protected lemma Completes.onlyIf {b : Bool} {m : Prog σ ω ε Unit} (h : Completes w P m (fun _ _ => True)) :
    Completes w P (onlyIf b m) (fun _ _ => True) := by
  cases b with
  | false => exact .pure (fun _ _ => trivial)
  | true => exact h

protected lemma Completes.foldlM {f : β → A → Prog σ ω ε β} {J : List A → β → σ → Prop}
    (h : ∀ done a rest, l = done ++ a :: rest → ∀ b, Completes w (J done b) (f b a) (J (done ++ [a]))) (b : β) :
    Completes w (J [] b) (l.foldlM f b) (J l) := by
  have hfrom : ∀ todo done, l = done ++ todo → ∀ b, Completes w (J done b) (todo.foldlM f b) (J l) := by
    intro todo
    induction todo with
    | nil =>
      intro done hl b
      rw [List.append_nil] at hl
      subst hl
      exact .pure (fun _ hs => hs)
    | cons a todo ih =>
      intro done hl b
      rw [List.foldlM_cons]
      exact .bind (h done a todo hl b) (fun b' => ih (done ++ [a]) (by rw [hl]; simp) b')
  exact hfrom l [] rfl b

protected lemma Completes.each_done {f : A → Prog σ ω ε Unit} {J : List A → σ → Prop}
    (h : ∀ done a rest, l = done ++ a :: rest → Completes w (J done) (f a) (fun _ => J (done ++ [a]))) :
    Completes w (J []) (each f l) (fun _ => J l) := by
  rw [each_eq_foldlM]
  exact .foldlM (J := fun done _ => J done) (fun done a rest hl _ => h done a rest hl) ()

lemma Completes.exists_ok (h : Completes w P m Q) {s : σ} (hs : P s) :
    ∃ n a, (m s (List.replicate n w)).1 = .ok a := by
  obtain ⟨k, a, s', _, hrun⟩ := h s hs
  exact ⟨k, a, congrArg Prod.fst (hrun 0)⟩

end FileES.Lib.Effects
