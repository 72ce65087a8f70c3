import Mathlib.Tactic

/-! Programs that work on a state, ask the outside world and can die between any two of their actions. -/

namespace FileES.Lib.Effects

inductive Stop (ε : Type)
  | fail (e : ε)
  | crash
  deriving DecidableEq, Repr

/-- A program reads its answers from a script and dies where the script ends: a statement about every script covers
every failure and every crash. -/
def Prog (σ ω ε α : Type) := σ → List ω → Except (Stop ε) α × σ × List ω

variable {σ ω ε α β : Type}

instance : Monad (Prog σ ω ε) where
  pure a := fun s as => (.ok a, s, as)
  bind m f := fun s as =>
    match m s as with
    | (.ok a, s, as) => f a s as
    | (.error e, s, as) => (.error e, s, as)

def ask : Prog σ ω ε ω := fun s as =>
  match as with
  | [] => (.error .crash, s, [])
  | a :: as => (.ok a, s, as)

def read : Prog σ ω ε σ := fun s as => (.ok s, s, as)

def update (f : σ → σ) : Prog σ ω ε Unit := fun s as => (.ok (), f s, as)

def fail (e : ε) : Prog σ ω ε α := fun s as => (.error (.fail e), s, as)

def ofExcept (r : Except ε α) : Prog σ ω ε α :=
  match r with
  | .ok a => pure a
  | .error e => fail e

def attempt (m : Prog σ ω ε α) : Prog σ ω ε (Except ε α) := fun s as =>
  match m s as with
  | (.ok a, s, as) => (.ok (.ok a), s, as)
  | (.error (.fail e), s, as) => (.ok (.error e), s, as)
  | (.error .crash, s, as) => (.error .crash, s, as)

def onlyIf (b : Bool) (m : Prog σ ω ε Unit) : Prog σ ω ε Unit := if b then m else pure ()

def zoom {τ : Type} (get : σ → τ) (set : τ → σ → σ) (m : Prog τ ω ε α) : Prog σ ω ε α := fun s as =>
  match m (get s) as with
  | (r, t, as) => (r, set t s, as)

def each (f : α → Prog σ ω ε Unit) : List α → Prog σ ω ε Unit
  | [] => pure ()
  | a :: l => do
    f a
    each f l

/-- From a state with `P`, a normal end satisfies `Q`, and a failure or the loss of the process leaves `R`. -/
def Ensures (P : σ → Prop) (m : Prog σ ω ε α) (Q : α → σ → Prop) (R : σ → Prop) : Prop :=
  ∀ s as, P s →
    match m s as with
    | (.ok a, s', _) => Q a s'
    | (.error _, s', _) => R s'

variable {P P' : σ → Prop} {R : σ → Prop} {Q Q' : α → σ → Prop} {m : Prog σ ω ε α}

lemma Ensures.conseq (h : Ensures P m Q R) (hp : ∀ s, P' s → P s) (hq : ∀ a s, Q a s → Q' a s) : Ensures P' m Q' R := by
  intro s as hs
  have := h s as (hp s hs)
  split at this
  · exact hq _ _ this
  · exact this

lemma Ensures.post (h : Ensures P m Q R) (hq : ∀ a s, Q a s → Q' a s) : Ensures P m Q' R := h.conseq (fun _ hs => hs) hq

lemma Ensures.pre (h : Ensures P m Q R) (hp : ∀ s, P' s → P s) : Ensures P' m Q R := h.conseq hp (fun _ _ hq => hq)

variable {A τ : Type} {R' : σ → Prop} {p : Prop} {a : α} {f : α → Prog σ ω ε β} {s s' s₀ : σ} {as rest : List ω}
  {T : β → σ → Prop} {r : Except ε α} {b : Bool} {l : List A}

lemma Ensures.fails (h : Ensures P m Q R) (hr : ∀ s, R s → R' s) : Ensures P m Q R' := by
  intro s as hs
  have := h s as hs
  split at this
  · exact this
  · exact hr _ this

protected lemma Ensures.fix (h : ∀ s₀, P s₀ → Ensures (· = s₀) m Q R) : Ensures P m Q R :=
  fun s as hs => h s hs s as rfl

protected lemma Ensures.given (h : p → Ensures P m Q R) : Ensures (fun s => P s ∧ p) m Q R :=
  fun s as hs => h hs.2 s as hs.1

lemma Ensures.and (h : Ensures P m Q R) (h' : Ensures P m Q' R') :
    Ensures P m (fun a s => Q a s ∧ Q' a s) (fun s => R s ∧ R' s) := by
  intro s as hs
  have hm := h s as hs
  have hm' := h' s as hs
  split at hm <;> rename_i hr <;> rw [hr] at hm' <;> exact ⟨hm, hm'⟩

protected lemma Ensures.pure (h : ∀ s, P s → Q a s) : Ensures P (pure a : Prog σ ω ε α) Q R := fun s _ hs => h s hs

protected lemma Ensures.done : Ensures P (pure a : Prog σ ω ε α) (fun _ => P) R := .pure (fun _ hs => hs)

lemma at_start (h : R s₀) : ∀ s, s = s₀ → R s := by
  rintro _ rfl
  exact h

lemma bind_run : (m >>= f) s as = match m s as with
    | (.ok a, s, as) => f a s as
    | (.error e, s, as) => (.error e, s, as) := rfl

lemma bind_run_of_ok (h : m s as = (.ok a, s', rest)) : (m >>= f) s as = f a s' rest := by rw [bind_run, h]

protected lemma Ensures.bind (hm : Ensures P m Q R) (hf : ∀ a, Ensures (Q a) (f a) T R) : Ensures P (m >>= f) T R := by
  intro s as hs
  have hms := hm s as hs
  rw [bind_run]
  cases hr : m s as with
  | mk r rest =>
    rw [hr] at hms
    cases r with
    | ok a => exact hf a rest.1 rest.2 hms
    | error e => exact hms

protected lemma Ensures.seq {Q : σ → Prop} {k : Prog σ ω ε β} (hm : Ensures P m (fun _ => Q) R) (hk : Ensures Q k T R) :
    Ensures P (m >>= fun _ => k) T R := hm.bind (fun _ => hk)

protected lemma Ensures.ask {T : ω → σ → Prop} (hr : ∀ s, P s → R s) (h : ∀ a s, P s → T a s) :
    Ensures P (ask : Prog σ ω ε ω) T R := by
  intro s as hs
  cases as with
  | nil => exact hr s hs
  | cons a as => exact h a s hs

class Within (P R : σ → Prop) : Prop where
  imp : ∀ s, P s → R s

instance : Within P P := ⟨fun _ hs => hs⟩

instance : Within P (fun _ => True) := ⟨fun _ _ => trivial⟩

instance : Within (fun s => P s ∧ P' s) P := ⟨fun _ hs => hs.1⟩

protected lemma Ensures.asked [Within P R] : Ensures P (ask : Prog σ ω ε ω) (fun _ => P) R :=
  .ask Within.imp (fun _ _ hs => hs)

protected lemma Ensures.read {T : σ → σ → Prop} (h : ∀ s, P s → T s s) : Ensures P (read : Prog σ ω ε σ) T R :=
  fun s _ hs => h s hs

protected lemma Ensures.update {g : σ → σ} {T : Unit → σ → Prop} (h : ∀ s, P s → T () (g s)) :
    Ensures P (update g : Prog σ ω ε Unit) T R := fun s _ hs => h s hs

protected lemma Ensures.fail {e : ε} (h : ∀ s, P s → R s) : Ensures P (fail e : Prog σ ω ε α) Q R := fun s _ hs => h s hs

protected lemma Ensures.failed [Within P R] {e : ε} : Ensures P (fail e : Prog σ ω ε α) Q R := .fail Within.imp

protected lemma Ensures.except (hr : ∀ s, P s → R s) (h : ∀ a, r = .ok a → Ensures P (f a) T R) :
    Ensures P (ofExcept r >>= f) T R := by
  cases r with
  | error e => exact fun s _ hs => hr s hs
  | ok a => exact h a rfl

protected lemma Ensures.checked [Within P R] (h : ∀ a, r = .ok a → Ensures P (f a) T R) :
    Ensures P (ofExcept r >>= f) T R := .except Within.imp h

protected lemma Ensures.ofExcept (hr : ∀ s, P s → R s) (h : ∀ a, r = .ok a → ∀ s, P s → Q a s) :
    Ensures P (ofExcept r : Prog σ ω ε α) Q R := by
  cases r with
  | error e => exact fun s _ hs => hr s hs
  | ok a => exact fun s _ hs => h a rfl s hs

protected lemma Ensures.read_bind {f : σ → Prog σ ω ε β} (h : ∀ s₀, Ensures (fun s => P s ∧ s = s₀) (f s₀) T R) :
    Ensures P (read >>= f) T R :=
  fun s as hs => h s s as ⟨hs, rfl⟩

protected lemma Ensures.read_at {f : σ → Prog σ ω ε β} (h : Ensures (· = s₀) (f s₀) T R) :
    Ensures (· = s₀) (read >>= f) T R := by
  rintro s as rfl
  exact h s as rfl

protected lemma Ensures.attempt {T : Except ε α → σ → Prop} (h : Ensures P m (fun a => T (.ok a)) R)
    (he : ∀ e s, R s → T (.error e) s) : Ensures P (attempt m) T R := by
  intro s as hs
  have hms := h s as hs
  unfold attempt
  split at hms
  · rename_i a s' as' hr
    rw [hr]
    exact hms
  · rename_i e s' as' hr
    rw [hr]
    cases e with
    | fail e => exact he e s' hms
    | crash => exact hms

def Outcome (Q : α → σ → Prop) (R : σ → Prop) : Except ε α → σ → Prop
  | .ok a => Q a
  | .error _ => R

protected lemma Ensures.attempt_outcome (h : Ensures P m Q R) : Ensures P (attempt m) (Outcome Q R) R :=
  Ensures.attempt h (fun _ _ hs => hs)

protected lemma Ensures.zoom {get : σ → τ} {set : τ → σ → σ} {m : Prog τ ω ε α} {Q : α → τ → Prop}
    {R : τ → Prop} (h : Ensures (fun t => t = get s₀) m Q R) :
    Ensures (· = s₀) (zoom get set m) (fun a s => ∃ t, Q a t ∧ s = set t s₀) (fun s => ∃ t, R t ∧ s = set t s₀) := by
  rintro s as rfl
  have hms := h (get s) as rfl
  have hrun : zoom get set m s as = ((m (get s) as).1, set (m (get s) as).2.1 s, (m (get s) as).2.2) := rfl
  rw [hrun]
  cases hr : m (get s) as with
  | mk r rest =>
    rw [hr] at hms
    cases r with
    | ok a => exact ⟨rest.1, hms, rfl⟩
    | error e => exact ⟨rest.1, hms, rfl⟩

protected lemma Ensures.onlyIf {m : Prog σ ω ε Unit} (h : Ensures P m (fun _ => P) R) :
    Ensures P (onlyIf b m) (fun _ => P) R := by
  cases b with
  | false => exact .done
  | true => exact h

protected lemma Ensures.onlyIf_of {m : Prog σ ω ε Unit} {T : Unit → σ → Prop} (h : b = true → Ensures P m T R)
    (h' : b = false → ∀ s, P s → T () s) : Ensures P (onlyIf b m) T R := by
  cases b with
  | false => exact .pure (h' rfl)
  | true => exact h rfl

protected lemma Ensures.each {f : A → Prog σ ω ε Unit} (h : ∀ a ∈ l, Ensures P (f a) (fun _ => P) R) :
    Ensures P (each f l) (fun _ => P) R := by
  induction l with
  | nil => exact .done
  | cons a l ih =>
    exact .bind (h a (by simp)) (fun _ => ih (fun b hb => h b (by simp [hb])))

protected lemma Ensures.foldlM {f : β → A → Prog σ ω ε β} {J : List A → β → σ → Prop}
    (h : ∀ done a rest, l = done ++ a :: rest → ∀ b, Ensures (J done b) (f b a) (J (done ++ [a])) R) (b : β) :
    Ensures (J [] b) (l.foldlM f b) (J l) R := by
  have hfrom : ∀ todo done, l = done ++ todo → ∀ b, Ensures (J done b) (todo.foldlM f b) (J l) R := by
    intro todo
    induction todo with
    | nil =>
      intro done hl b
      rw [List.append_nil] at hl
      subst hl
      exact .pure (fun _ hs => hs)
    | cons a todo ih =>
      intro done hl b
      rw [List.foldlM_cons]
      exact .bind (h done a todo hl b) (fun b' => ih (done ++ [a]) (by rw [hl]; simp) b')
  exact hfrom l [] rfl b

lemma each_eq_foldlM (f : A → Prog σ ω ε Unit) (l : List A) : each f l = l.foldlM (fun _ a => f a) () := by
  induction l with
  | nil => rfl
  | cons a l ih => rw [List.foldlM_cons, each, ih]

protected lemma Ensures.each_done {f : A → Prog σ ω ε Unit} {J : List A → σ → Prop}
    (h : ∀ done a rest, l = done ++ a :: rest → Ensures (J done) (f a) (fun _ => J (done ++ [a])) R) :
    Ensures (J []) (each f l) (fun _ => J l) R := by
  rw [each_eq_foldlM]
  exact .foldlM (J := fun done _ => J done) (fun done a rest hl _ => h done a rest hl) ()

def Quiet (m : Prog σ ω ε α) : Prop := ∀ s as, (m s as).2.1 = s

lemma Quiet.ensures (h : Quiet m) (hR : ∀ s, P s → R s) : Ensures P m (fun _ => P) R := by
  intro s as hs
  have hsame := h s as
  cases hr : m s as with
  | mk result rest =>
    rw [hr] at hsame
    obtain rfl : rest.1 = s := hsame
    cases result with
    | ok a => exact hs
    | error e => exact hR _ hs

protected lemma Quiet.pure : Quiet (pure a : Prog σ ω ε α) := fun _ _ => rfl

protected lemma Quiet.fail {e : ε} : Quiet (fail e : Prog σ ω ε α) := fun _ _ => rfl

protected lemma Quiet.ofExcept : Quiet (ofExcept r : Prog σ ω ε α) := by
  cases r with
  | error e => exact .fail
  | ok a => exact .pure

protected lemma Quiet.ask : Quiet (ask : Prog σ ω ε ω) := by
  intro s as
  cases as with
  | nil => rfl
  | cons a as => rfl

protected lemma Quiet.bind (hm : Quiet m) (hf : ∀ a, Quiet (f a)) : Quiet (m >>= f) := by
  intro s as
  have hsame : Ensures (fun s' => s' = s) (m >>= f) (fun _ s' => s' = s) (fun s' => s' = s) :=
    Ensures.bind (hm.ensures (fun _ hs => hs)) (fun a => (hf a).ensures (fun _ hs => hs))
  have := hsame s as rfl
  split at this <;> rename_i hr <;> rw [hr] <;> exact this

protected lemma Quiet.onlyIf {m : Prog σ ω ε Unit} (h : Quiet m) : Quiet (onlyIf b m) := by
  cases b with
  | false => exact .pure
  | true => exact h

def Never (e : ε) (m : Prog σ ω ε α) : Prop := ∀ s as, (m s as).1 ≠ .error (.fail e)

variable {e : ε} {T : σ → Prop}

protected lemma Never.pure : Never e (pure a : Prog σ ω ε α) := fun _ _ h => by cases h

protected lemma Never.read : Never e (read : Prog σ ω ε σ) := fun _ _ h => by cases h

protected lemma Never.fail {e' : ε} (h : e' ≠ e) : Never e (fail e' : Prog σ ω ε α) := fun _ _ h' => h (by cases h'; rfl)

protected lemma Never.ofExcept (h : r ≠ .error e) : Never e (ofExcept r : Prog σ ω ε α) := by
  cases r with
  | ok a => exact .pure
  | error e' => exact .fail (fun he => h (by rw [he]))

protected lemma Never.ask : Never e (ask : Prog σ ω ε ω) := by
  intro s as
  cases as with
  | nil => exact fun h => by cases h
  | cons a as => exact fun h => by cases h

protected lemma Never.update {f : σ → σ} : Never e (update f : Prog σ ω ε Unit) := fun _ _ h => by cases h

protected lemma Never.bind (hm : Never e m) (hf : ∀ a, Never e (f a)) : Never e (m >>= f) := by
  intro s as
  have hms := hm s as
  rw [bind_run]
  cases hr : m s as with
  | mk r rest =>
    rw [hr] at hms
    cases r with
    | ok a => exact hf a rest.1 rest.2
    | error e' => exact fun h => hms (by cases h; rfl)

protected lemma Never.onlyIf {m : Prog σ ω ε Unit} (h : Never e m) : Never e (onlyIf b m) := by
  cases b with
  | false => exact .pure
  | true => exact h

protected lemma Never.each {f : A → Prog σ ω ε Unit} (h : ∀ a, Never e (f a)) : Never e (each f l) := by
  induction l with
  | nil => exact .pure
  | cons a l ih => exact .bind (h a) (fun _ => ih)

def FailsIn (P : σ → Prop) (m : Prog σ ω ε α) (e : ε) (T : σ → Prop) : Prop :=
  ∀ s as, P s → (m s as).1 = .error (.fail e) → T (m s as).2.1

lemma Never.failsIn (h : Never e m) : FailsIn P m e T := fun s as _ hfail => absurd hfail (h s as)

protected lemma FailsIn.bind (hn : FailsIn P m e T) (hm : Ensures P m Q R) (hf : ∀ a, FailsIn (Q a) (f a) e T) :
    FailsIn P (m >>= f) e T := by
  intro s as hs
  have hms := hm s as hs
  have hns := hn s as hs
  rw [bind_run]
  cases hr : m s as with
  | mk r rest =>
    rw [hr] at hms hns
    cases r with
    | ok a => exact hf a rest.1 rest.2 hms
    | error e' => exact fun h => hns (by cases h; rfl)

protected lemma FailsIn.fix (h : ∀ s₀, P s₀ → FailsIn (· = s₀) m e T) : FailsIn P m e T := fun s as hs => h s hs s as rfl

protected lemma Ensures.attempt_failsIn (h : Ensures P m Q R) (hf : FailsIn P m e T) :
    Ensures P (attempt m) (fun result s => Outcome Q R result s ∧ (result = .error e → T s)) R := by
  intro s as hs
  have hms := h s as hs
  have hfs := hf s as hs
  rw [attempt]
  cases hr : m s as with
  | mk r rest =>
    rw [hr] at hms hfs
    cases r with
    | ok a => exact ⟨hms, fun h => by cases h⟩
    | error stop =>
      cases stop with
      | fail e' => exact ⟨hms, fun h => hfs (by cases h; rfl)⟩
      | crash => exact hms

protected lemma FailsIn.zoom {get : σ → τ} {set : τ → σ → σ} {m : Prog τ ω ε α} {T : τ → Prop}
    (h : FailsIn (fun t => t = get s₀) m e T) :
    FailsIn (· = s₀) (zoom get set m) e (fun s => ∃ t, T t ∧ s = set t s₀) := by
  rintro s as rfl hfail
  exact ⟨_, h (get s) as rfl hfail, rfl⟩

protected lemma Ensures.any : Ensures P m (fun _ _ => True) (fun _ => True) := by
  intro s as _
  split <;> trivial

protected lemma Ensures.fact (h : ∀ s, P s → p) : Ensures P m (fun _ _ => p) (fun _ => True) := by
  intro s as hs
  split
  · exact h s hs
  · trivial

lemma Ensures.of_run (h : Ensures P m Q R) (hs : P s) (hrun : m s as = (.ok a, s', rest)) : Q a s' := by
  have := h s as hs
  rw [hrun] at this
  exact this

lemma Ensures.of_stop (h : Ensures P m Q R) {e : Stop ε} (hs : P s) (hrun : m s as = (.error e, s', rest)) :
    R s' := by
  have := h s as hs
  rw [hrun] at this
  exact this

lemma run_eq_of_result {x : Except (Stop ε) α × σ × List ω} {r : Except (Stop ε) α} (h : x.1 = r) : x = (r, x.2.1, x.2.2) := by
  rw [← h]

lemma Ensures.final (h : Ensures P m (fun _ => R) R) (hs : P s) (as : List ω) : R (m s as).2.1 := by
  have := h s as hs
  split at this <;> rename_i hr <;> rw [hr] <;> exact this

end FileES.Lib.Effects
