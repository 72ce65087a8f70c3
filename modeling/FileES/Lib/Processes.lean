import FileES.Lib.Runs

/-! Processes whose calls interleave on a shared state, and what each of them may rely on. -/

namespace FileES.Lib.Processes

open Lib.Runs List Option

/-- A program as the calls it makes; between two of them any number of other processes' calls can take place. -/
inductive Task (κ : Type) (ρ : κ → Type) (ε α : Type) where
  | ret (a : Except ε α)
  | call (c : κ) (next : ρ c → Task κ ρ ε α)

variable {κ : Type} {ρ : κ → Type} {ε α β σ ω χ R : Type}

namespace Task

def bind : Task κ ρ ε α → (α → Task κ ρ ε β) → Task κ ρ ε β
  | ret (.ok a), f => f a
  | ret (.error e), _ => ret (.error e)
  | call c next, f => call c (fun r => (next r).bind f)

instance : Monad (Task κ ρ ε) where
  pure a := ret (.ok a)
  bind := bind

def ask (c : κ) : Task κ ρ ε (ρ c) := call c (fun r => ret (.ok r))

def fail (e : ε) : Task κ ρ ε α := ret (.error e)

def ofExcept (a : Except ε α) : Task κ ρ ε α := ret a

def attempt : Task κ ρ ε α → Task κ ρ ε (Except ε α)
  | ret a => ret (.ok a)
  | call c next => call c (fun r => (next r).attempt)

def onlyIf (b : Bool) (t : Task κ ρ ε Unit) : Task κ ρ ε Unit := if b then t else pure ()

def each (f : α → Task κ ρ ε Unit) : List α → Task κ ρ ε Unit
  | [] => pure ()
  | a :: l => do
    f a
    each f l

def search (f : α → Task κ ρ ε (Option β)) : List α → Task κ ρ ε (Option β)
  | [] => pure none
  | a :: l => do
    match ← f a with
    | some b => pure (some b)
    | none => search f l

end Task

/-- What the calls do. An answer chooses among the ways a call can end; a call without a reply is blocked. -/
structure World (κ : Type) (ρ : κ → Type) (σ ω χ : Type) where
  answer : ℕ → (c : κ) → σ → ω → Option (σ × ρ c)
  die : ℕ → σ → σ
  outside : χ → σ → σ

structure Config (κ : Type) (ρ : κ → Type) (ε α σ R : Type) where
  shared : σ
  requests : List R
  task : ℕ → Option (Task κ ρ ε α)

inductive Event (ω χ R : Type) where
  | start (request : R)
  | advance (pid : ℕ) (answer : ω)
  | die (pid : ℕ)
  | outside (e : χ)

def fresh (s : σ) : Config κ ρ ε α σ R := ⟨s, [], fun _ => none⟩

def step (W : World κ ρ σ ω χ) (program : R → Task κ ρ ε α) (c : Config κ ρ ε α σ R) :
    Event ω χ R → Config κ ρ ε α σ R
  | .start request =>
    ⟨c.shared, c.requests ++ [request], Function.update c.task c.requests.length (some (program request))⟩
  | .advance pid w =>
    match c.task pid with
    | some (.call k next) =>
      match W.answer pid k c.shared w with
      | some (s, r) => ⟨s, c.requests, Function.update c.task pid (some (next r))⟩
      | none => c
    | _ => c
  | .die pid =>
    match c.task pid with
    | some (.call _ _) => ⟨W.die pid c.shared, c.requests, Function.update c.task pid none⟩
    | _ => c
  | .outside e => { c with shared := W.outside e c.shared }

def Config.Running (c : Config κ ρ ε α σ R) (pid : ℕ) : Prop := ∃ k next, c.task pid = some (.call k next)

/-- The calls each process may make, what it may rely on while it waits, and what it leaves when it is not running. -/
structure Contract (W : World κ ρ σ ω χ) where
  inv : σ → Prop
  rely : ℕ → σ → σ → Prop
  idle : ℕ → σ → Prop
  proper : ℕ → κ → σ → Prop
  allowed : ℕ → κ → σ → ω → Prop
  mayDie : ℕ → σ → Prop
  mayHappen : χ → σ → Prop
  rely_refl : ∀ pid s, rely pid s s
  rely_trans : ∀ pid s₁ s₂ s₃, rely pid s₁ s₂ → rely pid s₂ s₃ → rely pid s₁ s₃
  rely_idle : ∀ pid s s', rely pid s s' → idle pid s → idle pid s'
  answer_keeps : ∀ pid c s w s' r, inv s → proper pid c s → allowed pid c s w → W.answer pid c s w = some (s', r) →
    inv s' ∧ ∀ q, q ≠ pid → rely q s s'
  die_keeps : ∀ pid s, inv s → mayDie pid s → inv (W.die pid s) ∧ idle pid (W.die pid s) ∧
    ∀ q, q ≠ pid → rely q s (W.die pid s)
  outside_keeps : ∀ e s, inv s → mayHappen e s → inv (W.outside e s) ∧ ∀ q, rely q s (W.outside e s)

variable {W : World κ ρ σ ω χ} {C : Contract W} {pid : ℕ}

/-- Every call left in the task is proper when it is made, and the task ends with `Q`, whatever the others do. -/
inductive Safe (C : Contract W) (pid : ℕ) (Q : Except ε α → σ → Prop) : Task κ ρ ε α → σ → Prop
  | ret {a s} : (∀ s', C.rely pid s s' → C.inv s' → Q a s') → Safe C pid Q (.ret a) s
  | call {c next s} : (∀ s', C.rely pid s s' → C.inv s' → C.proper pid c s') →
      (∀ s' w s'' r, C.rely pid s s' → C.inv s' → C.allowed pid c s' w → W.answer pid c s' w = some (s'', r) →
        Safe C pid Q (next r) s'') → Safe C pid Q (.call c next) s

namespace Safe

variable {Q Q' : Except ε α → σ → Prop} {t : Task κ ρ ε α} {s s' : σ}

lemma later (h : Safe C pid Q t s) (hs : C.rely pid s s') : Safe C pid Q t s' := by
  cases h with
  | ret hq => exact .ret (fun s'' hr hi => hq s'' (C.rely_trans _ _ _ _ hs hr) hi)
  | call hp hn =>
    refine .call (fun s'' hr hi => hp s'' (C.rely_trans _ _ _ _ hs hr) hi) ?_
    intro s₁ w s₂ r hr
    exact hn s₁ w s₂ r (C.rely_trans _ _ _ _ hs hr)

lemma of_later (h : ∀ s', C.rely pid s s' → C.inv s' → Safe C pid Q t s') : Safe C pid Q t s := by
  cases t with
  | ret a =>
    refine .ret (fun s' hr hi => ?_)
    cases h s' hr hi with
    | ret hq => exact hq s' (C.rely_refl _ _) hi
  | call c next =>
    refine .call (fun s' hr hi => ?_) (fun s' w s'' r hr hi => ?_)
    · cases h s' hr hi with
      | call hp _ => exact hp s' (C.rely_refl _ _) hi
    · cases h s' hr hi with
      | call _ hn => exact hn s' w s'' r (C.rely_refl _ _) hi

lemma mono (h : Safe C pid Q t s) (hq : ∀ a s, C.inv s → Q a s → Q' a s) : Safe C pid Q' t s := by
  induction h with
  | ret hp => exact .ret (fun s' hr hi => hq _ s' hi (hp s' hr hi))
  | call hp _ ih => exact .call hp (fun s' w s'' r hr hi ha he => ih s' w s'' r hr hi ha he)

lemma bind {f : α → Task κ ρ ε β} {T : Except ε β → σ → Prop} (h : Safe C pid Q t s)
    (hf : ∀ a s, C.inv s → Q (.ok a) s → Safe C pid T (f a) s)
    (he : ∀ e s, C.inv s → Q (.error e) s → T (.error e) s) : Safe C pid T (t >>= f) s := by
  induction h with
  | @ret a s hq =>
    cases a with
    | ok a => exact of_later (fun s' hr hi => hf a s' hi (hq s' hr hi))
    | error e => exact .ret (fun s' hr hi => he e s' hi (hq s' hr hi))
  | call hp _ ih => exact .call hp (fun s' w s'' r hr hi ha hw => ih s' w s'' r hr hi ha hw)

lemma attempt {T : Except ε (Except ε α) → σ → Prop} (h : Safe C pid Q t s)
    (ht : ∀ a s, C.inv s → Q a s → T (.ok a) s) : Safe C pid T t.attempt s := by
  induction h with
  | ret hq => exact .ret (fun s' hr hi => ht _ s' hi (hq s' hr hi))
  | call hp _ ih => exact .call hp (fun s' w s'' r hr hi ha hw => ih s' w s'' r hr hi ha hw)

end Safe

/-- From `P` the process makes proper calls only; it ends normally with `Q` or fails with `R`. -/
def Does (C : Contract W) (pid : ℕ) (P : σ → Prop) (t : Task κ ρ ε α) (Q : α → σ → Prop) (R : ε → σ → Prop) : Prop :=
  ∀ s, C.inv s → P s → Safe C pid (fun a s => match a with
    | .ok a => Q a s
    | .error e => R e s) t s

def Stable (C : Contract W) (pid : ℕ) (P : σ → Prop) : Prop := ∀ s s', C.rely pid s s' → C.inv s' → P s → P s'

/-- The assertions that no other process can spoil; the rules below find the proof by their shape. -/
class Lasts (C : Contract W) (pid : ℕ) (P : σ → Prop) : Prop where
  stable : Stable C pid P

variable {P Q : σ → Prop}

instance (p : Prop) : Lasts C pid (fun _ => p) := ⟨fun _ _ _ _ h => h⟩

instance [hP : Lasts C pid P] [hQ : Lasts C pid Q] : Lasts C pid (fun s => P s ∧ Q s) :=
  ⟨fun s s' hr hi h => ⟨hP.stable s s' hr hi h.1, hQ.stable s s' hr hi h.2⟩⟩

instance {p : Prop} [hP : Lasts C pid P] : Lasts C pid (fun s => p → P s) :=
  ⟨fun s s' hr hi h hp => hP.stable s s' hr hi (h hp)⟩

instance {γ : Type} {P : γ → σ → Prop} [hP : ∀ x, Lasts C pid (P x)] : Lasts C pid (fun s => ∀ x, P x s) :=
  ⟨fun s s' hr hi h x => (hP x).stable s s' hr hi (h x)⟩

variable {P P' : σ → Prop} {Q Q' : α → σ → Prop} {T : β → σ → Prop} {S : ε → σ → Prop} {t : Task κ ρ ε α}

section

variable (h : Does C pid P t Q S) (hp : ∀ s, C.inv s → P' s → P s)
include h hp

lemma Does.conseq (hq : ∀ a s, C.inv s → Q a s → Q' a s) : Does C pid P' t Q' S := by
  intro s hi hs
  refine (h s hi (hp s hi hs)).mono (fun a s hi' ha => ?_)
  cases a with
  | ok a => exact hq a s hi' ha
  | error e => exact ha

lemma Does.pre : Does C pid P' t Q S := h.conseq hp (fun _ _ _ hq => hq)

end

variable {S' : ε → σ → Prop} {p : Prop} {x : Except ε α} {f : α → Task κ ρ ε β} {K : σ → Prop} {l : List β} {b : Bool}
  {e : ε}

lemma Does.post (h : Does C pid P t Q S) (hq : ∀ a s, C.inv s → Q a s → Q' a s) : Does C pid P t Q' S :=
  h.conseq (fun _ _ hs => hs) hq

lemma Does.fails (h : Does C pid P t Q S) (hS : ∀ e s, C.inv s → S e s → S' e s) : Does C pid P t Q S' := by
  intro s hi hs
  refine (h s hi hs).mono (fun a s hi' ha => ?_)
  cases a with
  | ok a => exact ha
  | error e => exact hS e s hi' ha

protected lemma Does.given (h : p → Does C pid P t Q S) : Does C pid (fun s => P s ∧ p) t Q S :=
  fun s hi hs => h hs.2 s hi hs.1

protected lemma Does.assume (hp : ∀ s, C.inv s → P s → p) (h : p → Does C pid P t Q S) : Does C pid P t Q S :=
  fun s hi hs => h (hp s hi hs) s hi hs

protected lemma Does.pure {a : α} [hst : Lasts C pid P] (h : ∀ s, C.inv s → P s → Q a s) :
    Does C pid P (pure a : Task κ ρ ε α) Q S :=
  fun s _ hs => .ret (fun s' hr hi => h s' hi (hst.stable s s' hr hi hs))

protected lemma Does.done {a : α} [Lasts C pid P] : Does C pid P (pure a : Task κ ρ ε α) (fun _ => P) S :=
  .pure (fun _ _ hs => hs)

protected lemma Does.fail [hst : Lasts C pid P] (h : ∀ s, C.inv s → P s → S e s) :
    Does C pid P (Task.fail e : Task κ ρ ε α) Q S :=
  fun s _ hs => .ret (fun s' hr hi => h s' hi (hst.stable s s' hr hi hs))

protected lemma Does.ofExcept [Lasts C pid P] (h : ∀ a s, x = .ok a → C.inv s → P s → Q a s)
    (hS : ∀ e s, C.inv s → P s → S e s) : Does C pid P (Task.ofExcept x : Task κ ρ ε α) Q S := by
  cases x with
  | ok a => exact .pure (fun s => h a s rfl)
  | error e => exact .fail (fun s => hS e s)

protected lemma Does.bind (h : Does C pid P t Q S) (hf : ∀ a, Does C pid (Q a) (f a) T S) :
    Does C pid P (t >>= f) T S := by
  intro s hi hs
  exact (h s hi hs).bind (fun a s hi' ha => hf a s hi' ha) (fun _ _ _ he => he)

protected lemma Does.seq {Q : σ → Prop} {k : Task κ ρ ε β} (h : Does C pid P t (fun _ => Q) S) (hk : Does C pid Q k T S) :
    Does C pid P (t >>= fun _ => k) T S := h.bind (fun _ => hk)

protected lemma Does.except [Lasts C pid P] (hS : ∀ e s, C.inv s → P s → S e s)
    (h : ∀ a, x = .ok a → Does C pid P (f a) T S) : Does C pid P (Task.ofExcept x >>= f) T S := by
  refine .bind (Q := fun a s => P s ∧ x = .ok a) (.ofExcept (fun a s he _ hs => ⟨hs, he⟩) hS) (fun a => ?_)
  exact .given (h a)

structure Persistent (C : Contract W) (K : σ → Prop) : Prop where
  stable : ∀ pid, Stable C pid K
  answer : ∀ pid c s w s' r, W.answer pid c s w = some (s', r) → K s → K s'

lemma Safe.frame (hK : Persistent C K) {T : Except ε α → σ → Prop} (h : Safe C pid T t s) (hs : K s) :
    Safe C pid (fun a s => T a s ∧ K s) t s := by
  induction h with
  | ret hq => exact .ret (fun s' hr hi => ⟨hq s' hr hi, hK.stable pid _ s' hr hi hs⟩)
  | call hp _ ih =>
    refine .call hp (fun s' w s'' r hr hi ha hw => ih s' w s'' r hr hi ha hw ?_)
    exact hK.answer pid _ s' w s'' r hw (hK.stable pid _ s' hr hi hs)

lemma Does.frame (hK : Persistent C K) (h : Does C pid P t Q S) :
    Does C pid (fun s => P s ∧ K s) t (fun a s => Q a s ∧ K s) (fun e s => S e s ∧ K s) := by
  intro s hi hs
  refine ((h s hi hs.1).frame hK hs.2).mono (fun a s _ ha => ?_)
  cases a with
  | ok a => exact ha
  | error e => exact ha

protected lemma Does.ask {c : κ} {Q : ρ c → σ → Prop} [hst : Lasts C pid P] [hQ : ∀ r, Lasts C pid (Q r)]
    (hp : ∀ s, C.inv s → P s → C.proper pid c s)
    (h : ∀ s w s' r, C.inv s → P s → C.allowed pid c s w → W.answer pid c s w = some (s', r) → Q r s') :
    Does C pid P (Task.ask c : Task κ ρ ε (ρ c)) Q S := by
  intro s _ hs
  refine .call (fun s' hr hi => hp s' hi (hst.stable s s' hr hi hs)) ?_
  intro s' w s'' r hr hi ha hw
  refine .ret (fun s₁ hr₁ hi₁ => (hQ r).stable s'' s₁ hr₁ hi₁ ?_)
  exact h s' w s'' r hi (hst.stable s s' hr hi hs) ha hw

protected lemma Does.attempt (h : Does C pid P t Q S) : Does C pid P t.attempt
    (fun a s => match a with
      | .ok a => Q a s
      | .error e => S e s) S' :=
  fun s hi hs => (h s hi hs).attempt (fun _ _ _ ha => ha)

protected lemma Does.onlyIf {t : Task κ ρ ε Unit} {Q : σ → Prop} [Lasts C pid P]
    (h : b = true → Does C pid P t (fun _ => Q) S) (hn : b = false → ∀ s, C.inv s → P s → Q s) :
    Does C pid P (Task.onlyIf b t) (fun _ => Q) S := by
  cases b with
  | true => exact h rfl
  | false => exact .pure (hn rfl)

protected lemma Does.each {f : β → Task κ ρ ε Unit} [Lasts C pid P]
    (h : ∀ b ∈ l, Does C pid P (f b) (fun _ => P) S) : Does C pid P (Task.each f l) (fun _ => P) S := by
  induction l with
  | nil => exact .pure (fun _ _ hs => hs)
  | cons b l ih =>
    exact .bind (h b mem_cons_self) (fun _ => ih (fun b' hb => h b' (mem_cons_of_mem b hb)))

def Finding (Q : α → σ → Prop) (P : σ → Prop) : Option α → σ → Prop
  | some a => Q a
  | none => P

instance {P : σ → Prop} [hQ : ∀ a, Lasts C pid (Q a)] [hP : Lasts C pid P] (o : Option α) : Lasts C pid (Finding Q P o) :=
  match o with
  | some a => hQ a
  | none => hP

protected lemma Does.search {f : β → Task κ ρ ε (Option α)} {P : List β → σ → Prop} [∀ done, Lasts C pid (P done)]
    [∀ a, Lasts C pid (Q a)]
    (hf : ∀ done b rest, l = done ++ b :: rest → Does C pid (P done) (f b) (Finding Q (P (done ++ [b]))) S) :
    Does C pid (P []) (Task.search f l) (Finding Q (P l)) S := by
  have hrest : ∀ rest done, l = done ++ rest → Does C pid (P done) (Task.search f rest) (Finding Q (P l)) S := by
    intro rest
    induction rest with
    | nil =>
      intro done hl
      refine .pure (fun s _ hs => ?_)
      rw [hl, append_nil]
      exact hs
    | cons b rest ih =>
      intro done hl
      refine .bind (hf done b rest hl) (fun r => ?_)
      cases r with
      | some a => exact .pure (fun _ _ hs => hs)
      | none => exact ih (done ++ [b]) (by rw [hl, append_assoc, singleton_append])
  exact hrest l [] rfl

def Contract.Admitted (C : Contract W) (c : Config κ ρ ε α σ R) : Event ω χ R → Prop
  | .start _ => True
  | .advance pid w => ∀ k next, c.task pid = some (.call k next) → C.allowed pid k c.shared w
  | .die pid => C.mayDie pid c.shared
  | .outside e => C.mayHappen e c.shared

/-- What holds of every task, with the request it serves. -/
def Each (J : ℕ → R → Task κ ρ ε α → Prop) (c : Config κ ρ ε α σ R) : Prop :=
  ∀ pid t, c.task pid = some t → ∃ request, c.requests[pid]? = some request ∧ J pid request t

variable {J J' : ℕ → R → Task κ ρ ε α → Prop} {c : Config κ ρ ε α σ R}

lemma Each.update (h : Each J c) {t : Option (Task κ ρ ε α)} (hJ : ∀ q r t, q ≠ pid → J q r t → J' q r t)
    (ht : ∀ t', t = some t' → ∃ request, c.requests[pid]? = some request ∧ J' pid request t') :
    Each J' ⟨s', c.requests, Function.update c.task pid t⟩ := by
  intro q t' (hq : Function.update c.task pid t q = some t')
  by_cases hqp : q = pid
  · subst hqp
    rw [Function.update_self] at hq
    exact ht t' hq
  · rw [Function.update_of_ne hqp] at hq
    obtain ⟨request, hr, hj⟩ := h q t' hq
    exact ⟨request, hr, hJ q request t' hqp hj⟩

lemma Each.start (h : Each J c) {program : R → Task κ ρ ε α} {request : R}
    (hnew : J c.requests.length request (program request)) : Each J (step W program c (.start request)) := by
  intro q t (ht : Function.update c.task c.requests.length (some (program request)) q = some t)
  by_cases hq : q = c.requests.length
  · subst hq
    rw [Function.update_self, some.injEq] at ht
    exact ⟨request, getElem?_concat_length, ht ▸ hnew⟩
  · rw [Function.update_of_ne hq] at ht
    obtain ⟨r, hr, hj⟩ := h q t ht
    obtain ⟨hlt, _⟩ := List.getElem?_eq_some_iff.mp hr
    exact ⟨r, (getElem?_append_left hlt).trans hr, hj⟩

structure Sound (C : Contract W) (Q : ℕ → R → Except ε α → σ → Prop) (c : Config κ ρ ε α σ R) : Prop where
  inv : C.inv c.shared
  safe : ∀ pid t, c.task pid = some t →
    ∃ request, c.requests[pid]? = some request ∧ Safe C pid (fun a s => C.idle pid s ∧ Q pid request a s) t c.shared
  idle : ∀ pid, c.task pid = none → C.idle pid c.shared

def Keeps (C : Contract W) (Q : ℕ → R → Except ε α → σ → Prop) (program : R → Task κ ρ ε α) : Prop :=
  ∀ pid request, Does C pid (C.idle pid) (program request) (fun a s => C.idle pid s ∧ Q pid request (.ok a) s)
    (fun e s => C.idle pid s ∧ Q pid request (.error e) s)

namespace Sound

variable {program : R → Task κ ρ ε α} {Q : ℕ → R → Except ε α → σ → Prop} {c : Config κ ρ ε α σ R}

lemma fresh (hi : C.inv s) (h : ∀ pid, C.idle pid s) : Sound C Q (fresh s : Config κ ρ ε α σ R) :=
  ⟨hi, fun _ _ ht => (by cases ht), fun pid _ => h pid⟩

section

variable (h : Sound C Q c)
include h

lemma of_ret {a : Except ε α} (ht : c.task pid = some (.ret a)) :
    ∃ request, c.requests[pid]? = some request ∧ C.idle pid c.shared ∧ Q pid request a c.shared := by
  obtain ⟨request, hr, hs⟩ := h.safe pid _ ht
  cases hs with
  | ret hq => exact ⟨request, hr, hq c.shared (C.rely_refl _ _) h.inv⟩

lemma idle_of_not_running (hr : ¬ c.Running pid) : C.idle pid c.shared := by
  cases ht : c.task pid with
  | none => exact h.idle pid ht
  | some t =>
    cases t with
    | ret a =>
      obtain ⟨_, _, hidle, _⟩ := h.of_ret ht
      exact hidle
    | call k next => exact absurd ⟨k, next, ht⟩ hr

lemma proper {k : κ} {next : ρ k → Task κ ρ ε α} (ht : c.task pid = some (.call k next)) :
    C.proper pid k c.shared := by
  obtain ⟨_, _, hs⟩ := h.safe pid _ ht
  cases hs with
  | call hp _ => exact hp c.shared (C.rely_refl _ _) h.inv

lemma of_update {t : Option (Task κ ρ ε α)} (hi : C.inv s') (hrely : ∀ q, q ≠ pid → C.rely q c.shared s')
    (hsafe : ∀ t', t = some t' → ∃ request, c.requests[pid]? = some request ∧
      Safe C pid (fun a s => C.idle pid s ∧ Q pid request a s) t' s')
    (hidle : t = none → C.idle pid s') : Sound C Q ⟨s', c.requests, Function.update c.task pid t⟩ := by
  refine ⟨hi, Each.update h.safe (fun q _ _ hqp hs => hs.later (hrely q hqp)) hsafe,
    fun q (ht : Function.update c.task pid t q = none) => ?_⟩
  by_cases hqp : q = pid
  · subst hqp
    rw [Function.update_self] at ht
    exact hidle ht
  · rw [Function.update_of_ne hqp] at ht
    exact C.rely_idle _ _ _ (hrely q hqp) (h.idle q ht)

lemma task_of_length_le (hle : c.requests.length ≤ pid) : c.task pid = none := by
  cases ht : c.task pid with
  | none => rfl
  | some t =>
    obtain ⟨request, hr, _⟩ := h.safe pid t ht
    rw [getElem?_eq_none hle] at hr
    cases hr

end

lemma start (hprogram : Keeps C Q program) (h : Sound C Q c) (request : R) :
    Sound C Q (step W program c (.start request)) := by
  refine ⟨h.inv, Each.start h.safe ?_,
    fun q (ht : Function.update c.task c.requests.length (some (program request)) q = none) => ?_⟩
  · refine (hprogram _ request _ h.inv (h.idle _ (h.task_of_length_le le_rfl))).mono (fun a s _ ha => ?_)
    cases a with
    | ok a => exact ha
    | error e => exact ha
  · by_cases hqp : q = c.requests.length
    · subst hqp
      rw [Function.update_self] at ht
      cases ht
    · rw [Function.update_of_ne hqp] at ht
      exact h.idle q ht

lemma advance (h : Sound C Q c) {w : ω} (ha : C.Admitted c (.advance pid w)) :
    Sound C Q (step W program c (.advance pid w)) := by
  rw [step]
  split
  case h_2 => exact h
  case h_1 k next ht =>
    split
    case h_2 => exact h
    case h_1 s' r hw =>
      have hkeeps := C.answer_keeps pid k c.shared w s' r h.inv (h.proper ht) (ha k next ht) hw
      refine h.of_update hkeeps.1 hkeeps.2 (fun t' ht' => ?_) nofun
      obtain ⟨request, hr, hs⟩ := h.safe pid _ ht
      refine ⟨request, hr, ?_⟩
      cases hs with
      | call _ hn =>
        cases ht'
        exact hn c.shared w s' r (C.rely_refl _ _) h.inv (ha k next ht) hw

lemma die (h : Sound C Q c) (hd : C.mayDie pid c.shared) : Sound C Q (step W program c (.die pid)) := by
  rw [step]
  split
  case h_2 => exact h
  case h_1 k next ht =>
    obtain ⟨hi, hidle, hrely⟩ := C.die_keeps pid c.shared h.inv hd
    exact h.of_update hi hrely nofun (fun _ => hidle)

lemma outside (h : Sound C Q c) {e : χ} (he : C.mayHappen e c.shared) : Sound C Q (step W program c (.outside e)) := by
  obtain ⟨hi, hrely⟩ := C.outside_keeps e c.shared h.inv he
  refine ⟨hi, fun q t ht => ?_, fun q ht => C.rely_idle _ _ _ (hrely q) (h.idle q ht)⟩
  obtain ⟨request, hr, hs⟩ := h.safe q t ht
  exact ⟨request, hr, hs.later (hrely q)⟩

lemma step (hprogram : Keeps C Q program) (h : Sound C Q c) (e : Event ω χ R) (he : C.Admitted c e) :
    Sound C Q (step W program c e) := by
  cases e with
  | start request => exact h.start hprogram request
  | advance pid w => exact h.advance he
  | die pid => exact h.die he
  | outside e => exact h.outside he

lemma along (hprogram : Keeps C Q program) (h : Sound C Q c) {es : List (Event ω χ R)}
    (hes : Admits (Processes.step W program) C.Admitted c es) : Along (Processes.step W program) (Sound C Q) c es :=
  along_of_admits _ (fun _ e hs he => hs.step hprogram e he) h hes

end Sound

def Task.Uses (A : κ → Prop) (Q : α → Prop) : Task κ ρ ε α → Prop
  | .ret (.ok a) => Q a
  | .ret (.error _) => True
  | .call c next => A c ∧ ∀ r, (next r).Uses A Q

variable {A A' : κ → Prop} {Q Q' : α → Prop} {T : β → Prop} {t : Task κ ρ ε α}

lemma Task.Uses.mono (h : t.Uses A Q) (hA : ∀ c, A c → A' c) (hQ : ∀ a, Q a → Q' a) : t.Uses A' Q' := by
  induction t with
  | ret a =>
    cases a with
    | ok a => exact hQ a h
    | error e => trivial
  | call c next ih => exact ⟨hA c h.1, fun r => ih r (h.2 r)⟩

protected lemma Task.Uses.bind (h : t.Uses A Q) (hf : ∀ a, Q a → (f a).Uses A T) : (t >>= f).Uses A T := by
  induction t with
  | ret a =>
    cases a with
    | ok a => exact hf a h
    | error e => trivial
  | call c next ih => exact ⟨h.1, fun r => ih r (h.2 r)⟩

protected lemma Task.Uses.ask {c : κ} {Q : ρ c → Prop} (hc : A c) (hQ : ∀ r, Q r) : (Task.ask c : Task κ ρ ε (ρ c)).Uses A Q :=
  ⟨hc, hQ⟩

protected lemma Task.Uses.ofExcept (h : ∀ a, x = .ok a → Q a) : (Task.ofExcept x : Task κ ρ ε α).Uses A Q := by
  cases x with
  | ok a => exact h a rfl
  | error e => trivial

protected lemma Task.Uses.attempt (h : t.Uses A Q) : t.attempt.Uses A (fun _ => True) := by
  induction t with
  | ret a => trivial
  | call c next ih => exact ⟨h.1, fun r => ih r (h.2 r)⟩

protected lemma Task.Uses.onlyIf {t : Task κ ρ ε Unit} {Q : Unit → Prop} (h : t.Uses A Q) (hQ : Q ()) :
    (Task.onlyIf b t).Uses A Q := by
  cases b with
  | true => exact h
  | false => exact hQ

variable {l : List β}

protected lemma Task.Uses.each {f : β → Task κ ρ ε Unit} (h : ∀ b, (f b).Uses A (fun _ => True)) :
    (Task.each f l).Uses A (fun _ => True) := by
  induction l with
  | nil => trivial
  | cons b l ih => exact .bind (h b) (fun _ _ => ih)

protected lemma Task.Uses.search {f : β → Task κ ρ ε (Option α)} (h : ∀ b, (f b).Uses A (fun _ => True)) :
    (Task.search f l).Uses A (fun _ => True) := by
  induction l with
  | nil => trivial
  | cons b l ih =>
    refine .bind (h b) (fun r _ => ?_)
    cases r with
    | some a => trivial
    | none => exact ih

def Serving (A : ℕ → R → κ → Prop) (c : Config κ ρ ε α σ R) : Prop :=
  ∀ pid t, c.task pid = some t → ∃ request, c.requests[pid]? = some request ∧ t.Uses (A pid request) (fun _ => True)

lemma Serving.step {A : ℕ → R → κ → Prop}
    (hprogram : ∀ pid request, (program request).Uses (A pid request) (fun _ => True)) (h : Serving A c)
    (e : Event ω χ R) : Serving A (step W program c e) := by
  cases e with
  | start request => exact Each.start h (hprogram _ request)
  | advance pid w =>
    rw [Processes.step]
    split
    case h_2 => exact h
    case h_1 k next hk =>
      split
      case h_2 => exact h
      case h_1 s' r hw =>
        refine Each.update h (fun _ _ _ _ hu => hu) (fun t ht => ?_)
        cases ht
        obtain ⟨request, hr, hu⟩ := h pid _ hk
        exact ⟨request, hr, hu.2 r⟩
  | die pid =>
    rw [Processes.step]
    split
    case h_2 => exact h
    case h_1 k next hk => exact Each.update h (fun _ _ _ _ hu => hu) nofun
  | outside e => exact h

def Task.solo (W : World κ ρ σ ω χ) (pid : ℕ) (w : ω) : Task κ ρ ε α → σ → Option (σ × Except ε α)
  | .ret a, s => some (s, a)
  | .call c next, s =>
    match W.answer pid c s w with
    | some (s', r) => (next r).solo W pid w s'
    | none => none

variable {w : ω} {t : Task κ ρ ε α} {s s' : σ}

variable {c : κ} {r : ρ c} {f : α → Task κ ρ ε β} {a : α}

lemma solo_call {next : ρ c → Task κ ρ ε α} (h : W.answer pid c s w = some (s', r)) :
    (Task.call c next).solo W pid w s = (next r).solo W pid w s' := by
  rw [Task.solo, h]

lemma solo_bind_eq : (t >>= f).solo W pid w s = (t.solo W pid w s).bind (fun x => match x.2 with
    | .ok a => (f a).solo W pid w x.1
    | .error e => some (x.1, .error e)) := by
  induction t generalizing s with
  | ret b => cases b <;> rfl
  | call c next ih =>
    rw [Task.solo]
    split
    case h_2 hw => exact (by rw [Task.solo, hw] : (Task.call c (fun r => (next r).bind f)).solo W pid w s = none)
    case h_1 s₁ r hw => exact (solo_call hw).trans (ih r)

lemma solo_bind (h : t.solo W pid w s = some (s', .ok a)) : (t >>= f).solo W pid w s = (f a).solo W pid w s' := by
  rw [solo_bind_eq, h]
  rfl

lemma solo_bind_error (h : t.solo W pid w s = some (s', .error e)) :
    (t >>= f).solo W pid w s = some (s', .error e) := by
  rw [solo_bind_eq, h]
  rfl

lemma solo_ask (h : W.answer pid c s w = some (s', r)) :
    (Task.ask c : Task κ ρ ε (ρ c)).solo W pid w s = some (s', .ok r) :=
  solo_call h

lemma solo_attempt {a : Except ε α} (h : t.solo W pid w s = some (s', a)) :
    t.attempt.solo W pid w s = some (s', .ok a) := by
  induction t generalizing s with
  | ret b =>
    cases h
    rfl
  | call c next ih =>
    rw [Task.solo] at h
    split at h
    case h_2 => cases h
    case h_1 s₁ r hw =>
      exact (solo_call hw).trans (ih r h)

lemma solo_search {f : β → Task κ ρ ε (Option α)} {b : β} (hb : b ∈ l)
    (hit : (f b).solo W pid w s = some (s, .ok (some a)))
    (hmiss : ∀ b' ∈ l, b' ≠ b → (f b').solo W pid w s = some (s, .ok none)) :
    (Task.search f l).solo W pid w s = some (s, .ok (some a)) := by
  induction l with
  | nil => cases hb
  | cons b' l ih =>
    by_cases he : b' = b
    · subst he
      rw [Task.search, solo_bind hit]
      rfl
    · rw [Task.search, solo_bind (hmiss b' mem_cons_self he)]
      rcases mem_cons.mp hb with rfl | hb
      · exact absurd rfl he
      · exact ih hb (fun c hc => hmiss c (mem_cons_of_mem _ hc))

lemma run_solo {a : Except ε α}
    (h : t.solo W pid w s = some (s', a)) (requests : List R) (task : ℕ → Option (Task κ ρ ε α))
    (ht : task pid = some t) : ∃ n task', task' pid = some (.ret a) ∧
      run (step W program) ⟨s, requests, task⟩ (List.replicate n (.advance pid w)) = ⟨s', requests, task'⟩ := by
  induction t generalizing s task with
  | ret b =>
    cases h
    exact ⟨0, task, ht, rfl⟩
  | call c next ih =>
    rw [Task.solo] at h
    split at h
    case h_2 => cases h
    case h_1 s₁ r hw =>
      obtain ⟨n, task', hret, hrun⟩ := ih r h (Function.update task pid (some (next r))) (Function.update_self _ _ _)
      refine ⟨n + 1, task', hret, ?_⟩
      rw [replicate_succ, run_cons, ← hrun]
      simp only [step, ht, hw]

end FileES.Lib.Processes
