import FileES.WhaleCache.Service

/-! One process at a time works on a transfer, as long as no lock file is unlinked while another process has it open. -/

namespace FileES.WhaleCache

open Go Lib.Processes Lib.Runs Option
open Whale (Request Operation WhaleError RepositoryAccess)
open Function (update update_self update_of_ne)

def Inside (pid : ℕ) (id : Str) (s : Store) : Prop := ∃ n, s.opened pid = some (id, n) ∧ s.locked n = some pid

structure Inv (s : Store) : Prop where
  current : ∀ q id n, s.opened q = some (id, n) → s.lockFile id = some n
  apart : ∀ id id' n, s.lockFile id = some n → s.lockFile id' = some n → id = id'
  below : ∀ id n, s.lockFile id = some n → n < s.inodes
  held : ∀ n q, s.locked n = some q → ∃ id, s.opened q = some (id, n)
  missing : ∀ q id, s.missing q = some id → s.record id = none

structure Rely (q : ℕ) (s s' : Store) : Prop where
  opened : s'.opened q = s.opened q
  locked : ∀ n, s'.locked n = some q ↔ s.locked n = some q
  missing : s'.missing q = s.missing q
  record : ∀ id, Inside q id s → s'.record id = s.record id
  clock : s.clock ≤ s'.clock

def Idle (pid : ℕ) (s : Store) : Prop := s.opened pid = none ∧ s.missing pid = none

def Expired (id : Str) (s : Store) : Prop := ∀ r, s.record id = some r → r.expiresAt ≤ s.clock

def Proper (pid : ℕ) : Call → Store → Prop
  | .writeRecord id _, s => Inside pid id s
  | .removeTransfer id pruning, s => Inside pid id s ∧ (pruning = true → Expired id s)
  | .openLock _, s => s.opened pid = none
  | _, _ => True

/-- Lock files are unlinked only when nobody has them open, and no record is written for a transfer about to be
removed. -/
def Allowed : Call → Store → Fate → Prop
  | .unlink id, s, w => w.landed = true → ∀ q n, s.opened q ≠ some (id, n)
  | .writeRecord id _, s, w => w.landed = true → ∀ q, s.missing q ≠ some id
  | _, _, _ => True

variable {pid q : ℕ} {id : Str} {s s' s₁ s₂ s₃ : Store} {env : Env}

lemma Inv.exclusive (h : Inv s) (hp : Inside pid id s) (hq : Inside q id s) : pid = q := by
  obtain ⟨n, hpo, hpl⟩ := hp
  obtain ⟨m, hqo, hql⟩ := hq
  have hn := h.current pid id n hpo
  rw [h.current q id m hqo, some.injEq] at hn
  subst hn
  exact mem_unique hpl hql

lemma Inside.rely (h : Inside q id s) (hr : Rely q s s') : Inside q id s' := by
  obtain ⟨n, ho, hl⟩ := h
  exact ⟨n, hr.opened.trans ho, (hr.locked n).mpr hl⟩

lemma Rely.refl (s : Store) : Rely q s s := ⟨rfl, fun _ => Iff.rfl, rfl, fun _ _ => rfl, le_rfl⟩

lemma Rely.trans (h : Rely q s₁ s₂) (h' : Rely q s₂ s₃) : Rely q s₁ s₃ :=
  ⟨h'.opened.trans h.opened, fun n => (h'.locked n).trans (h.locked n), h'.missing.trans h.missing,
    fun id hi => (h'.record id (hi.rely h)).trans (h.record id hi), h.clock.trans h'.clock⟩

lemma Rely.idle (h : Rely q s s') (hi : Idle q s) : Idle q s' := ⟨h.opened.trans hi.1, h.missing.trans hi.2⟩

lemma kept (h : Inv s) : Inv s ∧ ∀ q, q ≠ pid → Rely q s s := ⟨h, fun _ _ => Rely.refl s⟩

lemma record_keeps {f : Str → Option GetRecord} {dirs : List Str}
    {payload : Str → Option (List UInt8)} (h : Inv s) (hi : Inside pid id s)
    (hf : ∀ id', id' ≠ id → f id' = s.record id') (hm : ∀ q, s.missing q = some id → f id = none) :
    Inv { s with directories := dirs, record := f, payload := payload } ∧
      ∀ q, q ≠ pid → Rely q s { s with directories := dirs, record := f, payload := payload } := by
  refine ⟨{ h with missing := fun q id' hq => ?_ },
    fun q hq => ⟨rfl, fun _ => Iff.rfl, rfl, fun id' hi' => ?_, le_rfl⟩⟩
  · by_cases he : id' = id
    · subst he
      exact hm q hq
    · exact (hf id' he).trans (h.missing q id' hq)
  · have hne : id' ≠ id := by
      rintro rfl
      exact hq (h.exclusive hi' hi)
    exact hf id' hne

variable {w : Fate} {n : ℕ} {u : Unit}

lemma remove_keeps (h : Inv s) (hi : Inside pid id s) :
    Inv (s.remove id w) ∧ ∀ q, q ≠ pid → Rely q s (s.remove id w) := by
  have hgone : ∀ {dirs payload}, Inv { s with directories := dirs, record := update s.record id none, payload := payload } ∧
      ∀ q, q ≠ pid → Rely q s { s with directories := dirs, record := update s.record id none, payload := payload } :=
    record_keeps h hi (fun id' hne => update_of_ne hne _ _) (fun _ _ => update_self _ _ _)
  cases w with
  | done => exact hgone
  | unsynced => exact hgone
  | recordGone => exact hgone
  | payloadGone => exact record_keeps h hi (fun _ _ => rfl) (fun q hq => h.missing q id hq)
  | failed => exact kept h

lemma missing_keeps {o : Option Str} (h : Inv s) (hm : ∀ id, o = some id → s.record id = none) :
    Inv { s with missing := update s.missing pid o } ∧
      ∀ q, q ≠ pid → Rely q s { s with missing := update s.missing pid o } := by
  refine ⟨{ h with missing := fun q id hq => ?_ },
    fun q hq => ⟨rfl, fun _ => Iff.rfl, update_of_ne hq _ _, fun _ _ => rfl, le_rfl⟩⟩
  have hq' : update s.missing pid o q = some id := hq
  by_cases he : q = pid
  · subst he
    rw [update_self] at hq'
    exact hm id hq'
  · rw [update_of_ne he] at hq'
    exact h.missing q id hq'

lemma Inv.not_locked (h : Inv s) (ho : s.opened pid = none) (n : ℕ) : s.locked n ≠ some pid := by
  intro hl
  obtain ⟨id, hid⟩ := h.held n pid hl
  rw [ho] at hid
  cases hid

lemma openLock_existing (hn : s.lockFile id = some n) :
    s.openLock pid id = { s with opened := update s.opened pid (some (id, n)) } := by
  rw [Store.openLock, hn]

lemma openLock_new (hn : s.lockFile id = none) : s.openLock pid id =
    { s with
      lockFile := update s.lockFile id (some s.inodes)
      inodes := s.inodes + 1
      opened := update s.opened pid (some (id, s.inodes)) } := by
  rw [Store.openLock, hn]

lemma opened_openLock : ∃ n, (s.openLock pid id).opened pid = some (id, n) := by
  cases hn : s.lockFile id with
  | some n =>
    rw [openLock_existing hn]
    exact ⟨n, update_self _ _ _⟩
  | none =>
    rw [openLock_new hn]
    exact ⟨s.inodes, update_self _ _ _⟩

lemma missing_openLock : (s.openLock pid id).missing pid = s.missing pid := by
  rw [Store.openLock]
  split <;> rfl

lemma opened_keeps {f : Str → Option ℕ} {k : ℕ} (h : Inv s) (ho : s.opened pid = none) (hn : f id = some n)
    (hold : ∀ q id' m, s.opened q = some (id', m) → f id' = some m)
    (hapart : ∀ id₁ id₂ m, f id₁ = some m → f id₂ = some m → id₁ = id₂) (hbelow : ∀ id' m, f id' = some m → m < k) :
    Inv { s with lockFile := f, inodes := k, opened := update s.opened pid (some (id, n)) } ∧
      ∀ q, q ≠ pid → Rely q s { s with lockFile := f, inodes := k, opened := update s.opened pid (some (id, n)) } := by
  refine ⟨⟨fun q id' m (hq : update s.opened pid (some (id, n)) q = some (id', m)) => ?_, hapart, hbelow, fun m q hl => ?_,
    h.missing⟩, fun q hq => ⟨update_of_ne hq _ _, fun _ => Iff.rfl, rfl, fun _ _ => rfl, le_rfl⟩⟩
  · by_cases he : q = pid
    · subst he
      rw [update_self, some.injEq, Prod.mk.injEq] at hq
      obtain ⟨rfl, rfl⟩ := hq
      exact hn
    · rw [update_of_ne he] at hq
      exact hold q id' m hq
  · have hne : q ≠ pid := by
      rintro rfl
      exact h.not_locked ho m hl
    obtain ⟨id', hid'⟩ := h.held m q hl
    exact ⟨id', (update_of_ne hne _ _).trans hid'⟩

lemma openLock_keeps (h : Inv s) (ho : s.opened pid = none) :
    Inv (s.openLock pid id) ∧ ∀ q, q ≠ pid → Rely q s (s.openLock pid id) := by
  cases hn : s.lockFile id with
  | some n =>
    rw [openLock_existing hn]
    exact opened_keeps h ho hn h.current h.apart h.below
  | none =>
    rw [openLock_new hn]
    refine opened_keeps h ho (update_self _ _ _) (fun q id' m hq => ?_) (fun id₁ id₂ m h₁ h₂ => ?_) (fun id' m hm => ?_)
    · have hm := h.current q id' m hq
      have hne : id' ≠ id := by
        rintro rfl
        rw [hn] at hm
        cases hm
      rw [update_of_ne hne]
      exact hm
    · by_cases he₁ : id₁ = id
      · by_cases he₂ : id₂ = id
        · rw [he₁, he₂]
        · rw [he₁, update_self, some.injEq] at h₁
          rw [update_of_ne he₂, ← h₁] at h₂
          exact absurd (h.below id₂ _ h₂) (lt_irrefl _)
      · rw [update_of_ne he₁] at h₁
        by_cases he₂ : id₂ = id
        · rw [he₂, update_self, some.injEq] at h₂
          rw [← h₂] at h₁
          exact absurd (h.below id₁ _ h₁) (lt_irrefl _)
        · rw [update_of_ne he₂] at h₂
          exact h.apart id₁ id₂ m h₁ h₂
    · by_cases he : id' = id
      · rw [he, update_self, some.injEq] at hm
        omega
      · rw [update_of_ne he] at hm
        have hlt := h.below id' m hm
        omega

lemma flock_eq_some (hw : flock pid s = some (s', u)) : ∃ id n, s.opened pid = some (id, n) ∧ s.locked n = none ∧
    s' = { s with locked := update s.locked n (some pid) } := by
  rw [flock] at hw
  split at hw
  · cases hw
  · rename_i id n ho
    split at hw
    · cases hw
    · rename_i hl
      cases hw
      exact ⟨id, n, ho, hl, rfl⟩

lemma flock_keeps (h : Inv s) (hw : flock pid s = some (s', u)) : Inv s' ∧ ∀ q, q ≠ pid → Rely q s s' := by
  obtain ⟨id, n, ho, hl, rfl⟩ := flock_eq_some hw
  refine ⟨{ h with held := fun m q (hm : update s.locked n (some pid) m = some q) => ?_ },
    fun q hq => ⟨rfl, fun m => ?_, rfl, fun _ _ => rfl, le_rfl⟩⟩
  · by_cases he : m = n
    · subst he
      rw [update_self, some.injEq] at hm
      exact ⟨id, hm ▸ ho⟩
    · rw [update_of_ne he] at hm
      exact h.held m q hm
  · change update s.locked n (some pid) m = some q ↔ _
    by_cases he : m = n
    · subst he
      rw [update_self, hl]
      exact ⟨fun h => absurd (some.inj h).symm hq, fun h => by cases h⟩
    · rw [update_of_ne he]

lemma close_keeps (h : Inv s) : Inv (s.close pid) ∧ ∀ q, q ≠ pid → Rely q s (s.close pid) := by
  have hlocked : ∀ {m q}, q ≠ pid → ((s.close pid).locked m = some q ↔ s.locked m = some q) := by
    intro m q hq
    change (if s.locked m = some pid then none else s.locked m) = some q ↔ _
    split
    · rename_i he
      rw [he]
      exact ⟨fun h => (by cases h), fun h => absurd (some.inj h).symm hq⟩
    · exact Iff.rfl
  have hown : ∀ {m}, (s.close pid).locked m ≠ some pid := by
    intro m hm
    change (if s.locked m = some pid then none else s.locked m) = some pid at hm
    split at hm
    · cases hm
    · rename_i hne
      exact hne hm
  refine ⟨⟨fun q id n (hq : update s.opened pid none q = some (id, n)) => ?_, h.apart, h.below, fun m q hm => ?_,
    fun q id (hq : update s.missing pid none q = some id) => ?_⟩,
    fun q hq => ⟨update_of_ne hq _ _, fun m => hlocked hq, update_of_ne hq _ _, fun _ _ => rfl, le_rfl⟩⟩
  · by_cases he : q = pid
    · subst he
      rw [update_self] at hq
      cases hq
    · rw [update_of_ne he] at hq
      exact h.current q id n hq
  · have hne : q ≠ pid := by
      rintro rfl
      exact hown hm
    obtain ⟨id, hid⟩ := h.held m q ((hlocked hne).mp hm)
    exact ⟨id, (update_of_ne hne _ _).trans hid⟩
  · by_cases he : q = pid
    · subst he
      rw [update_self] at hq
      cases hq
    · rw [update_of_ne he] at hq
      exact h.missing q id hq

lemma idle_close : Idle pid (s.close pid) := ⟨update_self _ _ _, update_self _ _ _⟩

lemma unlink_keeps (h : Inv s) (ha : ∀ q n, s.opened q ≠ some (id, n)) :
    Inv { s with lockFile := update s.lockFile id none } ∧
      ∀ q, q ≠ pid → Rely q s { s with lockFile := update s.lockFile id none } := by
  have hold : ∀ {id' n}, update s.lockFile id none id' = some n → s.lockFile id' = some n := by
    intro id' n hn
    by_cases he : id' = id
    · rw [he, update_self] at hn
      cases hn
    · rw [update_of_ne he] at hn
      exact hn
  refine ⟨⟨fun q id' n hq => ?_, fun id₁ id₂ n h₁ h₂ => h.apart id₁ id₂ n (hold h₁) (hold h₂), fun id' n hn => h.below id' n (hold hn),
    h.held, h.missing⟩, fun q _ => ⟨rfl, fun _ => Iff.rfl, rfl, fun _ _ => rfl, le_rfl⟩⟩
  have hne : id' ≠ id := by
    rintro rfl
    exact ha q n hq
  exact (update_of_ne hne _ _).trans (h.current q id' n hq)

lemma answer_keeps (c : Call) (s' : Store) (reply : Reply c) (h : Inv s) (hp : Proper pid c s)
    (ha : Allowed c s w) (hw : answer pid env c s w = some (s', reply)) : Inv s' ∧ ∀ q, q ≠ pid → Rely q s s' := by
  cases c with
  | inspect id =>
    rw [answer] at hw
    split at hw
    · cases hw
      refine missing_keeps h (fun id' he => ?_)
      split at he
      · rename_i hnone
        cases he
        simpa using hnone
      · cases he
    · cases hw
      exact kept h
  | makeDirectory id =>
    rw [answer] at hw
    cases hw
    split
    · exact ⟨{ h with }, fun q _ => ⟨rfl, fun _ => Iff.rfl, rfl, fun _ _ => rfl, le_rfl⟩⟩
    · exact kept h
  | writeRecord id r =>
    rw [answer] at hw
    cases hw
    split
    · rename_i hl
      exact record_keeps h hp (fun id' hne => update_of_ne hne _ _) (fun q hq => absurd hq (ha hl q))
    · exact kept h
  | storePayload id content =>
    rw [answer] at hw
    cases hw
    split
    · exact ⟨{ h with }, fun q _ => ⟨rfl, fun _ => Iff.rfl, rfl, fun _ _ => rfl, le_rfl⟩⟩
    · exact kept h
  | removeTransfer id pruning =>
    cases hw
    exact remove_keeps h hp.1
  | openLock id =>
    rw [answer] at hw
    split at hw
    · cases hw
      exact openLock_keeps h hp
    · cases hw
      exact missing_keeps h nofun
  | flock => exact flock_keeps h hw
  | unlock =>
    cases hw
    exact close_keeps h
  | unlink id =>
    rw [answer] at hw
    cases hw
    split
    · rename_i hl
      exact unlink_keeps h (ha hl)
    · exact kept h
  | _ =>
    cases hw
    exact kept h

lemma tick_keeps (h : Inv s) : Inv { s with clock := s.clock + 1 } ∧ ∀ q, Rely q s { s with clock := s.clock + 1 } :=
  ⟨{ h with }, fun _ => ⟨rfl, fun _ => Iff.rfl, rfl, fun _ _ => rfl, Nat.le_succ _⟩⟩

def rules (env : Env) : Contract (world env) where
  inv := Inv
  rely := Rely
  idle := Idle
  proper pid c s := Proper pid c s
  allowed _ c s w := Allowed c s w
  mayDie _ _ := True
  mayHappen _ _ := True
  rely_refl _ s := Rely.refl s
  rely_trans _ _ _ _ h h' := h.trans h'
  rely_idle _ _ _ h hi := h.idle hi
  answer_keeps _ c _ _ s' reply h hp ha hw := answer_keeps c s' reply h hp ha hw
  die_keeps _ _ h _ := ⟨(close_keeps h).1, idle_close, (close_keeps h).2⟩
  outside_keeps _ _ h _ := tick_keeps h

variable {α : Type} {P F : Store → Prop} {Q : α → Store → Prop} {S : WhaleError → Store → Prop} {m : Option Str}
  {o : Option α} {b : Bool}

/-- What the process knows while it runs the task, whether the task succeeds or not. -/
abbrev Maintains (env : Env) (pid : ℕ) (P : Store → Prop) (t : Prog α) : Prop :=
  Does (rules env) pid P t (fun _ => P) (fun _ => P)

instance : Lasts (rules env) pid (fun s => s.opened pid = none) := ⟨fun _ _ hr _ h => (Rely.opened hr).trans h⟩

instance : Lasts (rules env) pid (fun s => ∃ n, s.opened pid = some (id, n)) :=
  ⟨fun _ _ hr _ h => h.imp (fun _ hn => (Rely.opened hr).trans hn)⟩

instance : Lasts (rules env) pid (fun s => s.missing pid = m) := ⟨fun _ _ hr _ h => (Rely.missing hr).trans h⟩

instance {t : ℕ} : Lasts (rules env) pid (fun s => t ≤ s.clock) := ⟨fun _ _ hr _ h => h.trans (Rely.clock hr)⟩

instance : Lasts (rules env) pid (Idle pid) := ⟨fun _ _ hr _ h => Rely.idle hr h⟩

instance : Lasts (rules env) pid (Inside pid id) := ⟨fun _ _ hr _ h => Inside.rely h hr⟩

instance {o : Option GetRecord} : Lasts (rules env) pid (fun s => Inside pid id s ∧ s.record id = o) :=
  ⟨fun _ _ hr _ h => ⟨Inside.rely h.1 hr, (Rely.record hr id h.1).trans h.2⟩⟩

instance {o : Option (Option GetRecord)} :
    Lasts (rules env) pid (fun s => Inside pid id s ∧ ∀ r, o = some r → s.record id = r) :=
  ⟨fun _ _ hr _ h => ⟨Inside.rely h.1 hr, fun r ho => (Rely.record hr id h.1).trans (h.2 r ho)⟩⟩

section

variable [Lasts (rules env) pid P] (hS : ∀ e s, Inv s → P s → S e s)
include hS

lemma does_expect (h : ∀ a s, o = some a → Inv s → P s → Q a s) : Does (rules env) pid P (expect o) Q S := by
  cases o with
  | some a => exact .pure (fun s hi hs => h a s rfl hi hs)
  | none => exact .fail (fun s hi hs => hS _ s hi hs)

lemma does_settle : Does (rules env) pid P (settle b) (fun _ => P) S := by
  cases b with
  | true => exact .done
  | false => exact .fail (fun s hi hs => hS _ s hi hs)

end

lemma maintains_expect [Lasts (rules env) pid P] : Maintains env pid P (expect o) :=
  does_expect (fun _ _ _ hs => hs) (fun _ _ _ _ hs => hs)

lemma maintains_settle [Lasts (rules env) pid P] : Maintains env pid P (settle b) := does_settle (fun _ _ _ hs => hs)

def Call.quiet : Call → Bool
  | .inspect _ | .writeRecord _ _ | .removeTransfer _ _ | .openLock _ | .flock | .unlock | .unlink _ => false
  | _ => true

variable {c : Call}

lemma proper_of_quiet (hc : c.quiet = true) : Proper pid c s := by
  cases c with
  | writeRecord id r => cases hc
  | removeTransfer id pruning => cases hc
  | openLock id => cases hc
  | _ => trivial

lemma answer_of_quiet {r : Reply c} (hc : c.quiet = true) (hw : answer pid env c s w = some (s', r)) :
    ∃ dirs payload, s' = { s with directories := dirs, payload := payload } := by
  cases c with
  | makeDirectory id =>
    rw [answer] at hw
    cases hw
    split
    · exact ⟨_, s.payload, rfl⟩
    · exact ⟨s.directories, s.payload, rfl⟩
  | storePayload id content =>
    rw [answer] at hw
    cases hw
    split
    · exact ⟨s.directories, _, rfl⟩
    · exact ⟨s.directories, s.payload, rfl⟩
  | inspect id => cases hc
  | writeRecord id r => cases hc
  | removeTransfer id pruning => cases hc
  | openLock id => cases hc
  | flock => cases hc
  | unlock => cases hc
  | unlink id => cases hc
  | _ =>
    cases hw
    exact ⟨s.directories, s.payload, rfl⟩

lemma does_quiet (hc : c.quiet = true) [hP : Lasts (rules env) pid P] :
    Does (rules env) pid P (Task.ask c : Prog (Reply c)) (fun _ => P) S := by
  refine .ask (fun s _ _ => proper_of_quiet hc) (fun s w s' r hi hs _ hw => ?_)
  obtain ⟨dirs, payload, rfl⟩ := answer_of_quiet hc hw
  exact hP.stable s _ ⟨rfl, fun _ => Iff.rfl, rfl, fun _ _ => rfl, le_rfl⟩ { hi with } hs

variable {client path : Str} {request : Request}

lemma does_withFileLock {body : Prog α}
    (hbody : Does (rules env) pid (fun s => Inside pid id s ∧ s.missing pid = m) body (fun _ => Inside pid id)
      (fun _ => Inside pid id)) :
    Does (rules env) pid (fun s => s.opened pid = none ∧ s.missing pid = m) (withFileLock id body)
      (fun _ => Idle pid) (fun _ => Idle pid) := by
  refine .bind (Q := fun b s => (b = true → (∃ n, s.opened pid = some (id, n)) ∧ s.missing pid = m) ∧ (b = false → Idle pid s))
    (.ask (fun s _ hs => hs.1) (fun s w s' b _ hs _ hans => ?_)) (fun b => ?_)
  · change answer pid env (.openLock id) s w = some (s', b) at hans
    rw [answer] at hans
    split at hans
    · cases hans
      exact ⟨fun _ => ⟨opened_openLock, missing_openLock.trans hs.2⟩, fun hb => by cases hb⟩
    · cases hans
      exact ⟨fun hb => (by cases hb), fun _ => ⟨hs.1, update_self _ _ _⟩⟩
  · refine .seq (Q := fun s => (∃ n, s.opened pid = some (id, n)) ∧ s.missing pid = m) ?_ ?_
    · cases b with
      | true => exact .pure (fun s _ hs => hs.1 rfl)
      | false => exact .fail (fun s _ hs => hs.2 rfl)
    · refine .seq (Q := fun s => Inside pid id s ∧ s.missing pid = m)
        (.ask (fun _ _ _ => trivial) (fun s w s' u _ hs _ hans => ?_)) ?_
      · obtain ⟨id', n, ho, _, rfl⟩ := flock_eq_some hans
        obtain ⟨⟨n', hn'⟩, hm⟩ := hs
        rw [ho, some.injEq, Prod.mk.injEq] at hn'
        obtain ⟨rfl, rfl⟩ := hn'
        exact ⟨⟨n, ho, update_self _ _ _⟩, hm⟩
      · refine .bind (.attempt hbody) (fun a => ?_)
        refine Does.pre (P := Inside pid id) ?_ (fun s _ hs => by cases a <;> exact hs)
        refine .seq (Q := Idle pid) (.ask (fun _ _ _ => trivial)
          (fun s w s' u _ hs _ hans => ?_)) (.ofExcept (fun _ _ _ _ hs => hs) (fun _ _ _ hs => hs))
        cases hans
        exact idle_close

lemma does_remove {pruning : Bool} [Lasts (rules env) pid P]
    (hin : ∀ s, P s → Inside pid id s) (hp : pruning = true → ∀ s, Inv s → P s → Expired id s) :
    Does (rules env) pid P (remove id pruning) (fun _ => Inside pid id) (fun _ => Inside pid id) := by
  refine .bind (Q := fun _ => Inside pid id) (.ask (fun s hi hs => ⟨hin s hs, fun hb => hp hb s hi hs⟩)
    (fun s w s' b _ hs _ hans => ?_)) (fun _ => ?_)
  · cases hans
    have hinside := hin s hs
    cases w <;> exact hinside
  · exact .bind (does_quiet rfl) (fun _ => maintains_settle)

lemma does_unlink : Maintains env pid (Idle pid) (Task.ask (Call.unlink id) : Prog Bool) := by
  refine .ask (fun _ _ _ => trivial) (fun s w s' b _ hs _ hans => ?_)
  cases hans
  split <;> exact hs

lemma does_pruneMissing : Does (rules env) pid (fun s => s.opened pid = none ∧ s.missing pid = some id) (pruneMissing id)
    (fun _ => Idle pid) (fun _ => Idle pid) := by
  refine .seq (does_withFileLock ?_) (.seq does_unlink .done)
  refine does_remove (fun s hs => hs.1) (fun _ s hi hs r hr => ?_)
  rw [hi.missing pid id hs.2] at hr
  cases hr

lemma does_readRecord :
    Does (rules env) pid (Inside pid id) (Task.ask (Call.readRecord id) : Prog (Option (Option GetRecord)))
      (fun o s => Inside pid id s ∧ ∀ r, o = some r → s.record id = r) S := by
  refine .ask (fun _ _ _ => trivial) (fun s w s' o _ hs _ hans => ?_)
  cases hans
  refine ⟨hs, fun r hr => ?_⟩
  split at hr
  · exact some.inj hr
  · cases hr

lemma does_loadRecord {β : Type} {f : Option GetRecord → Prog β} {T : β → Store → Prop}
    (hf : ∀ r, Does (rules env) pid (fun s => Inside pid id s ∧ s.record id = r) (f r) T (fun _ => Inside pid id)) :
    Does (rules env) pid (Inside pid id) (do f (← expect (← Task.ask (Call.readRecord id)))) T (fun _ => Inside pid id) := by
  exact .bind does_readRecord (fun o => .bind (does_expect (fun _ _ _ hs => hs.1)
    (fun r s ho _ hs => ⟨hs.1, hs.2 r ho⟩)) hf)

lemma does_removeExpired : Maintains env pid (Inside pid id) (removeExpired id) := by
  refine does_loadRecord (fun o => ?_)
  cases o with
  | none => exact .fail (fun _ _ hs => hs.1)
  | some r =>
    refine .bind (Q := fun t s => (Inside pid id s ∧ s.record id = some r) ∧ t ≤ s.clock)
      (.ask (fun _ _ _ => trivial) (fun s w s' t _ hs _ hans => ?_)) (fun t => ?_)
    · cases hans
      exact ⟨hs, le_rfl⟩
    · split
      · exact .pure (fun s _ hs => hs.1.1)
      · rename_i hle
        refine does_remove (fun s hs => hs.1.1) (fun _ s _ hs r' hr' => ?_)
        obtain rfl := mem_unique hs.1.2 hr'
        exact (Nat.le_of_not_lt hle).trans hs.2

lemma does_pruneEntry {now : ℕ} : Maintains env pid (Idle pid) (pruneEntry now id) := by
  refine .bind (Q := fun o s => s.opened pid = none ∧ s.missing pid = if o = some none then some id else none)
    (.ask (fun _ _ _ => trivial) (fun s w s' o _ hs _ hans => ?_)) (fun o => ?_)
  · change answer pid env (.inspect id) s w = some (s', o) at hans
    rw [answer] at hans
    split at hans
    · cases hans
      refine ⟨hs.1, ?_⟩
      change update s.missing pid _ pid = _
      rw [update_self]
      cases s.record id <;> rfl
    · cases hans
      exact hs
  · refine .bind (Q := fun r s => s.opened pid = none ∧ s.missing pid = if r.isNone then some id else none) ?_ (fun r => ?_)
    · cases o with
      | none => exact .fail (fun _ _ hs => hs)
      | some r => exact .pure (fun _ _ hs => by cases r <;> exact hs)
    · cases r with
      | none => exact does_pruneMissing
      | some r =>
        refine Does.pre (P := Idle pid) ?_ (fun _ _ hs => hs)
        change Maintains env pid (Idle pid) (pruneRecorded now r)
        rw [pruneRecorded]
        split
        · exact .done
        · refine .seq (does_withFileLock (m := none) (does_removeExpired.pre (fun _ _ hs => hs.1))) ?_
          exact .seq does_unlink .done

lemma does_pruneExpired : Maintains env pid (Idle pid) pruneExpired := by
  refine .bind (does_quiet rfl) (fun o => ?_)
  refine .bind maintains_expect (fun entries => ?_)
  refine .bind (does_quiet rfl) (fun now => ?_)
  exact .each (fun id _ => does_pruneEntry)

lemma does_authorize {repo : Str} : Maintains env pid (Idle pid) (authorize client repo) := by
  refine .bind (does_quiet rfl) (fun o => ?_)
  cases o with
  | none => exact .fail (fun _ _ hs => hs)
  | some a =>
    dsimp only
    split
    · exact .done
    · exact .fail (fun _ _ hs => hs)

lemma does_loadOrCreate : Maintains env pid (Inside pid request.transferID) (loadOrCreate client request) := by
  refine does_loadRecord (fun o => ?_)
  cases o with
  | some r =>
    dsimp only
    split
    · exact .pure (fun _ _ hs => hs.1)
    · exact .fail (fun _ _ hs => hs.1)
  | none =>
    refine Does.pre (P := Inside pid request.transferID) ?_ (fun _ _ hs => hs.1)
    refine .bind (does_quiet rfl) (fun _ => .bind maintains_settle (fun _ => ?_))
    exact .done

lemma does_provide : Maintains env pid (Inside pid id) (provide env path request) := by
  refine .bind (does_quiet rfl) (fun _ => .bind maintains_expect (fun b => ?_))
  refine .onlyIf (fun _ => ?_) (fun _ _ _ hs => hs)
  refine .bind (does_quiet rfl) (fun _ => .bind maintains_settle (fun _ => ?_))
  refine .bind (does_quiet rfl) (fun _ => .bind maintains_expect (fun content => ?_))
  refine .except (fun _ _ _ hs => hs) (fun _ _ => ?_)
  exact .bind (does_quiet rfl) (fun _ => maintains_settle)

lemma does_serve : Maintains env pid (Inside pid request.transferID) (serve env client path request) := by
  refine .bind does_loadOrCreate (fun r => .bind (does_quiet rfl) (fun _ => .bind maintains_expect (fun expires => ?_)))
  refine .bind (Q := fun _ => Inside pid request.transferID) (.ask (fun _ _ hs => hs)
    (fun s w s' b _ hs _ hans => ?_)) (fun _ => .seq maintains_settle (.seq does_provide ?_))
  · cases hans
    split <;> exact hs
  · refine .bind (does_quiet rfl) (fun _ => .bind maintains_expect (fun size => ?_))
    refine .except (fun _ _ _ hs => hs) (fun _ _ => ?_)
    refine .bind (does_quiet rfl) (fun _ => .bind maintains_settle (fun _ => ?_))
    exact .done

lemma does_giveUp : Maintains env pid (Inside pid request.transferID) (giveUp client request) := by
  have hremove : Maintains env pid (Inside pid request.transferID) (remove request.transferID false) :=
    does_remove (fun _ hs => hs) nofun
  refine does_loadRecord (fun o => ?_)
  cases o with
  | some r =>
    dsimp only
    split
    · exact hremove.pre (fun _ _ hs => hs.1)
    · exact .fail (fun _ _ hs => hs.1)
  | none => exact hremove.pre (fun _ _ hs => hs.1)

lemma keeps : Keeps (rules env) (fun _ _ _ _ => True) (program env) := by
  intro pid request
  suffices h : Maintains env pid (Idle pid) (program env request) from
    (h.post (fun _ _ _ hs => ⟨hs, trivial⟩)).fails (fun _ _ _ hs => ⟨hs, trivial⟩)
  cases request with
  | window client request =>
    refine .except (fun _ _ _ hs => hs) (fun _ _ => .except (fun _ _ _ hs => hs)
      (fun _ _ => .bind does_authorize (fun path => ?_)))
    refine .bind (does_quiet rfl) (fun _ => .bind maintains_settle (fun _ => ?_))
    refine .seq does_pruneExpired ?_
    exact does_withFileLock (m := none) (does_serve.pre (fun _ _ hs => hs.1))
  | release client request =>
    refine .except (fun _ _ _ hs => hs) (fun _ _ => .except (fun _ _ _ hs => hs)
      (fun _ _ => .bind does_authorize (fun path => ?_)))
    refine .bind (does_quiet rfl) (fun _ => .bind maintains_settle (fun _ => ?_))
    refine .seq (does_withFileLock (m := none) (does_giveUp.pre (fun _ _ hs => hs.1))) ?_
    exact .seq does_unlink .done
  | quote client request =>
    refine .except (fun _ _ _ hs => hs) (fun _ _ => .except (fun _ _ _ hs => hs)
      (fun _ _ => .bind does_authorize (fun path => .seq does_pruneExpired ?_)))
    refine .bind (does_quiet rfl) (fun _ => .bind maintains_settle (fun _ => ?_))
    exact .done
  | discover client request =>
    refine .except (fun _ _ _ hs => hs) (fun _ _ => .except (fun _ _ _ hs => hs)
      (fun _ _ => .bind does_authorize (fun path => .seq does_pruneExpired ?_)))
    refine .bind (does_quiet rfl) (fun _ => ?_)
    refine .bind maintains_expect (fun found => ?_)
    exact .done

abbrev System := Config Call Reply WhaleError GetResult Store Demand

abbrev Happening := Event Fate Unit Demand

def exec (env : Env) : System → Happening → System := step (world env) (program env)

structure Store.Initial (s : Store) : Prop where
  opened : ∀ pid, s.opened pid = none
  locked : ∀ n, s.locked n = none
  missing : ∀ pid, s.missing pid = none
  apart : ∀ id id' n, s.lockFile id = some n → s.lockFile id' = some n → id = id'
  below : ∀ id n, s.lockFile id = some n → n < s.inodes

lemma Store.Initial.inv (h : s.Initial) : Inv s := by
  refine ⟨fun q id n ho => ?_, h.apart, h.below, fun n q hl => ?_, fun q id hm => ?_⟩
  · rw [h.opened] at ho
    cases ho
  · rw [h.locked] at hl
    cases hl
  · rw [h.missing] at hm
    cases hm

lemma Store.Initial.sound (h : s.Initial) : Sound (rules env) (fun _ _ _ _ => True) (fresh s : System) :=
  Sound.fresh h.inv (fun pid => ⟨h.opened pid, h.missing pid⟩)

/-- The steps that unlink no file in use, and write no record that a pruner is about to remove unread. -/
def Orderly (c : System) : Happening → Prop
  | .advance pid w => ∀ k next, c.task pid = some (.call k next) → Allowed k c.shared w
  | _ => True

structure Exclusive (c : System) : Prop where
  alone : ∀ pid q id, Inside pid id c.shared → Inside q id c.shared → pid = q
  expired : ∀ pid id next, c.task pid = some (.call (.removeTransfer id true) next) → Expired id c.shared

theorem transfer_exclusive (env : Env) (s : Store) (h : s.Initial) (es : List Happening)
    (hes : Admits (exec env) Orderly (fresh s) es) : Along (exec env) Exclusive (fresh s) es := by
  have hes' : Admits (exec env) (rules env).Admitted (fresh s) es := by
    refine hes.mono _ (fun c e he => ?_)
    cases e with
    | start request => trivial
    | advance pid w => exact he
    | die pid => trivial
    | outside e => trivial
  intro pre hpre
  have hsound : Sound (rules env) (fun _ _ _ _ => True) (run (exec env) (fresh s) pre) := h.sound.along keeps hes' pre hpre
  refine ⟨fun pid q id hp hq => hsound.inv.exclusive hp hq, fun pid id next ht => ?_⟩
  have hproper : Proper pid (.removeTransfer id true) (run (exec env) (fresh s) pre).shared := hsound.proper ht
  exact hproper.2 rfl

def sampleID : Str := "11111111-1111-4111-8111-111111111111"

def sampleRequest (o : Operation) (size : ℤ) : Request :=
  ⟨sampleID, o, ⟨sampleID, ['a'], sampleID, 1, List.replicate 64 '0'⟩, 1, sampleID, sampleID, 0, size⟩

def sampleRecord : GetRecord := ⟨[], sampleID, sampleID, (sampleRequest .getWindow 1).identity, 1, 0⟩

def sampleEnv : Env :=
  ⟨fun _ => List.replicate 64 '0', fun _ _ => some ⟨[], "r"⟩, fun _ _ _ _ => none, fun _ _ _ => true,
    fun _ _ _ => some [7], 10⟩

def emptyStore : Store := ⟨fun _ => none, 0, fun _ => none, fun _ => none, [], fun _ => none, fun _ => none, 0, fun _ => none⟩

def expiredStore : Store := { emptyStore with directories := [sampleID], record := update (fun _ => none) sampleID (some sampleRecord) }

def window : Demand := .window [] (sampleRequest .getWindow 1)

def releasing : Demand := .release [] (sampleRequest .getRelease 0)

def discovery : Demand := .discover [] { sampleRequest .getDiscover 0 with
  identity := ⟨sampleID, ['a'], [], 0, []⟩, transferID := [], confirmationToken := [] }

def advances (pid steps : ℕ) : List Happening := List.replicate steps (.advance pid .done)

def pruning : List Happening :=
  .start discovery :: .start releasing :: (advances 0 6 ++ advances 1 3 ++ advances 0 2)

def unlinking : List Happening :=
  .start releasing :: .start window :: .start window ::
    (advances 0 4 ++ advances 1 5 ++ advances 0 4 ++ advances 1 1 ++ advances 0 1 ++ advances 2 6)

def overtaking : List Happening :=
  .start discovery :: .start window :: (advances 1 8 ++ advances 0 4 ++ advances 1 9 ++ advances 0 2)

def removing (c : System) (pid : ℕ) (id : Str) : Bool :=
  match c.task pid with
  | some (.call (.removeTransfer id' true) _) => id' = id
  | _ => false

def inside (c : System) (pid : ℕ) (id : Str) : Bool :=
  match c.shared.opened pid with
  | some (id', n) => id' = id && c.shared.locked n = some pid
  | none => false

def calm (c : System) : Happening → Bool
  | .start _ => true
  | .advance pid .done =>
    match c.task pid with
    | some (.call (.unlink _) _) => false
    | some (.call (.writeRecord _ _) _) => false
    | _ => true
  | _ => false

variable {c : System}

lemma orderly_of_calm {e : Happening} (h : calm c e = true) : Orderly c e := by
  cases e with
  | start request => trivial
  | outside e => cases h
  | die pid => cases h
  | advance pid w =>
    intro k next ht
    cases w with
    | done =>
      rw [calm, ht] at h
      cases k with
      | unlink id => cases h
      | writeRecord id r => cases h
      | _ => trivial
    | _ => cases h

lemma inside_of_inside (h : inside c pid id = true) : Inside pid id c.shared := by
  rw [inside] at h
  split at h
  · rename_i id' n ho
    simp only [Bool.and_eq_true, decide_eq_true_eq] at h
    obtain ⟨rfl, hl⟩ := h
    exact ⟨n, ho, hl⟩
  · cases h

lemma exists_of_removing (h : removing c pid id = true) :
    ∃ next, c.task pid = some (.call (.removeTransfer id true) next) := by
  rw [removing] at h
  split at h
  · rename_i id' next ht
    obtain rfl : id' = id := of_decide_eq_true h
    exact ⟨next, ht⟩
  · cases h

lemma expiredStore_initial : expiredStore.Initial :=
  ⟨fun _ => rfl, fun _ => rfl, fun _ => rfl, fun _ _ _ hn => (by cases hn), fun _ _ hn => (by cases hn)⟩

theorem transfer_exclusive_pruning : removing (run (exec sampleEnv) (fresh expiredStore) pruning) 0 sampleID = true ∧
    Along (exec sampleEnv) Exclusive (fresh expiredStore) pruning := by
  refine ⟨by decide +kernel, transfer_exclusive sampleEnv expiredStore expiredStore_initial pruning ?_⟩
  have hcalm : Admits (exec sampleEnv) (fun c e => calm c e = true) (fresh expiredStore) pruning := by decide +kernel
  exact hcalm.mono _ (fun _ _ => orderly_of_calm)

/-- Two windows of one transfer are served at once, and a fresh transfer is about to be removed. -/
theorem transfer_shared : emptyStore.Initial ∧
    (∃ c, c = run (exec sampleEnv) (fresh emptyStore) unlinking ∧ Inside 1 sampleID c.shared ∧ Inside 2 sampleID c.shared) ∧
    ∃ c, c = run (exec sampleEnv) (fresh emptyStore) overtaking ∧
      (∃ next, c.task 0 = some (.call (.removeTransfer sampleID true) next)) ∧ ¬ Expired sampleID c.shared := by
  have hunlinking : inside (run (exec sampleEnv) (fresh emptyStore) unlinking) 1 sampleID = true ∧
      inside (run (exec sampleEnv) (fresh emptyStore) unlinking) 2 sampleID = true := by decide +kernel
  have hovertaking : removing (run (exec sampleEnv) (fresh emptyStore) overtaking) 0 sampleID = true ∧
      (run (exec sampleEnv) (fresh emptyStore) overtaking).shared.record sampleID = some { sampleRecord with expiresAt := 10 } ∧
      (run (exec sampleEnv) (fresh emptyStore) overtaking).shared.clock = 0 := by decide +kernel
  refine ⟨⟨fun _ => rfl, fun _ => rfl, fun _ => rfl, fun _ _ _ hn => (by cases hn), fun _ _ hn => (by cases hn)⟩, ?_, ?_⟩
  · exact ⟨_, rfl, inside_of_inside hunlinking.1, inside_of_inside hunlinking.2⟩
  · obtain ⟨hremoving, hrecord, hclock⟩ := hovertaking
    refine ⟨_, rfl, exists_of_removing hremoving, fun hexpired => ?_⟩
    have hle := hexpired _ hrecord
    rw [hclock] at hle
    exact absurd hle (by decide)

end FileES.WhaleCache
