import FileES.Lib.Runs
import FileES.Passports.Invariant

/-! Across crashes, restarts and failed saves the backend is asked at most once to take the lock of an intent. -/

namespace FileES.Passports

open Go Lib.Durable Lib.Effects Lib.Runs

variable {P R : Manager → Prop}

lemma ensures_saveLocked {Q : Unit → Manager → Prop} (hr : ∀ s, P s → R s)
    (hok : ∀ s, P s → Q () (saved .done s)) (hfail : ∀ s w, P s → R (saved w s)) : Ensures P saveLocked Q R := by
  apply Ensures.bind (.ask hr (fun _ _ h => h))
  intro a
  apply Ensures.seq (Q := fun s => ∃ t, P t ∧ s = saved a.save t) (.update (fun s h => ⟨s, h, rfl⟩))
  split
  · rename_i hok'
    apply Ensures.pure
    rintro _ ⟨t, ht, rfl⟩
    rw [Write.eq_done_of_ok hok']
    exact hok t ht
  · apply Ensures.fail
    rintro _ ⟨t, ht, rfl⟩
    exact hfail t _ ht

lemma ensures_save (hsave : ∀ s w, P s → P (saved w s)) : Ensures P saveLocked (fun _ => P) P :=
  ensures_saveLocked (fun _ h => h) (fun s h => hsave s .done h) hsave

lemma ensures_try_save [Within P R] (hsave : ∀ s w, P s → P (saved w s)) : Ensures P (attempt saveLocked) (fun _ => P) R :=
  (Ensures.attempt (ensures_save hsave) (fun _ _ h => h)).fails Within.imp

variable {i : LockIntent}

section

variable [Within P R]

lemma ensures_ctxErr : Ensures P ctxErr (fun _ => P) R := by
  apply Ensures.bind .asked
  intro a
  split
  · exact .done
  · exact .failed

lemma ensures_nowUTC : Ensures P nowUTC (fun _ => P) R := by
  apply Ensures.bind .asked
  intro a
  exact .done

lemma ensures_checkLive : Ensures P (checkLive i) (fun _ => P) R := by
  apply Ensures.seq ensures_ctxErr
  apply Ensures.bind ensures_nowUTC
  intro now
  split
  · exact .failed
  · exact .done

lemma ensures_try_checkLive : Ensures P (attempt (checkLive i)) (fun _ => P) R :=
  (Ensures.attempt (R := P) ensures_checkLive (fun _ _ h => h)).fails Within.imp

lemma ensures_validate {cfg : Config} : Ensures P (validateLockIntent cfg i) (fun _ => P) R := by
  apply Ensures.bind .asked
  intro a
  split
  · exact .done
  · exact .failed

lemma ensures_inspect : Ensures P inspect (fun _ => P) R := by
  apply Ensures.bind .asked
  intro a
  split
  · exact .done
  · exact .failed

end

variable {cfg : Config} {path : Path} {p q : Passport}

instance : Within (Holds path p) Sound := ⟨fun _ h => h.1⟩

instance : Within (Ready path p i) Sound := ⟨fun _ h => h.sound⟩

lemma ensures_put (hq : ∀ m, Holds path p m → Fits m path q) :
    Ensures (Holds path p) (put path q) (fun _ => Holds path q) Sound :=
  .update (fun m h => ⟨h.1.put (hq m h), hq m h⟩)

variable {cause : Refusal} {j : LockIntent} {m : Manager} {lock : Option Lock} {token : Str}

abbrev Ends {α : Type} (path : Path) (p : Passport) (prog : M α) : Prop :=
  Ensures (Holds path p) prog (fun _ => Sound) Sound

lemma ensures_retirePending : Ends path p (retirePending path p cause) := by
  apply Ensures.seq (Q := Holds path p) (.update (fun m h => ⟨h.1.delete, h.2⟩))
  apply Ensures.bind (ensures_try_save (fun _ w h => h.saved w))
  intro result
  cases result with
  | error e =>
    apply Ensures.seq (ensures_put (fun _ h => h.2))
    exact .failed
  | ok _ => exact .failed

section

variable (hi : p.pending = some i) (hid : j.id = i.id)
include hi hid

lemma ensures_record {call : Call} (hcall : call.plain = true)
    (hafter : call.resolves = true ∨ i.stage.past = false) :
    Ensures (Holds path p) (record call path j) (fun _ => Holds path p) Sound := by
  apply Ensures.update
  intro m h
  refine h.logged hi hid rfl hcall ?_
  intro hc
  rcases hafter with hres | hs
  · exact hres
  · exact absurd hc (h.2.not_committed hi hs)

lemma ensures_settleLockIntent : Ensures (Holds path p) (settleLockIntent path j) (fun _ => Holds path p) Sound := by
  apply Ensures.seq (ensures_record hi hid rfl (.inl rfl))
  apply Ensures.bind .asked
  intro a
  split
  · exact .done
  · exact .failed

lemma ensures_cancelLockIntent (hs : i.stage.past = false) :
    Ensures (Holds path p) (cancelLockIntent path j) (fun _ => Holds path p) Sound := by
  apply Ensures.seq (ensures_record hi hid rfl (.inr hs))
  apply Ensures.bind .asked
  intro a
  split
  · exact .done
  · exact .failed

end

lemma ensures_save_holds : Ensures (Holds path p) saveLocked (fun _ => Holds path p) Sound :=
  (ensures_save (fun _ w h => h.saved w)).fails (fun _ h => h.1)

lemma ensures_cancelPending (hi : p.pending = some i) : Ends path p (cancelPending path p i) := by
  unfold cancelPending
  split
  · rename_i hstage
    have hs : i.stage.past = false := by rcases hstage with h | h <;> rw [h] <;> rfl
    apply Ensures.seq (ensures_put (fun _ h => h.2.atStage hi hs))
    apply Ensures.bind ensures_save_holds
    intro _
    apply Ensures.seq (.onlyIf (ensures_settleLockIntent rfl rfl))
    apply Ensures.bind (ensures_cancelLockIntent rfl rfl rfl)
    intro _
    exact ensures_retirePending
  · exact .failed

lemma ensures_settlePending (hi : p.pending = some i) : Ends path p (settlePending path p i) := by
  unfold settlePending
  split
  · split
    · apply Ensures.seq (ensures_put (fun _ h => h.2.atStage_past hi rfl))
      apply Ensures.bind ensures_save_holds
      intro _
      apply Ensures.seq (ensures_settleLockIntent rfl rfl)
      exact ensures_retirePending
    · exact .failed
  · exact .failed

lemma ensures_unresolved (hi : p.pending = some i) : Ends path p (unresolved path p i cause) := by
  unfold unresolved
  split
  · exact ensures_settlePending hi
  · exact .failed

lemma ensures_activate : Ends path p (activate cfg path p token) := by
  apply Ensures.bind ensures_nowUTC
  intro now
  -- The passport before the confirmation has to fit too: it is put back when the save fails.
  apply Ensures.seq (Q := Holds path p)
    (.update (fun m h => ⟨h.1.put (fits_of_pending_none rfl), h.2⟩))
  apply Ensures.bind (ensures_try_save (fun _ w h => h.saved w))
  intro result
  cases result with
  | error e =>
    apply Ensures.seq (ensures_put (fun _ h => h.2))
    exact .failed
  | ok _ =>
    apply Ensures.bind (Q := fun _ => Sound) (.ask (fun _ h => h.1) (fun _ _ h => h.1))
    intro chmod
    split
    · exact .failed
    · exact .done

section

variable (hi : p.pending = some i)
include hi

lemma ensures_conclude : Ends path p (conclude cfg path p i lock) := by
  cases lock with
  | none => exact ensures_unresolved hi
  | some lock =>
    simp only [conclude]
    split
    · exact ensures_unresolved hi
    · apply Ensures.bind ensures_try_checkLive
      intro live
      cases live with
      | error e => exact ensures_unresolved hi
      | ok _ => exact ensures_activate

lemma ensures_confirmLockIntent : Ends path p (confirmLockIntent cfg path p i) := by
  apply Ensures.seq (ensures_record hi rfl rfl (.inl rfl))
  apply Ensures.bind .asked
  intro a
  split
  · exact ensures_conclude hi
  · exact ensures_unresolved hi

lemma ensures_reconcileCompleted : Ends path p (reconcileCompleted cfg path p i) := by
  apply Ensures.seq (ensures_record hi rfl rfl (.inl rfl))
  apply Ensures.bind .asked
  intro a
  split
  · split
    · exact ensures_retirePending
    · exact ensures_conclude hi
  · exact ensures_unresolved hi

lemma ensures_checkCompleted {acquired : Option Lock} : Ends path p (checkCompleted cfg path p i acquired) := by
  apply Ensures.seq ensures_save_holds
  apply Ensures.bind .asked
  intro a
  split
  · exact ensures_conclude hi
  · exact ensures_reconcileCompleted hi

lemma ensures_acquireLockIntent :
    Ensures (Ready path p i) (acquireLockIntent cfg path p i) (fun _ => Sound) Sound := by
  apply Ensures.seq (Q := Holds path p) (.update (fun m h => h.acquired))
  apply Ensures.bind .asked
  intro a
  split
  · apply Ensures.seq (ensures_put (fun _ h => h.2.atStage_past hi rfl))
    exact ensures_checkCompleted rfl
  · exact .failed

end

structure Marked (path : Path) (p : Passport) (i : LockIntent) (m : Manager) : Prop where
  sound : Sound m
  issued : m.issued[i.id]? = some path
  fresh : ¬ Committed m i.id
  memory : m.passports.lookup path = some p

lemma Marked.ready (h : Marked path p i m) (hi : p.pending = some i) (hs : i.stage = .locking) :
    Ready path p i (saved .done m) :=
  ⟨h.sound.saved .done, hi, hs, h.issued, h.fresh, h.memory, rfl, rfl⟩

lemma Holds.marked {stage : Stage} (h : Holds path p m) (hi : p.pending = some i) (hs : i.stage.past = false) :
    Marked path (p.atStage i stage) { i with stage := stage }
      { m with passports := m.passports.insert path (p.atStage i stage) } :=
  ⟨h.1.put (h.2.atStage hi hs), (h.2 i hi).1, h.2.not_committed (i := i) hi hs, AList.lookup_insert _⟩

lemma ensures_lockPending (hi : p.pending = some i) (hs : i.stage.past = false) : Ends path p (lockPending cfg path p i) := by
  apply Ensures.seq (Q := Marked path (p.atStage i .locking) { i with stage := .locking })
    (.update (fun m h => h.marked hi hs))
  apply Ensures.bind (Q := fun _ => Ready path (p.atStage i .locking) { i with stage := .locking })
    (ensures_saveLocked (fun _ h => h.sound) (fun _ h => h.ready rfl rfl) (fun _ w h => h.sound.saved w))
  intro _
  apply Ensures.seq ensures_checkLive
  exact ensures_acquireLockIntent rfl

lemma ensures_preparePending (hi : p.pending = some i) (hs : i.stage.past = false) : Ends path p (preparePending cfg path p i) := by
  apply Ensures.seq ensures_save_holds
  apply Ensures.bind (ensures_record hi rfl rfl (.inr hs))
  intro _
  apply Ensures.bind .asked
  intro a
  split
  · apply Ensures.seq ensures_ctxErr
    apply Ensures.bind ensures_try_checkLive
    intro live
    cases live with
    | error e => exact ensures_cancelPending hi
    | ok _ => exact ensures_lockPending hi hs
  · split
    · exact ensures_retirePending
    · exact .failed

lemma ensures_advancePending (hi : p.pending = some i) : Ends path p (advancePending cfg path p i) := by
  unfold advancePending
  split
  · rename_i hstage
    apply Ensures.seq ensures_checkLive
    exact ensures_preparePending hi (by rw [hstage]; rfl)
  · apply Ensures.seq (.onlyIf ensures_checkLive)
    exact ensures_confirmLockIntent hi
  · exact ensures_checkCompleted hi
  · exact ensures_cancelPending hi
  · exact ensures_settlePending hi

lemma ensures_resumePending : Ends path p (resumePending cfg path p) := by
  unfold resumePending
  split
  · exact .failed
  · rename_i i hi
    apply Ensures.seq ensures_validate
    apply Ensures.bind ensures_ctxErr
    intro _
    split
    · exact ensures_settlePending hi
    · apply Ensures.bind ensures_nowUTC
      intro now
      split
      · exact ensures_cancelPending hi
      · exact ensures_advancePending hi

abbrev Keeps {α : Type} (prog : M α) : Prop := Ensures Sound prog (fun _ => Sound) Sound

variable {md : Metadata} {mode : Mode} {realmID : Str} {now : ℕ}

lemma keeps_beginPending {closeAfter : Option ℕ} : Keeps (beginPending cfg path md mode closeAfter) := by
  apply Ensures.bind (Q := fun m s => Sound s ∧ s.issued.length = m.issued.length) (.read (fun s h => ⟨h, rfl⟩))
  intro m
  apply Ensures.seq ensures_validate
  apply Ensures.bind (Q := fun _ => Holds path (pendingPassport (newLockIntent cfg m.issued.length md mode) closeAfter))
    (.update (fun s h => h.1.issue rfl h.2.symm))
  intro _
  exact ensures_resumePending

lemma keeps_try_save : Keeps (attempt saveLocked) := ensures_try_save (fun _ w h => h.saved w)

lemma keeps_rollback {α : Type} : Keeps (rollback cause : M α) := by
  apply Ensures.seq keeps_try_save
  exact .failed

def Found (path : Path) : Option Passport → Manager → Prop
  | none, m => Sound m
  | some p, m => Holds path p m

lemma Found.sound {found : Option Passport} (h : Found path found m) : Sound m := by
  cases found with
  | none => exact h
  | some p => exact h.1

lemma ensures_lookup : Ensures Sound (lookup path) (Found path) Sound := by
  apply Ensures.bind (Q := fun m s => Sound s ∧ s = m) (.read (fun s h => ⟨h, rfl⟩))
  intro m
  apply Ensures.pure
  rintro s ⟨hs, rfl⟩
  cases hl : s.passports.lookup path with
  | none => exact hs
  | some p => exact ⟨hs, hs.memory path p hl⟩

lemma keeps_found {absent : M Unit} {held : Passport → M Unit} (ha : Keeps absent) (hh : ∀ p, Ends path p (held p)) :
    Keeps (do match ← lookup path with
      | none => absent
      | some p => held p) := by
  apply Ensures.bind ensures_lookup
  intro found
  cases found with
  | none => exact ha
  | some p => exact hh p

lemma keeps_acquireFresh : Keeps (acquireFresh cfg path realmID token now mode) := by
  apply Ensures.bind .asked
  intro a
  apply Ensures.seq keeps_beginPending
  exact .done

lemma keeps_acquireHeld {lock : Lock} : Keeps (acquireHeld cfg path realmID now lock md) := by
  apply Ensures.bind .asked
  intro a
  split
  · exact keeps_rollback
  · split
    · exact keeps_rollback
    · exact keeps_acquireFresh

lemma keeps_acquireInspected : Keeps (acquireInspected cfg path realmID now lock) := by
  unfold acquireInspected
  split
  · exact keeps_acquireFresh
  · split
    · exact keeps_rollback
    · apply Ensures.bind ensures_lookup
      intro found
      split
      · exact .pure (fun _ h => h.sound)
      · exact keeps_acquireHeld.pre (fun _ h => h.sound)

lemma keeps_acquireUnheld : Keeps (acquireUnheld cfg path realmID now) := by
  apply Ensures.bind (Q := fun _ => Sound) (.attempt ensures_inspect (fun _ _ h => h))
  intro result
  cases result with
  | error e => exact keeps_rollback
  | ok lock => exact keeps_acquireInspected

lemma keeps_acquirePath : Keeps (acquirePath cfg realmID now path) := by
  refine keeps_found keeps_acquireUnheld (fun p => ?_)
  split
  · exact .failed
  · split
    · exact .failed
    · apply Ensures.seq ensures_resumePending
      exact .done
  · exact keeps_acquireUnheld.pre (fun _ h => h.1)

lemma keeps_acquire {paths : List Path} : Keeps (acquire cfg paths realmID) := by
  unfold acquire
  split
  · exact .failed
  · apply Ensures.bind ensures_nowUTC
    intro now
    apply Ensures.seq (.each (fun path _ => keeps_acquirePath))
    apply Ensures.bind keeps_try_save
    intro result
    cases result with
    | error e => exact keeps_rollback
    | ok _ => exact .done

lemma keeps_forget : Ends path p (forget path p) := by
  apply Ensures.seq ensures_ctxErr
  apply Ensures.bind (Q := fun _ => Holds path p) (.update (fun m h => ⟨h.1.delete, h.2⟩))
  intro _
  apply Ensures.bind (ensures_try_save (fun _ w h => h.saved w))
  intro result
  cases result with
  | error e =>
    apply Ensures.seq (ensures_put (fun _ h => h.2))
    exact .failed
  | ok _ => exact .pure (fun _ h => h.1)

lemma keeps_put_same (hq : q.pending = p.pending) : Ends path p (put path q) :=
  .update (fun m h => h.1.put (h.2.of_pending hq))

lemma keeps_unlockOwned : Ends path p (unlockOwned path p) := by
  apply Ensures.bind ensures_inspect
  intro current
  split
  · apply Ensures.bind .asked
    intro a
    split
    · exact keeps_forget
    · exact .failed
  · apply Ensures.seq (keeps_put_same (p := p) (by rfl))
    apply Ensures.bind keeps_try_save
    intro _
    exact .failed

lemma keeps_releaseToken : Ends path p (releaseToken path p) := by
  apply Ensures.seq ensures_save_holds
  apply Ensures.bind .asked
  intro a
  split
  · apply Ensures.seq ensures_ctxErr
    split
    · exact keeps_unlockOwned
    · split
      · exact keeps_forget
      · exact .failed
  · exact .failed

lemma pending_releasing : p.releasing.pending = p.pending := by
  unfold Passport.releasing
  split <;> rfl

lemma keeps_releaseWithReceipt : Ends path p (releaseWithReceipt path p) := by
  apply Ensures.seq (ensures_put (fun _ h => h.2.of_pending pending_releasing))
  exact keeps_releaseToken

lemma keeps_releasePath : Keeps (releasePath path) := by
  refine keeps_found .failed (fun p => ?_)
  split
  · exact .failed
  · exact keeps_releaseWithReceipt
  · exact keeps_releaseWithReceipt
  · exact .failed

lemma keeps_release {paths : List Path} : Keeps (release paths) := by
  apply Ensures.seq (.each (fun path _ => keeps_releasePath))
  exact ensures_save (fun _ w h => h.saved w)

variable {f : Path → M Unit}

lemma keeps_collect (hf : ∀ path, Keeps (f path)) (order : List Path) (first : Option Refusal) :
    Keeps (collect f order first) := by
  induction order generalizing first with
  | nil => exact .done
  | cons path order ih =>
    apply Ensures.bind (Q := fun _ => Sound) (.attempt (hf path) (fun _ _ h => h))
    intro result
    exact ih _

lemma keeps_sweep (hf : ∀ path, Keeps (f path)) (order : List Path) : Keeps (sweep f order) := by
  apply Ensures.bind (keeps_collect hf order none)
  intro first
  apply Ensures.bind keeps_try_save
  intro result
  split
  · exact .done
  · exact .failed

variable {paths : List Path}

lemma keeps_heartbeatActive : Ends path p (heartbeatActive cfg now path p) := by
  apply Ensures.bind ensures_inspect
  intro lock
  split
  · split
    · exact .pure (fun _ h => h.1)
    · apply Ensures.seq (keeps_beginPending.pre (fun _ h => h.1))
      exact .done
  · apply Ensures.seq (keeps_put_same (p := p) (by rfl))
    exact .failed

lemma keeps_heartbeatPath : Keeps (heartbeatPath cfg now path) := by
  refine keeps_found .done (fun p => ?_)
  split
  · exact keeps_releaseWithReceipt
  · apply Ensures.seq ensures_resumePending
    exact .done
  · split
    · exact keeps_releaseWithReceipt
    · exact keeps_heartbeatActive
  · exact .pure (fun _ h => h.1)

lemma keeps_heartbeat {order : List Path} : Keeps (heartbeat cfg order) := by
  apply Ensures.bind ensures_nowUTC
  intro now
  exact keeps_sweep (fun _ => keeps_heartbeatPath) order

lemma keeps_releaseAllPath : Keeps (releaseAllPath path) := by
  refine keeps_found .done (fun p => ?_)
  split
  · exact .failed
  · exact keeps_releaseWithReceipt
  · exact keeps_releaseWithReceipt
  · exact .pure (fun _ h => h.1)

lemma keeps_authorizePath : Keeps (authorizePath now path) := by
  refine keeps_found .failed (fun p => ?_)
  split
  · exact .failed
  · split
    · exact .failed
    · apply Ensures.bind ensures_inspect
      intro lock
      split
      · exact .pure (fun _ h => h.1)
      · apply Ensures.seq (keeps_put_same (p := p) (by rfl))
        apply Ensures.bind keeps_try_save
        intro _
        exact .failed

lemma keeps_authorize : Keeps (authorize paths) := by
  apply Ensures.bind ensures_nowUTC
  intro now
  exact .each (fun path _ => keeps_authorizePath)

variable {change : Passport → Option Passport} {touches : Passport → Bool}

lemma keeps_note (hc : ∀ p q, change p = some q → q.pending = p.pending) : Keeps (note change touches path) := by
  refine keeps_found .done (fun p => ?_)
  split
  · split
    · exact .update (fun m h => h.1.delete)
    · rename_i q hq
      exact keeps_put_same (hc p q hq)
  · exact .pure (fun _ h => h.1)

lemma keeps_noteAll (hc : ∀ p q, change p = some q → q.pending = p.pending) :
    Keeps (noteAll change touches paths) := by
  apply Ensures.bind (Q := fun _ => Sound) (.read (fun _ h => h))
  intro _
  apply Ensures.seq (.each (fun path _ => keeps_note hc))
  split
  · apply Ensures.seq keeps_try_save
    exact .done
  · exact .done

lemma keeps_prog (r : Request) : Keeps (r.prog cfg) := by
  cases r with
  | acquire paths realmID => exact keeps_acquire
  | release paths => exact keeps_release
  | heartbeat order => exact keeps_heartbeat
  | releaseAll order => exact keeps_sweep (fun _ => keeps_releaseAllPath) order
  | authorize paths => exact keeps_authorize
  | forgetRemoved paths =>
    apply keeps_noteAll
    intro p q hq
    cases hq
  | touch path =>
    apply keeps_noteAll
    intro p q hq
    cases hq
    rfl
  | markPublished paths =>
    apply Ensures.bind ensures_nowUTC
    intro now
    apply keeps_noteAll
    intro p q hq
    cases hq
    rfl

lemma Sound.serve {prog : M Unit} (h : Sound m) (hprog : Keeps prog) (script : List Answer) :
    Sound (serve prog m script) := by
  have hfinal := hprog.final h script
  unfold Passports.serve
  split
  · rename_i hr
    rw [hr] at hfinal
    exact hfinal.kill false
  · rename_i hr
    rw [hr] at hfinal
    exact hfinal

lemma Sound.step (h : Sound m) (e : Event) : Sound (step cfg m e) := by
  cases e with
  | request r script =>
    simp only [Passports.step]
    split
    · exact h.serve (keeps_prog r) script
    · exact h
  | start bound =>
    simp only [Passports.step]
    split
    · exact h
    · exact h.start
  | kill power => exact h.kill power

lemma sound_run (cfg : Config) (es : List Event) : Sound (run (step cfg) Manager.empty es) :=
  run_invariant (step cfg) (fun _ e h => h.step e) sound_empty es

lemma Sound.later (h : Sound m) {before after : List Entry} {e f : Entry} (ht : m.trace = before ++ e :: after)
    (hf : f ∈ after) : e.Before f := by
  have hp := h.ordered
  rw [ht] at hp
  exact (List.pairwise_cons.mp (List.pairwise_append.mp hp).2.1).1 f hf

/-- The lock of an intent is asked for at most once, durably in `locking`, and later calls only inspect or resolve
it, also after a restart, as long as no loss of power takes the store back. -/
theorem acquisition_at_most_once (cfg : Config) (es : List Event) :
    (∀ e before after, (run (step cfg) Manager.empty es).trace = before ++ e :: after → e.call = .acquire →
      e.durable = some .locking ∧ ∀ f ∈ after, f.id = e.id → f.call ≠ .acquire ∧ f.call.resolves = true) ∧
    (∀ e before after, (run (step cfg) Manager.empty es).trace = before ++ e :: after → e.call = .found →
      ∀ f ∈ after, f.id = e.id → f.epoch = e.epoch → f.call ≠ .acquire ∧ f.call.resolves = true) := by
  have hs := sound_run cfg es
  have hne : ∀ c : Call, c.resolves = true → c ≠ .acquire := by
    rintro c hc rfl
    cases hc
  constructor
  · intro e before after ht hcall
    refine ⟨hs.durable e (by simp [ht]) hcall, ?_⟩
    intro f hf hid
    have hres := hs.later ht hf hid.symm (.inl hcall)
    exact ⟨hne _ hres, hres⟩
  · intro e before after ht hcall f hf hid hepoch
    have hres := hs.later ht hf hid.symm (.inr ⟨hcall, hepoch.symm⟩)
    exact ⟨hne _ hres, hres⟩

def calm : Answer := ⟨true, 1, .done, true, false, false, false, false, none, none, ['p']⟩

def fenced : Config := ⟨10, 2, 10, 1, ['u'], true, true⟩

def revertedRun : List Event :=
  [.start true, .request (.acquire [['/', 'a']] ['r']) (List.replicate 14 calm ++ [{ calm with save := .unsynced }]),
    .kill false, .start true, .kill true, .start true, .request (.heartbeat [['/', 'a']]) (List.replicate 14 calm)]

theorem found_locking_acquired_after_power_loss :
    (run (step fenced) Manager.empty revertedRun).trace.map (fun e => (e.call, e.id, e.durable)) =
      [(.prepare, 0, some .prepare), (.found, 0, some .prepare), (.prepare, 0, some .prepare),
        (.acquire, 0, some .locking)] := by
  decide +kernel

theorem acquisition_at_most_once_when_reverted :
    ((run (step fenced) Manager.empty revertedRun).trace.map Entry.call).getLast? = some .acquire ∧
      ∃ e ∈ (run (step fenced) Manager.empty revertedRun).trace, e.call = .acquire ∧ e.durable = some .locking := by
  refine ⟨by decide +kernel, ?_⟩
  have hlast : ∃ e ∈ (run (step fenced) Manager.empty revertedRun).trace, e.call = .acquire := by decide +kernel
  obtain ⟨e, he, hcall⟩ := hlast
  obtain ⟨before, after, ht⟩ := List.append_of_mem he
  exact ⟨e, he, hcall, ((acquisition_at_most_once fenced revertedRun).1 e before after ht hcall).1⟩

end FileES.Passports
