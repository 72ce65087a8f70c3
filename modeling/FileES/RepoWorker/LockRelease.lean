import FileES.Go.Path
import FileES.Go.UUID
import FileES.Lib.Calls
import FileES.Lib.Fallible
import FileES.Lib.Ledger
import FileES.Lib.Runs

/-! The store of lock release requests: one file for each repository, lock token and requester, with lazy expiry. -/

namespace FileES.LockRelease

open Go Lib Lib.Calls Lib.Durable Lib.Effects Lib.Fallible Lib.Maps Lib.Runs List Option

inductive State
  | pending
  | dismissed
  | accepted
  | lockGone
  | expired
  | stale
  deriving DecidableEq, Repr

structure Key where
  (repoID token requester : Str)
  deriving DecidableEq, Repr

structure Request where
  (repoID path observedLockID requesterClientID requesterRealmID holderClientID holderRealmID : Str)
  deriving DecidableEq, Repr

def Request.key (i : Request) : Key := ⟨i.repoID, i.observedLockID, i.requesterClientID⟩

structure Record extends Request where
  requestID : Str
  state : State
  (createdAt updatedAt expiresAt : ℕ)
  deriving DecidableEq, Repr

structure Observation where
  (observedLockID holderClientID holderRealmID : Str)
  deriving DecidableEq, Repr

inductive Err
  | text (message : Str)
  | notFound
  | forbidden
  | terminal
  | invalidState
  | system
  deriving DecidableEq, Repr

def validateUUID (field : String) (value : Str) : Except Err Unit :=
  require (isUUID value) (.text ("lock release " ++ field ++ " must be UUID").toList)

def validateHolderRealm (value : Str) : Except Err Unit :=
  if value = [] then .ok () else validateUUID "holder realm ID" value

def validatePath (value : Str) : Except Err Unit :=
  require (value ≠ [] && byteLen value ≤ 4096 && value = trimSpace value && !hasPrefix value ['/'] &&
      !containsAny value ['\\', Char.ofNat 0, '\r', '\n'] && clean value = value && value ≠ ['.'] &&
      !hasPrefix value ['.', '.', '/'])
    (.text "lock release path must be canonical and repository-relative")

def validateObservedLockID (value : Str) : Except Err Unit :=
  require (value ≠ [] && byteLen value ≤ 2048 && value = trimSpace value && !containsAny value [Char.ofNat 0, '\r', '\n'])
    (.text "lock release observed lock ID is invalid")

def validateRequest (i : Request) : Except Err Unit := do
  validateUUID "repository ID" i.repoID
  validateUUID "requester client ID" i.requesterClientID
  validateUUID "requester realm ID" i.requesterRealmID
  validateUUID "holder client ID" i.holderClientID
  validateHolderRealm i.holderRealmID
  require (i.requesterClientID ≠ i.holderClientID) (.text "lock release requester cannot be the holder")
  validatePath i.path
  validateObservedLockID i.observedLockID

def Record.validate (r : Record) : Except Err Unit := do
  validateUUID "request ID" r.requestID
  validateRequest r.toRequest
  require (r.createdAt ≠ 0 && r.createdAt ≤ r.updatedAt && r.createdAt < r.expiresAt)
    (.text "invalid lock release request timestamps")

def validateHolderObservation (o : Observation) (requesterClientID : Str) : Except Err Unit := do
  validateObservedLockID o.observedLockID
  validateUUID "holder client ID" o.holderClientID
  validateHolderRealm o.holderRealmID
  require (o.holderClientID ≠ requesterClientID) (.text "lock release requester cannot become the holder")

abbrev Files := Map Key Record

abbrev M := Prog Files Write Err

structure Clock where
  (check stamp : ℕ)

def savePath (k : Key) (r : Record) : M Unit := do
  ofExcept r.validate
  save (fun m => m.insert k r) .system

def expirePending (c : Clock) (k : Key) (r : Record) : M Record :=
  if r.state ≠ .pending ∨ c.check < r.expiresAt then pure r
  else do
    savePath k { r with state := .expired, updatedAt := c.stamp }
    pure { r with state := .expired, updatedAt := c.stamp }

def matching (m : Files) (id : Str) : List (Sigma fun _ : Key => Record) :=
  m.entries.filter (fun e => e.2.requestID = id)

def find (id : Str) : M (Sigma fun _ : Key => Record) := do
  ofExcept (validateUUID "request ID" id)
  command .system
  let m ← read
  match matching m id with
  | [] => fail .notFound
  | [e] => pure e
  | _ => fail (.text "duplicate lock release request ID")

def State.final (x : State) : Bool := x = .accepted || x = .lockGone || x = .stale

def create (ttl : ℕ) (input : Request) (now : ℕ) (fresh : Str) : M (Record × Bool) := do
  let r : Record := ⟨input, fresh, .pending, now, now, now + ttl⟩
  savePath input.key r
  pure (r, true)

def request (ttl : ℕ) (input : Request) (now : ℕ) (fresh : Str) : M (Record × Bool) := do
  command .system
  ofExcept (validateRequest input)
  command .system
  let m ← read
  match m.lookup input.key with
  | none => create ttl input now fresh
  | some current =>
    if current.key ≠ input.key then fail (.text "lock release request key conflicts with stored record")
    else if current.state.final ∨ now < current.expiresAt then pure (current, false)
    else create ttl input now fresh

def get (id : Str) (c : Clock) : M Record := do
  command .system
  let e ← find id
  expirePending c e.1 e.2

def precedes (r r' : Record) : Bool :=
  if r.createdAt = r'.createdAt then r.requestID ≤ r'.requestID else r.createdAt < r'.createdAt

def visit (clientID : Str) (clock : Key → Clock) (seen : List Record) (k : Key) : M (List Record) := do
  command .system
  let m ← read
  let r ← ofExcept (present (m.lookup k) .system)
  let r ← expirePending (clock k) k r
  pure (if r.requesterClientID = clientID ∨ r.holderClientID = clientID then seen ++ [r] else seen)

def listForClient (clientID : Str) (clock : Key → Clock) : M (List Record) := do
  command .system
  ofExcept (validateUUID "client ID" clientID)
  command .system
  let m ← read
  let records ← m.keys.foldlM (visit clientID clock) []
  pure (records.mergeSort precedes)

def respond (id holderClientID : Str) (next : State) (c : Clock) : M Record := do
  command .system
  ofExcept (validateUUID "holder client ID" holderClientID)
  ofExcept (require (next = .accepted || next = .dismissed) .invalidState)
  let e ← find id
  let r ← expirePending c e.1 e.2
  ofExcept (require (r.holderClientID = holderClientID) .forbidden)
  ofExcept (require (r.state = .pending) .terminal)
  savePath e.1 { r with state := next, updatedAt := c.stamp }
  pure { r with state := next, updatedAt := c.stamp }

def observed (stamp : ℕ) (r : Record) : Option Observation → Except Err (Option Record)
  | none => .ok (some { r with state := .lockGone, updatedAt := stamp })
  | some o => do
    validateObservedLockID o.observedLockID
    if o.observedLockID ≠ r.observedLockID then pure (some { r with state := .stale, updatedAt := stamp })
    else do
      validateHolderObservation o r.requesterClientID
      if r.holderClientID = o.holderClientID ∧ r.holderRealmID = o.holderRealmID then pure none
      else pure (some { r with holderClientID := o.holderClientID, holderRealmID := o.holderRealmID, updatedAt := stamp })

def reconcile (id : Str) (o : Option Observation) (c : Clock) : M Record := do
  command .system
  let e ← find id
  let r ← expirePending c e.1 e.2
  ofExcept (require (r.state = .pending) .terminal)
  match ← ofExcept (observed c.stamp r o) with
  | none => pure r
  | some r' => do
    savePath e.1 r'
    pure r'

inductive Op
  | request (input : Request) (now : ℕ) (fresh : Str)
  | get (id : Str) (c : Clock)
  | listForClient (clientID : Str) (clock : Key → Clock)
  | respond (id holderClientID : Str) (next : State) (c : Clock)
  | reconcile (id : Str) (o : Option Observation) (c : Clock)

def step (ttl : ℕ) (m : Files) (call : Op × List Write) : Files :=
  match call.1 with
  | .request input now fresh => (request ttl input now fresh m call.2).2.1
  | .get id c => (get id c m call.2).2.1
  | .listForClient clientID clock => (listForClient clientID clock m call.2).2.1
  | .respond id holder next c => (respond id holder next c m call.2).2.1
  | .reconcile id o c => (reconcile id o c m call.2).2.1

inductive Move (ttl : ℕ) : Op → Option Record → Record → Prop
  | create {input now fresh o} (h : ∀ r, o = some r → r.state.final = false ∧ r.expiresAt ≤ now) :
      Move ttl (.request input now fresh) o ⟨input, fresh, .pending, now, now, now + ttl⟩
  | expire {op} {r : Record} {stamp} (h : r.state = .pending) :
      Move ttl op (some r) { r with state := .expired, updatedAt := stamp }
  | respond {r : Record} {next c} (h : r.state = .pending) (hc : c.check < r.expiresAt) :
      Move ttl (.respond r.requestID r.holderClientID next c) (some r) { r with state := next, updatedAt := c.stamp }
  | reconcile {id o c} {r r' : Record} (h : r.state = .pending) (ha : r'.state ≠ .accepted) :
      Move ttl (.reconcile id o c) (some r) r'

def Stored (k : Key) (r : Record) : Prop := r.key = k ∧ r.validate = .ok ()

abbrev Changes (ttl : ℕ) (op : Op) : Files → Files → Prop := Ledger.Changes Stored (Move ttl op)

abbrev Inv : Files → Prop := Ledger.Holds Stored

variable {ttl : ℕ} {op : Op} {m₀ m : Files} {k : Key} {r : Record} {c : Clock} {id : Str} {P : Files → Prop}

lemma inv_empty : Inv (∅ : Files) := fun k r h => by simp at h

lemma Changes.of_eq (h : Inv m₀) : ∀ m, m = m₀ → Changes ttl op m₀ m := by
  rintro m rfl
  exact .refl h

abbrev Makes {α : Type} (ttl : ℕ) (op : Op) (m₀ : Files) (x : M α) : Prop :=
  Ensures (fun m => m = m₀) x (fun _ => Changes ttl op m₀) (Changes ttl op m₀)

lemma ensures_savePath (hP : ∀ m, P m → Changes ttl op m₀ m) (hk : r.key = k) (hm : Move ttl op (m₀.lookup k) r) :
    Ensures P (savePath k r) (fun _ => Changes ttl op m₀) (Changes ttl op m₀) := by
  refine .except hP (fun _ hv => ?_)
  exact .save hP (fun m h => (hP m h).insert ⟨hk, hv⟩ hm) (fun m h => (hP m h).insert ⟨hk, hv⟩ hm)

lemma ensures_expirePending (hP : ∀ m, P m → Changes ttl op m₀ m) (hk : r.key = k)
    (hr : r.state = .pending → m₀.lookup k = some r) :
    Ensures P (expirePending c k r) (fun r' m => Changes ttl op m₀ m ∧
      (r'.state = .pending → P m ∧ r' = r ∧ c.check < r.expiresAt)) (Changes ttl op m₀) := by
  rw [expirePending]
  split
  case isTrue h => exact .pure (fun m hm => ⟨hP m hm, fun hs => ⟨hm, rfl, h.resolve_left (by simp [hs])⟩⟩)
  case isFalse h =>
    have hs : r.state = .pending := by
      by_contra hs
      exact h (.inl hs)
    refine .seq (ensures_savePath hP hk ?_) (.pure (fun m hm => ⟨hm, fun h => (by cases h)⟩))
    rw [hr hs]
    exact .expire hs

lemma ensures_find (hi : Inv m₀) : Ensures (· = m₀) (find id)
      (fun e m => m = m₀ ∧ m₀.lookup e.1 = some e.2 ∧ e.2.requestID = id) (Changes ttl op m₀) := by
  have hR : ∀ m, m = m₀ → Changes ttl op m₀ m := .of_eq hi
  refine .except hR (fun _ _ => .seq (.command hR) (.read_at ?_))
  split
  · exact .fail hR
  · rename_i e he
    have hmem : e ∈ matching m₀ id := by simp [he]
    obtain ⟨hin, hid⟩ := mem_filter.mp hmem
    exact .pure (fun m hm => ⟨hm, mem_entries_iff.mp hin, of_decide_eq_true hid⟩)
  · exact .fail hR

variable {input : Request} {now : ℕ} {fresh clientID : Str} {clock : Key → Clock} {o : Option Record} {r' : Record}

lemma ensures_create (hi : Inv m₀)
    (h : ∀ r, m₀.lookup input.key = some r → r.state.final = false ∧ r.expiresAt ≤ now) :
    Makes ttl (.request input now fresh) m₀ (create ttl input now fresh) :=
  .seq (ensures_savePath (.of_eq hi) rfl (.create h)) .done

lemma ensures_request (hi : Inv m₀) : Makes ttl (.request input now fresh) m₀ (request ttl input now fresh) := by
  have hR : ∀ m, m = m₀ → Changes ttl (.request input now fresh) m₀ m := .of_eq hi
  refine .seq (.command hR) (.except hR (fun _ _ => ?_))
  refine .seq (.command hR) (.read_at ?_)
  split
  · rename_i hn
    refine ensures_create hi (fun r hr => ?_)
    rw [hn] at hr
    cases hr
  · rename_i r hr
    split
    · exact .fail hR
    · split
      · exact .pure hR
      · rename_i hopen
        refine ensures_create hi (fun r' hr' => ?_)
        obtain rfl := mem_unique hr hr'
        exact ⟨by simpa using fun h => hopen (.inl h), not_lt.mp (fun h => hopen (.inr h))⟩

lemma ensures_get (hi : Inv m₀) : Makes ttl op m₀ (get id c) := by
  have hR : ∀ m, m = m₀ → Changes ttl op m₀ m := .of_eq hi
  refine .seq (.command hR) (.bind (ensures_find hi) (fun e => .fix ?_))
  rintro m ⟨rfl, he, -⟩
  exact (ensures_expirePending hR ((hi _ _ he).1) (fun _ => he)).post (fun _ _ h => h.1)

lemma Move.list_expired (h : Move ttl (.listForClient clientID clock) o r) : r.state = .expired := by
  cases h
  rfl

lemma ensures_visit {seen : List Record} :
    Ensures (Changes ttl (.listForClient clientID clock) m₀) (visit clientID clock seen k)
      (fun _ => Changes ttl (.listForClient clientID clock) m₀) (Changes ttl (.listForClient clientID clock) m₀) := by
  refine .seq (.command (fun _ h => h)) (.read_bind (fun m => ?_))
  refine .except (fun _ h => h.1) (fun r hr => .fix ?_)
  rintro m' ⟨hch, rfl⟩
  have hlook : m'.lookup k = some r := present_eq_ok.mp hr
  have hfirst : r.state = .pending → m₀.lookup k = some r := fun hs =>
    hch.untouched hlook (fun _ hm => State.noConfusion (hs.symm.trans hm.list_expired))
  refine .bind ((ensures_expirePending (P := fun m => m = m') (fun m hm => hm ▸ hch) ((hch.inv _ _ hlook).1)
    hfirst).post (fun _ _ h => h.1)) (fun _ => .done)

lemma ensures_listForClient (hi : Inv m₀) :
    Makes ttl (.listForClient clientID clock) m₀ (listForClient clientID clock) := by
  have hR : ∀ m, m = m₀ → Changes ttl (.listForClient clientID clock) m₀ m := .of_eq hi
  refine Ensures.bind (Ensures.command hR) (fun _ => Ensures.except hR (fun _ _ => ?_))
  refine .seq (.command hR) (.read_at ?_)
  have hfold := Ensures.foldlM (l := m₀.keys) (J := fun _ _ => Changes ttl (.listForClient clientID clock) m₀)
    (fun _ k _ _ seen => (ensures_visit : Ensures _ (visit clientID clock seen k) _ _)) []
  exact .bind (hfold.pre hR) (fun _ => .done)

lemma ensures_respond {holder : Str} {next : State} (hi : Inv m₀) :
    Makes ttl (.respond id holder next c) m₀ (respond id holder next c) := by
  have hR : ∀ m, m = m₀ → Changes ttl (.respond id holder next c) m₀ m := .of_eq hi
  refine .seq (.command hR) (.except hR (fun _ _ => ?_))
  refine .except hR (fun _ _ => .bind (ensures_find hi) (fun e => .fix ?_))
  rintro m ⟨rfl, he, rfl⟩
  refine .bind (ensures_expirePending hR ((hi _ _ he).1) (fun _ => he)) (fun r => ?_)
  refine .except (fun _ h => h.1) (fun _ hh => .except (fun _ h => h.1) (fun _ hs => ?_))
  refine .fix (fun m' hm' => ?_)
  obtain ⟨rfl, rfl, hc⟩ := hm'.2 (of_decide_eq_true (require_ok.mp hs))
  obtain rfl : e.2.holderClientID = holder := of_decide_eq_true (require_ok.mp hh)
  have hk : ({ e.2 with state := next, updatedAt := c.stamp } : Record).key = e.1 := (hi e.1 e.2 he).1
  refine .seq (ensures_savePath hR hk ?_) .done
  rw [he]
  exact .respond (of_decide_eq_true (require_ok.mp hs)) hc

lemma observed_eq_ok {stamp : ℕ} {o : Option Observation} (hs : r.state = .pending)
    (h : observed stamp r o = .ok (some r')) : r'.key = r.key ∧ r'.state ≠ .accepted := by
  cases o with
  | none =>
    obtain rfl : _ = r' := some.inj (Except.ok.inj h)
    exact ⟨rfl, fun h => (by cases h)⟩
  | some o =>
    rw [observed, bind_ok] at h
    obtain ⟨_, -, h⟩ := h
    split at h
    · obtain rfl : _ = r' := some.inj (Except.ok.inj h)
      exact ⟨rfl, fun h => (by cases h)⟩
    · obtain ⟨_, -, h⟩ := bind_ok.mp h
      split at h
      · cases h
      · obtain rfl : _ = r' := some.inj (Except.ok.inj h)
        exact ⟨rfl, by simp [hs]⟩

lemma ensures_reconcile {o : Option Observation} (hi : Inv m₀) :
    Makes ttl (.reconcile id o c) m₀ (reconcile id o c) := by
  have hR : ∀ m, m = m₀ → Changes ttl (.reconcile id o c) m₀ m := .of_eq hi
  refine .seq (.command hR) (.bind (ensures_find hi) (fun e => .fix ?_))
  rintro m ⟨rfl, he, -⟩
  refine .bind (ensures_expirePending hR ((hi _ _ he).1) (fun _ => he)) (fun r => ?_)
  refine .except (fun _ h => h.1) (fun _ hs => .except (fun _ h => h.1) (fun next hn => ?_))
  have hs' : r.state = .pending := of_decide_eq_true (require_ok.mp hs)
  refine .fix (fun m' hm' => ?_)
  obtain ⟨rfl, rfl, -⟩ := hm'.2 hs'
  cases next with
  | none => exact .pure hR
  | some r' =>
    obtain ⟨hk, ha⟩ := observed_eq_ok hs' hn
    refine .seq (ensures_savePath hR (hk.trans ((hi _ _ he).1)) ?_) .done
    rw [he]
    exact .reconcile hs' ha

lemma Changes.step (hi : Inv m) (op : Op) (script : List Write) : Changes ttl op m (step ttl m (op, script)) := by
  cases op with
  | request input now fresh => exact (ensures_request hi).final rfl script
  | get id c => exact (ensures_get hi).final rfl script
  | listForClient clientID clock => exact (ensures_listForClient hi).final rfl script
  | respond id holder next c => exact (ensures_respond hi).final rfl script
  | reconcile id o c => exact (ensures_reconcile hi).final rfl script

lemma inv_run (calls : List (Op × List Write)) : Inv (run (step ttl) ∅ calls) :=
  run_invariant (step ttl) (I := Inv) (fun _ call hi => (Changes.step hi call.1 call.2).inv) inv_empty calls

lemma requester_ne_holder (h : r.validate = .ok ()) : r.requesterClientID ≠ r.holderClientID := by
  simp only [Record.validate, validateRequest, bind_ok] at h
  obtain ⟨_, -, _, ⟨_, -, _, -, _, -, _, -, _, -, _, hne, -⟩, -⟩ := h
  exact of_decide_eq_true (require_ok.mp hne)

lemma Move.of_terminal (h : Move ttl op o r') (ho : o = some r) (hs : r.state ≠ .pending) :
    (r.state = .dismissed ∨ r.state = .expired) ∧ r'.state = .pending ∧
      ∃ input now, op = .request input now r'.requestID ∧ r.expiresAt ≤ now := by
  cases h with
  | create h =>
    obtain ⟨hf, he⟩ := h r ho
    refine ⟨?_, rfl, _, _, rfl, he⟩
    cases hst : r.state with
    | pending => exact absurd hst hs
    | dismissed => exact .inl rfl
    | expired => exact .inr rfl
    | accepted => simp [hst, State.final] at hf
    | lockGone => simp [hst, State.final] at hf
    | stale => simp [hst, State.final] at hf
  | expire h => exact absurd (some.inj ho ▸ h) hs
  | respond h => exact absurd (some.inj ho ▸ h) hs
  | reconcile h => exact absurd (some.inj ho ▸ h) hs

lemma Move.accepted (h : Move ttl op o r) (hs : r.state = .accepted) :
    ∃ old c, o = some old ∧ old.state = .pending ∧ op = .respond old.requestID old.holderClientID .accepted c ∧
      c.check < old.expiresAt := by
  cases h with
  | create => cases hs
  | expire => cases hs
  | respond h hc =>
    cases hs
    exact ⟨_, _, rfl, h, rfl, hc⟩
  | reconcile _ ha => exact absurd hs ha

theorem lock_release_lifecycle (ttl : ℕ) (calls : List (Op × List Write)) :
    let m := run (step ttl) ∅ calls
    (∀ k r, m.lookup k = some r → r.requesterClientID ≠ r.holderClientID) ∧
      (∀ k k' r r', m.lookup k = some r → m.lookup k' = some r' → r.repoID = r'.repoID →
        r.observedLockID = r'.observedLockID → r.requesterClientID = r'.requesterClientID → k = k') ∧
      ∀ op script,
        (∀ k r, m.lookup k = some r → r.state ≠ .pending → (step ttl m (op, script)).lookup k = some r ∨
          (r.state = .dismissed ∨ r.state = .expired) ∧ ∃ r' input now,
            (step ttl m (op, script)).lookup k = some r' ∧ r'.state = .pending ∧
              op = .request input now r'.requestID ∧ r.expiresAt ≤ now) ∧
        ∀ k r', (step ttl m (op, script)).lookup k = some r' → r'.state = .accepted → m.lookup k = some r' ∨
          ∃ r c, m.lookup k = some r ∧ r.state = .pending ∧
            op = .respond r.requestID r.holderClientID .accepted c ∧ c.check < r.expiresAt := by
  intro m
  have hi : Inv m := inv_run calls
  refine ⟨fun k r hr => requester_ne_holder ((hi k r hr).2), ?_, fun op script => ?_⟩
  · intro k k' r r' hr hr' hrepo htoken hreq
    rw [← (hi k r hr).1, ← (hi k' r' hr').1, Request.key, Request.key, hrepo, htoken, hreq]
  · have hmove := (show Changes ttl op m (step ttl m (op, script)) from .step hi op script).move
    refine ⟨fun k r hr hs => ?_, fun k r' hr' ha => ?_⟩
    · rcases hmove k with heq | ⟨r', hr', hm⟩
      · exact .inl (heq.trans hr)
      · obtain ⟨hst, hp, input, now, hop, he⟩ := hm.of_terminal hr hs
        exact .inr ⟨hst, r', input, now, hr', hp, hop, he⟩
    · rcases hmove k with heq | ⟨r, hr, hm⟩
      · exact .inl (heq ▸ hr')
      · obtain rfl := mem_unique hr hr'
        exact .inr (hm.accepted ha)

def uuidOf (c : Char) : Str :=
  List.replicate 8 c ++ "-0000-0000-0000-000000000000"

def someRequest : Request :=
  { repoID := uuidOf '1', path := "a.txt", observedLockID := "token", requesterClientID := uuidOf '2'
    requesterRealmID := uuidOf '3', holderClientID := uuidOf '4', holderRealmID := [] }

def stateOf (m : Files) : Option (Str × State) := (m.lookup someRequest.key).map (fun r => (r.requestID, r.state))

/-- A dismissed request is replaced by a pending one once its time is over. -/
theorem dismissed_replaced :
    let ok : List Write := List.replicate 8 .done
    let m := run (step 3) ∅ [(.request someRequest 1 (uuidOf '5'), ok),
      (.respond (uuidOf '5') (uuidOf '4') .dismissed ⟨2, 2⟩, ok)]
    stateOf m = some (uuidOf '5', .dismissed) ∧
      stateOf (step 3 m (.request someRequest 4 (uuidOf '6'), ok)) = some (uuidOf '6', .pending) := by
  decide +kernel

end FileES.LockRelease
