import FileES.Go.UUID
import FileES.Lib.Calls
import FileES.Lib.Fallible
import FileES.Lib.Runs

/-! The receipts of passport preparations: one file for each operation, written before and after the authority is asked. -/

namespace FileES.Preparations

open Go Lib.Calls Lib.Durable Lib.Effects Lib.Fallible Lib.Runs Option

structure Head where
  (operationID requestID : Str)
  cancels : Bool
  deriving DecidableEq, Repr

structure Session where
  (clientID realmID : Str)
  deriving DecidableEq, Repr

structure Ticket where
  (operationID requestID clientID createdAt repoID path observedLockID passportID instanceUID mode : Str)
  deriving DecidableEq, Repr

def Ticket.head (t : Ticket) : Head := ⟨t.operationID, t.requestID, false⟩

structure Cancellation where
  (operationID requestID clientID : Str)
  preparation : Ticket
  deriving DecidableEq, Repr

def Cancellation.head (c : Cancellation) : Head := ⟨c.operationID, c.requestID, true⟩

inductive Key
  | denied
  | unavailable
  | aborted
  | conflict
  | stale
  | ownerUnavailable
  deriving DecidableEq, Repr

inductive Body
  | prepared (repoID path observedLockID : Str)
  | canceled (operationID requestID : Str)
  | error (key : Key)
  deriving DecidableEq, Repr

structure Result where
  head : Head
  completedAt : ℕ
  body : Body
  deriving DecidableEq, Repr

inductive State
  | started
  | finished
  | canceled
  deriving DecidableEq, Repr

structure Record where
  digest : Str
  state : State
  (result priorResult : Option Result)
  deriving DecidableEq, Repr

structure Store where
  record : Option Record
  calls : ℕ
  deriving DecidableEq, Repr

structure Env where
  accepts : Session → Ticket → Bool
  acceptsCancellation : Session → Cancellation → Bool
  valid : Result → Bool
  rootAbs : Bool
  digest : Str → Ticket → Str

inductive Outcome
  | prepared
  | denied
  | stale
  | ownerUnavailable
  | unknown
  deriving DecidableEq, Repr

structure Answer where
  write : Write
  time : ℕ
  outcome : Outcome

instance : Answers Answer := ⟨Answer.write⟩

inductive Err
  | text (message : Str)
  | system
  deriving DecidableEq, Repr

abbrev M := Prog Store Answer Err

variable (env : Env)

variable (session : Session) (t : Ticket) (r : Record)

def checked (r : Result) : M Result := do
  ofExcept (require (env.valid r) .system)
  pure r

def preparationError (h : Head) (key : Key) : M Result := do
  let a ← ask
  checked env ⟨h, a.time, .error key⟩

def writeRecord : M Unit := save (fun s => { s with record := some r }) .system

def enter (h : Head) (allowed : Bool) : M (Option Result) :=
  if allowed = false then do
    let r ← preparationError env h .denied
    pure (some r)
  else if env.rootAbs = false then do
    let r ← preparationError env h .unavailable
    pure (some r)
  else do
    command .system
    command .system
    command .system
    command .system
    pure none

def payloadFits (r : Result) : Bool :=
  match r.body with
  | .prepared repoID path lock => repoID = t.repoID && path = t.path && lock = t.observedLockID
  | _ => true

def replay : M Result := do
  let result ← ofExcept (present r.result (.text "passport preparation receipt missing"))
  ofExcept (require (r.state ≠ .canceled ∨ result.body = .error .aborted) (.text "invalid cancellation tombstone"))
  ofExcept (require (env.valid result) .system)
  ofExcept (require (result.head = t.head) (.text "passport preparation receipt mismatch"))
  ofExcept (require (payloadFits t result) (.text "passport receipt payload mismatch"))
  pure result

def answer : M Result :=
  if r.digest ≠ env.digest session.realmID t then preparationError env t.head .conflict
  else if r.state = .started then do
    let result ← preparationError env t.head .aborted
    writeRecord { r with state := .finished, result := some result }
    pure result
  else replay env t r

def conclude : Outcome → M Result
  | .prepared => do
    let a ← ask
    checked env ⟨t.head, a.time, .prepared t.repoID t.path t.observedLockID⟩
  | .denied => preparationError env t.head .denied
  | .stale => preparationError env t.head .stale
  | .ownerUnavailable => preparationError env t.head .ownerUnavailable
  | .unknown => fail .system

def prepare : M Result := do
  writeRecord ⟨env.digest session.realmID t, .started, none, none⟩
  update (fun s => { s with calls := s.calls + 1 })
  let a ← ask
  let result ← conclude env t a.outcome
  writeRecord ⟨env.digest session.realmID t, .finished, some result, none⟩
  pure result

def serve : M Result := do
  let s ← read
  match s.record with
  | some r => answer env session t r
  | none => prepare env session t

def handle (allowed : Bool) : M Result := do
  ofExcept (require (env.accepts session t) .system)
  ofExcept (require (t.clientID = session.clientID) (.text "passport ticket does not match authenticated session"))
  match ← enter env t.head allowed with
  | some refusal => pure refusal
  | none => serve env session t

def tombstone : M Unit := do
  let aborted ← preparationError env t.head .aborted
  writeRecord { r with state := .canceled, result := some aborted }

def examine : M Unit := do
  let result ← ofExcept (present r.result (.text "preparation receipt missing"))
  ofExcept (require (env.valid result) .system)
  ofExcept (require (result.head = t.head) (.text "preparation receipt mismatch"))
  ofExcept (require (payloadFits t result) (.text "preparation receipt payload mismatch"))
  ofExcept (require (r.state ≠ .canceled ∨ result.body = .error .aborted) (.text "invalid cancellation tombstone"))

def fence : M Unit :=
  match r.state with
  | .started => do
    ofExcept (require r.result.isNone (.text "started preparation has a receipt"))
    tombstone env t r
  | .finished => do
    examine env t r
    tombstone env t { r with priorResult := r.result }
  | .canceled => examine env t r

def withdraw : M Bool := do
  let s ← read
  match s.record with
  | none => do
    tombstone env t ⟨env.digest session.realmID t, .started, none, none⟩
    pure false
  | some r =>
    if r.digest ≠ env.digest session.realmID t then pure true
    else do
      fence env t r
      pure false

def cancel (c : Cancellation) (allowed : Bool) : M Result := do
  ofExcept (require (env.acceptsCancellation session c) .system)
  ofExcept (require (c.clientID = session.clientID) (.text "cancellation does not match session"))
  match ← enter env c.head allowed with
  | some refusal => pure refusal
  | none => do
    if ← withdraw env session c.preparation then preparationError env c.head .conflict
    else do
      let a ← ask
      checked env ⟨c.head, a.time, .canceled c.preparation.operationID c.preparation.requestID⟩

inductive Call
  | handle (session : Session) (t : Ticket) (allowed : Bool) (script : List Answer)
  | cancel (session : Session) (c : Cancellation) (allowed : Bool) (script : List Answer)

def step (id : Str) (s : Store) : Call → Store
  | .handle session t allowed script =>
    if t.operationID = id then (handle env session t allowed s script).2.1 else s
  | .cancel session c allowed script =>
    if c.preparation.operationID = id then (cancel env session c allowed s script).2.1 else s

def empty : Store := ⟨none, 0⟩

def State.rank : State → ℕ
  | .started => 0
  | .finished => 1
  | .canceled => 2

structure Record.Follows (old r : Record) : Prop where
  digest : r.digest = old.digest
  rank : old.state.rank ≤ r.state.rank
  result : r.result = old.result ∨ old.state.rank < r.state.rank

lemma Record.Follows.refl (r : Record) : r.Follows r := ⟨rfl, le_refl _, .inl rfl⟩

variable {r : Record} {s : Store}

lemma Record.Follows.trans {r' r'' : Record} (h : r.Follows r') (h' : r'.Follows r'') : r.Follows r'' := by
  refine ⟨h'.digest.trans h.digest, h.rank.trans h'.rank, ?_⟩
  rcases h.result with hr | hr
  · rcases h'.result with hr' | hr'
    · exact .inl (hr'.trans hr)
    · exact .inr (lt_of_le_of_lt h.rank hr')
  · exact .inr (lt_of_lt_of_le hr h'.rank)

def Record.Tombstone (r : Record) : Prop :=
  r.state = .canceled → ∃ x, r.result = some x ∧ x.body = .error .aborted

structure Inv (s : Store) : Prop where
  once : s.calls ≤ 1
  fresh : s.record = none → s.calls = 0
  tombstone : ∀ r, s.record = some r → r.Tombstone

structure Next (s s' : Store) : Prop where
  inv : Inv s'
  calls : s.record ≠ none → s'.calls = s.calls
  follows : ∀ old, s.record = some old → ∃ r, s'.record = some r ∧ old.Follows r

lemma inv_empty : Inv empty := ⟨by decide, fun _ => rfl, fun r h => (by cases h)⟩

lemma Next.refl (h : Inv s) : Next s s := ⟨h, fun _ => rfl, fun old hold => ⟨old, hold, .refl old⟩⟩

lemma Next.of_eq {s₀ : Store} (hi : Inv s₀) : ∀ s, s = s₀ → Next s₀ s := by
  rintro s rfl
  exact .refl hi

lemma Next.trans {s' s'' : Store} (h : Next s s') (h' : Next s' s'') : Next s s'' := by
  refine ⟨h'.inv, fun hs => ?_, fun old hold => ?_⟩
  · obtain ⟨old, hold⟩ := ne_none_iff_exists'.mp hs
    obtain ⟨r, hr, -⟩ := h.follows old hold
    rw [h'.calls (by simp [hr]), h.calls hs]
  · obtain ⟨r, hr, hf⟩ := h.follows old hold
    obtain ⟨r', hr', hf'⟩ := h'.follows r hr
    exact ⟨r', hr', hf.trans hf'⟩

lemma Next.write (h : Inv s) (hr : ∀ old, s.record = some old → old.Follows r) (ht : r.Tombstone) :
    Next s { s with record := some r } := by
  refine ⟨⟨h.once, fun hn => (by cases hn), fun r' hr' => ?_⟩, fun _ => rfl, fun old hold => ⟨r, rfl, hr old hold⟩⟩
  obtain rfl : r = r' := some.inj hr'
  exact ht

lemma Next.call (h : Inv s) (hs : s.record = none) (ht : r.Tombstone) : Next s ⟨some r, s.calls + 1⟩ := by
  refine ⟨⟨?_, fun hn => (by cases hn), fun r' hr' => ?_⟩, fun hn => absurd hs hn, fun old hold => ?_⟩
  · simp [h.fresh hs]
  · obtain rfl : r = r' := some.inj hr'
    exact ht
  · rw [hs] at hold
    cases hold

variable {env : Env} {session : Session} {t : Ticket} {allowed : Bool} {s₀ : Store} {P R : Store → Prop}

lemma ensures_checked {x : Result} (hR : ∀ s, P s → R s) : Ensures P (checked env x) (fun y s => P s ∧ y = x) R :=
  .except hR (fun _ _ => .pure (fun _ hs => ⟨hs, rfl⟩))

variable {h : Head} {id : Str} {x : State}

lemma ensures_preparationError {key : Key} (hR : ∀ s, P s → R s) :
    Ensures P (preparationError env h key) (fun y s => P s ∧ y.body = .error key) R :=
  .bind (.ask (T := fun _ => P) hR (fun _ _ hs => hs))
    (fun _ => (ensures_checked hR).post (fun _ _ hq => ⟨hq.1, by rw [hq.2]⟩))

lemma ensures_enter (hR : ∀ s, P s → R s) : Ensures P (enter env h allowed)
      (fun refusal s => P s ∧ (allowed = true → env.rootAbs = true → refusal = none)) R := by
  rw [enter]
  split
  case isTrue ha =>
    refine .bind (ensures_preparationError hR) (fun _ => .pure (fun s hs => ⟨hs.1, fun h' => ?_⟩))
    rw [ha] at h'
    cases h'
  case isFalse =>
    split
    case isTrue ha =>
      refine .bind (ensures_preparationError hR) (fun _ => .pure (fun s hs => ⟨hs.1, fun _ h' => ?_⟩))
      rw [ha] at h'
      cases h'
    case isFalse =>
      refine .seq (.command hR) (.seq (.command hR) ?_)
      refine .seq (.command hR) (.seq (.command hR) ?_)
      exact .pure (fun s hs => ⟨hs, fun _ _ => rfl⟩)

def Recorded (s₀ : Store) (reply : Result) (s : Store) : Prop :=
  (∃ r, s.record = some r ∧ r.state ≠ .started ∧ r.result = some reply) ∧
    ∀ old, s₀.record = some old →
      (old.state = .started → reply.body = .error .aborted) ∧ (old.state ≠ .started → s = s₀)

lemma ensures_replay (hi : Inv s₀) (hr : s₀.record = some r) (hs : r.state ≠ .started) :
    Ensures (· = s₀) (replay env t r) (fun reply s => Next s₀ s ∧ Recorded s₀ reply s) (Next s₀) := by
  have hR := Next.of_eq hi
  refine .except hR (fun x hx => ?_)
  refine .except hR (fun _ _ => .except hR (fun _ _ => ?_))
  refine .except hR (fun _ _ => .except hR (fun _ _ => .pure ?_))
  rintro s rfl
  refine ⟨.refl hi, ⟨r, hr, hs, present_eq_ok.mp hx⟩, fun old hold => ⟨fun h => ?_, fun _ => rfl⟩⟩
  obtain rfl := mem_unique hr hold
  exact absurd h hs

lemma ensures_answer (hi : Inv s₀) (hr : s₀.record = some r) : Ensures (· = s₀) (answer env session t r)
      (fun reply s => Next s₀ s ∧ (r.digest = env.digest session.realmID t → Recorded s₀ reply s)) (Next s₀) := by
  have hR := Next.of_eq hi
  rw [answer]
  split
  case isTrue hd => exact (ensures_preparationError hR).post (fun _ s hq => ⟨hR s hq.1, fun h => absurd h hd⟩)
  case isFalse =>
    split
    case isTrue hs =>
      refine .bind (ensures_preparationError hR) (fun x => .fix ?_)
      rintro s ⟨rfl, hx⟩
      have hnext : Next s { s with record := some { r with state := .finished, result := some x } } := by
        refine .write hi (fun old hold => ?_) nofun
        obtain rfl := mem_unique hr hold
        exact ⟨rfl, by simp [hs, State.rank], .inr (by simp [hs, State.rank])⟩
      refine .seq (.save (Q := fun s' => s' = { s with record := some { r with state := .finished, result := some x } })
        (.of_eq hi) (fun s' h => by rw [h]) (fun s' h => h ▸ hnext)) (.pure ?_)
      rintro s' rfl
      refine ⟨hnext, fun _ => ⟨⟨_, rfl, fun h => (by cases h), rfl⟩, fun old hold => ⟨fun _ => hx, fun h => ?_⟩⟩⟩
      obtain rfl := mem_unique hr hold
      exact absurd hs h
    case isFalse hs =>
      exact (ensures_replay hi hr hs).post (fun _ _ hq => ⟨hq.1, fun _ => hq.2⟩)

lemma ensures_conclude {o : Outcome} (hR : ∀ s, P s → R s) : Ensures P (conclude env t o) (fun _ => P) R := by
  have he : ∀ key, Ensures P (preparationError env t.head key) (fun _ => P) R := fun key =>
    (ensures_preparationError hR).post (fun _ _ hq => hq.1)
  cases o with
  | prepared =>
    exact .bind (.ask (T := fun _ => P) hR (fun _ _ hs => hs))
      (fun _ => (ensures_checked hR).post (fun _ _ hq => hq.1))
  | denied => exact he _
  | stale => exact he _
  | ownerUnavailable => exact he _
  | unknown => exact .fail hR

lemma ensures_prepare (hi : Inv s₀) (hn : s₀.record = none) :
    Ensures (· = s₀) (prepare env session t) (fun reply s => Next s₀ s ∧ Recorded s₀ reply s) (Next s₀) := by
  have hno : ∀ old, s₀.record = some old → False := fun old h => by
    rw [hn] at h
    cases h
  have hstart : Next s₀ { s₀ with record := some ⟨env.digest session.realmID t, .started, none, none⟩ } :=
    .write hi (fun old h => (hno old h).elim) nofun
  have hcalled : Next s₀ ⟨some ⟨env.digest session.realmID t, .started, none, none⟩, s₀.calls + 1⟩ :=
    .call hi hn nofun
  have hR : ∀ s, s = ⟨some ⟨env.digest session.realmID t, .started, none, none⟩, s₀.calls + 1⟩ → Next s₀ s :=
    fun s h => h ▸ hcalled
  refine .seq (.save (Q := fun s => s = { s₀ with record := some ⟨env.digest session.realmID t, .started, none, none⟩ })
    (.of_eq hi) (fun s h => by rw [h]) (fun s h => h ▸ hstart)) ?_
  refine .bind (.update (T := fun _ s =>
    s = ⟨some ⟨env.digest session.realmID t, .started, none, none⟩, s₀.calls + 1⟩) ?_) (fun _ => ?_)
  · rintro s rfl
    rfl
  refine .bind (.ask hR (fun _ _ hs => hs)) (fun a => .bind (ensures_conclude hR) (fun x => ?_))
  have hdone : Next s₀ ⟨some ⟨env.digest session.realmID t, .finished, some x, none⟩, s₀.calls + 1⟩ :=
    .call hi hn nofun
  refine .seq (.save (Q := fun s => s = ⟨some ⟨env.digest session.realmID t, .finished, some x, none⟩, s₀.calls + 1⟩)
    hR (fun s h => by rw [h]) (fun s h => h ▸ hdone)) (.pure ?_)
  rintro s rfl
  exact ⟨hdone, ⟨_, rfl, fun h => (by cases h), rfl⟩, fun old hold => (hno old hold).elim⟩

def Reaches (env : Env) (s : Store) (session : Session) (t : Ticket) (allowed : Bool) : Prop :=
  allowed = true ∧ env.rootAbs = true ∧ ∀ r, s.record = some r → r.digest = env.digest session.realmID t

lemma ensures_handle (hi : Inv s₀) : Ensures (· = s₀) (handle env session t allowed)
      (fun reply s => Next s₀ s ∧ (Reaches env s₀ session t allowed → Recorded s₀ reply s)) (Next s₀) := by
  have hR := Next.of_eq hi
  refine .except hR (fun _ _ => .except hR (fun _ _ => ?_))
  refine .bind (ensures_enter hR) (fun refusal => ?_)
  cases refusal with
  | some x =>
    refine .pure (fun s hs => ⟨hR s hs.1, fun hre => ?_⟩)
    cases hs.2 hre.1 hre.2.1
  | none =>
    refine (Ensures.read_at ?_).pre (fun s hs => hs.1)
    split
    · rename_i r hr
      exact (ensures_answer hi hr).post (fun _ _ hq => ⟨hq.1, fun hre => hq.2 (hre.2.2 r hr)⟩)
    · rename_i hn
      exact (ensures_prepare hi hn).post (fun _ _ hq => ⟨hq.1, fun _ => hq.2⟩)

lemma ensures_tombstone (hi : Inv s₀) (hr : ∀ old, s₀.record = some old → r.digest = old.digest ∧ old.state.rank < 2) :
    Ensures (· = s₀) (tombstone env t r) (fun _ => Next s₀) (Next s₀) := by
  have hR := Next.of_eq hi
  refine .bind (ensures_preparationError hR) (fun x => .fix ?_)
  rintro s ⟨rfl, hx⟩
  have hnext : Next s { s with record := some { r with state := .canceled, result := some x } } :=
    .write hi (fun old hold => ⟨(hr old hold).1, (hr old hold).2.le, .inr (hr old hold).2⟩) (fun _ => ⟨x, rfl, hx⟩)
  exact .save (.of_eq hi) (fun s' h => h ▸ hnext) (fun s' h => h ▸ hnext)

lemma ensures_examine (hR : ∀ s, P s → R s) : Ensures P (examine env t r) (fun _ => P) R :=
  .except hR (fun _ _ => .except hR (fun _ _ => .except hR (fun _ _ =>
    .except hR (fun _ _ => .ofExcept hR (fun _ _ _ hs => hs)))))

section

variable (hi : Inv s₀)
include hi

lemma ensures_fence (hr : s₀.record = some r) : Ensures (· = s₀) (fence env t r) (fun _ => Next s₀) (Next s₀) := by
  have hR := Next.of_eq hi
  have hold : ∀ old, s₀.record = some old → r = old := fun old h => mem_unique hr h
  rw [fence]
  split
  · rename_i hs
    exact .except hR (fun _ _ => ensures_tombstone hi
      (fun old h => ⟨by rw [hold old h], by simp [← hold old h, hs, State.rank]⟩))
  · rename_i hs
    exact .seq (ensures_examine hR) (ensures_tombstone hi
      (fun old h => ⟨by rw [← hold old h], by simp [← hold old h, hs, State.rank]⟩))
  · exact (ensures_examine hR).post (fun _ => hR)

lemma ensures_withdraw : Ensures (· = s₀) (withdraw env session t) (fun _ => Next s₀) (Next s₀) := by
  refine .read_at ?_
  split
  · rename_i hn
    refine .seq (ensures_tombstone hi (fun old h => ?_)) .done
    rw [hn] at h
    cases h
  · rename_i r hr
    split
    · exact .pure (Next.of_eq hi)
    · exact .seq (ensures_fence hi hr) .done

lemma ensures_cancel {c : Cancellation} :
    Ensures (· = s₀) (cancel env session c allowed) (fun _ => Next s₀) (Next s₀) := by
  have hR := Next.of_eq hi
  refine .except hR (fun _ _ => .except hR (fun _ _ => ?_))
  refine .bind (ensures_enter hR) (fun refusal => ?_)
  cases refusal with
  | some x => exact .pure (fun s hs => hR s hs.1)
  | none =>
    refine .bind ((ensures_withdraw hi).pre (fun s hs => hs.1)) (fun conflict => ?_)
    cases conflict with
    | true => exact (ensures_preparationError (fun _ h => h)).post (fun _ _ hq => hq.1)
    | false =>
      exact .bind (.ask (T := fun _ => Next s₀) (fun _ h => h) (fun _ _ h => h))
        (fun _ => (ensures_checked (fun _ h => h)).post (fun _ _ hq => hq.1))

lemma Next.step (c : Call) : Next s₀ (step env id s₀ c) := by
  cases c with
  | handle session t allowed script =>
    rw [Preparations.step]
    split
    · exact ((ensures_handle hi).post (fun _ _ hq => hq.1)).final rfl script
    · exact .refl hi
  | cancel session c allowed script =>
    rw [Preparations.step]
    split
    · exact (ensures_cancel hi).final rfl script
    · exact .refl hi

lemma Next.run (cs : List Call) : Next s₀ (run (Preparations.step env id) s₀ cs) := by
  induction cs generalizing s₀ with
  | nil => exact .refl hi
  | cons c cs ih => exact (Next.step hi c).trans (ih (Next.step hi c).inv)

end

lemma Recorded.sealed {reply : Result} (h : Recorded s₀ reply s) (hr : s₀.record = some r)
    (hs : r.state ≠ .started) : r.result = some reply := by
  obtain ⟨⟨r', hr', -, hres⟩, hold⟩ := h
  rw [(hold r hr).2 hs] at hr'
  obtain rfl := mem_unique hr hr'
  exact hres

lemma rank_pos (h : x ≠ .started) : 0 < x.rank := by
  cases x with
  | started => exact absurd rfl h
  | finished => decide
  | canceled => decide

lemma canceled_of_rank (h : 1 < x.rank) : x = .canceled := by
  cases x with
  | started => exact absurd h (by decide)
  | finished => exact absurd h (by decide)
  | canceled => rfl

theorem preparation_once (env : Env) (id : Str) (cs : List Call) :
    let s := run (step env id) empty cs
    s.calls ≤ 1 ∧
      (∀ r, s.record = some r → ∀ later, (run (step env id) s later).calls = s.calls) ∧
      ∀ session t allowed script reply s' rest, Reaches env s session t allowed →
        handle env session t allowed s script = (.ok reply, s', rest) →
          (∀ r, s.record = some r → r.state = .started → reply.body = .error .aborted) ∧
          (∃ r, s'.record = some r ∧ r.state ≠ .started ∧ r.result = some reply) ∧
          ∀ later session' t' allowed' script' reply' s'' rest',
            Reaches env (run (step env id) s' later) session' t' allowed' →
            handle env session' t' allowed' (run (step env id) s' later) script' = (.ok reply', s'', rest') →
              reply' = reply ∨ reply'.body = .error .aborted ∧
                ∃ r, (run (step env id) s' later).record = some r ∧ r.state = .canceled := by
  intro s
  have hi : Inv s := (Next.run inv_empty cs).inv
  refine ⟨hi.once, fun r hr later => (Next.run hi later).calls (by simp [hr]), ?_⟩
  intro session t allowed script reply s' rest hre hrun
  obtain ⟨hnext, hrec⟩ := (ensures_handle hi).of_run rfl hrun
  obtain ⟨⟨r, hr, hs, hres⟩, hold⟩ := hrec hre
  refine ⟨fun old ho => (hold old ho).1, ⟨r, hr, hs, hres⟩, ?_⟩
  intro later session' t' allowed' script' reply' s'' rest' hre' hrun'
  have hlater : Next s' (run (step env id) s' later) := .run hnext.inv later
  obtain ⟨r', hr', hf⟩ := hlater.follows r hr
  have hpos : 0 < r.state.rank := rank_pos hs
  have hs' : r'.state ≠ .started := by
    intro h
    have := hf.rank
    rw [h] at this
    exact absurd (hpos.trans_le this) (by decide)
  have hres' : r'.result = some reply' := (((ensures_handle hlater.inv).of_run rfl hrun').2 hre').sealed hr' hs'
  rcases hf.result with heq | hlt
  · exact .inl (some.inj (hres'.symm.trans (heq.trans hres)))
  · have hc : r'.state = .canceled := canceled_of_rank (lt_of_le_of_lt hpos hlt)
    obtain ⟨x, hx, hbody⟩ := hlater.inv.tombstone r' hr' hc
    obtain rfl := mem_unique hres' hx
    exact .inr ⟨hbody, r', hr', hc⟩

def openEnv : Env := ⟨fun _ _ => true, fun _ _ => true, fun _ => true, true, fun realm _ => realm⟩

def someSession : Session := ⟨"client", "realm"⟩

def someTicket : Ticket :=
  { operationID := "op", requestID := "req", clientID := "client", createdAt := "now"
    repoID := "repo", path := "a.txt", observedLockID := "lock", passportID := "passport"
    instanceUID := "instance", mode := "edit" }

def someCancellation : Cancellation := ⟨"op2", "req2", "client", someTicket⟩

def healthy : List Answer := List.replicate 12 ⟨.done, 7, .prepared⟩

def bodyOf (c : Except (Stop Err) Result × Store × List Answer) : Option Body :=
  match c.1 with
  | .ok reply => some reply.body
  | .error _ => none

/-- A prepared request is answered differently after its cancellation, and after its grant is gone. -/
theorem reply_not_repeated :
    let s := run (step openEnv "op") empty [.handle someSession someTicket true healthy]
    let u := run (step openEnv "op") s [.cancel someSession someCancellation true healthy]
    bodyOf (handle openEnv someSession someTicket true empty healthy) =
        some (.prepared "repo" "a.txt" "lock") ∧
      bodyOf (handle openEnv someSession someTicket true s healthy) =
        some (.prepared "repo" "a.txt" "lock") ∧
      bodyOf (handle openEnv someSession someTicket true u healthy) = some (.error .aborted) ∧
      bodyOf (handle openEnv someSession someTicket false s healthy) = some (.error .denied) := by
  decide +kernel

end FileES.Preparations
