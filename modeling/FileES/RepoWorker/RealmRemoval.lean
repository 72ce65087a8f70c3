import FileES.Go.UUID
import FileES.Lib.Effects
import FileES.Lib.Fallible
import FileES.Lib.Ledger
import FileES.Lib.Runs

/-! The records of realm removals and the mails with their confirmation codes. -/

namespace FileES.RealmRemoval

open Go Lib Lib.Effects Lib.Fallible Lib.Maps Lib.Runs

structure Scope where
  (clientIDs ownedRepoIDs foreignGrantRepoIDs : List Str)
  deriving DecidableEq, Repr

structure Request where
  notificationEmail : Str
  erasureRequested : Bool
  recoveryPublicKey : Str
  deriving DecidableEq, Repr

inductive State
  | awaiting
  | deleting
  | recoveryReady
  | revokingClients
  | completed
  | expired
  deriving DecidableEq, Repr

/-- `token` and `wrong` are history: the code that was mailed, and how many other codes have been presented. -/
structure Record where
  (operationID realmID : Str)
  scope : Scope
  request : Request
  otpHash : Str
  attemptsLeft : ℤ
  state : State
  createdAt : ℕ
  confirmedAt : Option ℕ
  expiresAt : ℕ
  token : Str
  wrong : ℕ
  deriving DecidableEq, Repr

inductive MailState
  | pending
  | sending
  | queued
  | failed
  | canceled
  deriving DecidableEq, Repr

structure MailJob where
  (messageID operationID deliveryAddress otp : Str)
  deliveryState : MailState
  attemptID : Str
  (attemptedAt queuedAt : Option ℕ)
  lastError : Str
  (createdAt expiresAt : ℕ)
  deriving DecidableEq, Repr

structure Store where
  records : Map Str Record
  outbox : Map Str MailJob

structure Env where
  hash : Str → Str
  canonicalEmail : Str → Option Str
  complete : Bool
  ttl : ℕ
  attempts : ℤ

inductive Err
  | text (message : String)
  | notExist
  deriving DecidableEq, Repr

abbrev M := Prog Store Unit Err

variable (env : Env)

variable (r : Record) (id realmID : Str) (scope : Scope) (job : MailJob)

def validateScope : Except Err Unit :=
  [scope.clientIDs, scope.ownedRepoIDs, scope.foreignGrantRepoIDs].forM (fun ids => do
    require (ids.all isUUID) (.text "realm removal scope ID must be UUID")
    require ids.Nodup (.text "realm removal scope contains duplicate ID"))

def checkIDs (operationID realmID : Str) : Except Err Unit := do
  require (env.complete && 0 < env.ttl && 0 < env.attempts) (.text "realm removal store is incomplete")
  require (isUUID operationID) (.text "realm removal operation_id must be UUID")
  require (isUUID realmID) (.text "realm removal realm_id must be UUID")

def load : M Record := do
  let s ← read
  let r ← ofExcept (present (s.records.lookup id) .notExist)
  ofExcept (require (r.operationID = id) (.text "realm removal record invalid"))
  pure r

def put : M Unit := update (fun s => { s with records := s.records.insert r.operationID r })

def putMail : M Unit := update (fun s => { s with outbox := s.outbox.insert id job })

def beginOperation (request : Request) (token messageID : Str) (now : ℕ) :
    M (Record × Str) := do
  ofExcept (checkIDs env id realmID)
  ofExcept (validateScope scope)
  let email ← ofExcept (present (env.canonicalEmail request.notificationEmail)
    (.text "realm removal notification email is invalid"))
  let request := { request with notificationEmail := email }
  let s ← read
  match s.records.lookup id with
  | some existing => do
    ofExcept (require (existing.realmID = realmID && existing.request = request)
      (.text "realm removal operation conflicts with prior request"))
    pure (existing, [])
  | none => do
    let r : Record := ⟨id, realmID, scope, request, env.hash token, env.attempts, .awaiting, now, none,
      now + env.ttl, token, 0⟩
    put r
    putMail id ⟨messageID, id, email, token, .pending, [], none, none, [], now, r.expiresAt⟩
    pure (r, token)

def beginPolicyRemoval (now : ℕ) : M Record := do
  ofExcept (checkIDs env id realmID)
  ofExcept (validateScope scope)
  let s ← read
  match s.records.lookup id with
  | some existing => do
    ofExcept (require (existing.realmID = realmID) (.text "realm removal operation conflicts with prior request"))
    pure existing
  | none => do
    let r : Record := ⟨id, realmID, scope, ⟨[], false, []⟩, [], 0, .deleting, now, some now, now, [], 0⟩
    put r
    pure r

def MailJob.unsent : Bool := job.deliveryState = .pending || job.deliveryState = .sending

def MailJob.cancel : MailJob :=
  { job with deliveryState := .canceled, deliveryAddress := [], otp := [], attemptID := [], attemptedAt := none }

def cancelMail : M Unit := do
  let s ← read
  match s.outbox.lookup id with
  | some job => onlyIf job.unsent (putMail id job.cancel)
  | none => pure ()

def Record.expire : Record := { r with state := .expired, otpHash := [] }

def Record.miss : Record :=
  let r := { r with attemptsLeft := r.attemptsLeft - 1, wrong := r.wrong + 1 }
  if r.attemptsLeft ≤ 0 then r.expire else r

def confirm (otp : Str) (now confirmedAt : ℕ) : M Record := do
  ofExcept (checkIDs env id id)
  let r ← load id
  ofExcept (require (r.state = .awaiting) (.text "realm removal is not awaiting confirmation"))
  if r.expiresAt ≤ now then do
    put r.expire
    fail (.text "realm removal OTP expired")
  else if r.otpHash ≠ env.hash (trimSpace otp) then do
    put r.miss
    fail (.text "realm removal OTP invalid")
  else do
    let r := { r with otpHash := [], attemptsLeft := 0, state := .deleting, confirmedAt := some confirmedAt }
    put r
    cancelMail id
    pure r

def MailJob.claimable (staleAfter now : ℕ) : Bool :=
  job.deliveryState = .pending || job.deliveryState = .sending && job.attemptedAt.any (fun t => staleAfter ≤ now - t)

def claimFrom (staleAfter : ℕ) (now : Str → ℕ) (fresh : Str → Str) : List Str → M MailJob
  | [] => fail .notExist
  | id :: rest => do
    let s ← read
    let job ← ofExcept (present (s.outbox.lookup id) .notExist)
    let r ← load job.operationID
    if r.state ≠ .awaiting ∨ r.expiresAt ≤ now job.operationID then do
      onlyIf (r.state = .awaiting) (put r.expire)
      onlyIf job.unsent (putMail id job.cancel)
      claimFrom staleAfter now fresh rest
    else if job.claimable staleAfter (now job.operationID) then do
      let job := { job with deliveryState := .sending, attemptID := fresh id, attemptedAt := some (now job.operationID), lastError := [] }
      putMail id job
      pure job
    else claimFrom staleAfter now fresh rest

def claimPendingMail (staleAfter : ℕ) (now : Str → ℕ) (fresh : Str → Str) : M MailJob := do
  ofExcept (require (0 < staleAfter) (.text "realm removal mail store is incomplete"))
  let s ← read
  claimFrom staleAfter now fresh (s.outbox.keys.mergeSort (fun a b => a ≤ b))

def safeMailError (value : Str) : Str :=
  let value := (replaceAll (replaceAll (trimSpace value) '\r' ' ') '\n' ' ').take 240
  if value = [] then "mail submission failed" else value

def MailJob.marked (reason : Str) (permanent queued : Bool) (now : ℕ) : MailJob :=
  if queued then { job with deliveryState := .queued, deliveryAddress := [], otp := [], attemptID := [], attemptedAt := none, lastError := [], queuedAt := some now }
  else if permanent then { job with deliveryState := .failed, deliveryAddress := [], otp := [], attemptID := [], attemptedAt := none, lastError := safeMailError reason }
  else { job with deliveryState := .pending, attemptID := [], attemptedAt := none, lastError := safeMailError reason }

def markMail (attemptID reason : Str) (permanent queued : Bool) (now : ℕ) : M Unit := do
  ofExcept (require (isUUID id && attemptID ≠ []) (.text "realm removal mail identifiers are invalid"))
  let s ← read
  let job ← ofExcept (present (s.outbox.lookup id) .notExist)
  if job.deliveryState = .queued ∧ queued then pure ()
  else do
    ofExcept (require (job.deliveryState = .sending && job.attemptID = attemptID) (.text "realm removal mail attempt mismatch"))
    putMail id (job.marked reason permanent queued now)

def validTransition (source target : State) : Bool :=
  (source = .deleting && target = .recoveryReady) || (source = .recoveryReady && target = .revokingClients) ||
    (source = .revokingClients && target = .completed)

def advance (source target : State) : M Record := do
  ofExcept (require (env.complete && 0 < env.ttl && 0 < env.attempts) (.text "realm removal store is incomplete"))
  ofExcept (require (validTransition source target) (.text "invalid realm removal transition"))
  ofExcept (require (isUUID id) (.text "realm removal operation_id must be UUID"))
  let r ← load id
  if r.state = target then pure r
  else do
    ofExcept (require (r.state = source) (.text "realm removal state conflicts with requested transition"))
    put { r with state := target }
    pure { r with state := target }

inductive Op
  | begin (id realmID : Str) (scope : Scope) (request : Request) (token messageID : Str) (now : ℕ)
  | policy (id realmID : Str) (scope : Scope) (now : ℕ)
  | confirm (id otp : Str) (now confirmedAt : ℕ)
  | claim (staleAfter : ℕ) (now : Str → ℕ) (fresh : Str → Str)
  | mark (id attemptID reason : Str) (permanent queued : Bool) (now : ℕ)
  | advance (id : Str) (source target : State)

def step (s : Store) : Op → Store
  | .begin id realmID scope request token messageID now =>
    (beginOperation env id realmID scope request token messageID now s []).2.1
  | .policy id realmID scope now => (beginPolicyRemoval env id realmID scope now s []).2.1
  | .confirm id otp now confirmedAt => (confirm env id otp now confirmedAt s []).2.1
  | .claim staleAfter now fresh => (claimPendingMail staleAfter now fresh s []).2.1
  | .mark id attemptID reason permanent queued now => (markMail id attemptID reason permanent queued now s []).2.1
  | .advance id source target => (advance env id source target s []).2.1

structure Record.Ok (env : Env) (r : Record) : Prop where
  counts : r.state = .awaiting → r.wrong + r.attemptsLeft = env.attempts ∧ 0 < r.attemptsLeft
  issued : r.state = .awaiting → r.otpHash = env.hash r.token

inductive Move (env : Env) : Op → Option Record → Record → Prop
  | begin {id realmID scope request token messageID now r} (h : r.state = .awaiting) :
      Move env (.begin id realmID scope request token messageID now) none r
  | policy {id realmID scope now r} (h : r.operationID = id) : Move env (.policy id realmID scope now) none r
  | expire {op r} (h : r.state = .awaiting) : Move env op (some r) r.expire
  | miss {id otp now confirmedAt r} (h : r.state = .awaiting) :
      Move env (.confirm id otp now confirmedAt) (some r) r.miss
  | confirm {otp now t r} (h : r.state = .awaiting) (hnow : now < r.expiresAt)
      (hotp : r.otpHash = env.hash (trimSpace otp)) : Move env (.confirm r.operationID otp now t) (some r)
        { r with otpHash := [], attemptsLeft := 0, state := .deleting, confirmedAt := some t }
  | advance {id source target r} (h : r.state = source) (hv : validTransition source target = true) :
      Move env (.advance id source target) (some r) { r with state := target }

def Stored (env : Env) (id : Str) (r : Record) : Prop := r.operationID = id ∧ r.Ok env

abbrev Inv (env : Env) (s : Store) : Prop := Ledger.Holds (Stored env) s.records

def Changes (env : Env) (op : Op) (s s' : Store) : Prop := Ledger.Changes (Stored env) (Move env op) s.records s'.records

abbrev Makes {α : Type} (env : Env) (op : Op) (s₀ : Store) (m : M α) : Prop :=
  Ensures (fun s => s = s₀) m (fun _ => Changes env op s₀) (Changes env op s₀)

variable {env : Env} {op : Op} {s₀ s : Store} {P : Store → Prop} {r : Record}

lemma Changes.of_eq (h : Inv env s₀) : ∀ s, s = s₀ → Changes env op s₀ s := by
  rintro s rfl
  exact Ledger.Changes.refl h

lemma ensures_put (hP : ∀ s, P s → Changes env op s₀ s) (hok : r.Ok env)
    (hm : Move env op (s₀.records.lookup r.operationID) r) :
    Ensures P (put r) (fun _ => Changes env op s₀) (Changes env op s₀) :=
  .update (fun s hs => Ledger.Changes.insert (hP s hs) ⟨rfl, hok⟩ hm)

variable {id realmID : Str} {scope : Scope} {now : Str → ℕ} {k : ℕ} {fresh : Str → Str} {o : Option Record}

lemma ensures_putMail {job : MailJob} :
    Ensures (Changes env op s₀) (putMail id job) (fun _ => Changes env op s₀) (Changes env op s₀) :=
  .update (fun _ h => h)

lemma ensures_load {R : Store → Prop} (hR : ∀ s, P s → R s) :
    Ensures P (load id) (fun r s => P s ∧ s.records.lookup id = some r ∧ r.operationID = id) R := by
  refine .read_bind (fun s => .except (fun _ h => hR _ h.1) (fun r hr => ?_))
  refine .except (fun _ h => hR _ h.1) (fun _ hid => .pure ?_)
  rintro s' ⟨hs, rfl⟩
  exact ⟨hs, present_eq_ok.mp hr, of_decide_eq_true (require_ok.mp hid)⟩

lemma ok_of_ne (h : r.state ≠ .awaiting) : r.Ok env := ⟨fun h' => absurd h' h, fun h' => absurd h' h⟩

lemma Record.Ok.miss (h : r.Ok env) (hs : r.state = .awaiting) : r.miss.Ok env := by
  obtain ⟨hcount, -⟩ := h.counts hs
  rw [Record.miss]
  split
  · exact ok_of_ne nofun
  · rename_i hleft
    refine ⟨fun _ => ⟨?_, not_le.mp hleft⟩, h.issued⟩
    push_cast
    omega

lemma ensures_beginOperation {token messageID : Str} {request : Request} {now : ℕ} (hi : Inv env s₀) :
    Makes env (.begin id realmID scope request token messageID now) s₀
      (beginOperation env id realmID scope request token messageID now) := by
  have hR : ∀ s, s = s₀ → Changes env (.begin id realmID scope request token messageID now) s₀ s := .of_eq hi
  refine .except hR (fun _ hids => .except hR (fun _ _ => .except hR (fun _ _ => ?_)))
  have ha : 0 < env.attempts := by
    obtain ⟨_, hcomplete, -⟩ := bind_ok.mp hids
    simpa using (Bool.and_eq_true_iff.mp (require_ok.mp hcomplete)).2
  refine .read_at ?_
  split
  · exact .except hR (fun _ _ => .pure hR)
  · rename_i hn
    refine .seq (ensures_put hR ⟨fun _ => ⟨by simp, ha⟩, fun _ => rfl⟩ (hn ▸ .begin rfl)) ?_
    exact .seq ensures_putMail .done

lemma ensures_beginPolicyRemoval {now : ℕ} (hi : Inv env s₀) :
    Makes env (.policy id realmID scope now) s₀ (beginPolicyRemoval env id realmID scope now) := by
  have hR : ∀ s, s = s₀ → Changes env (.policy id realmID scope now) s₀ s := .of_eq hi
  refine .except hR (fun _ _ => .except hR (fun _ _ => .read_at ?_))
  split
  · exact .except hR (fun _ _ => .pure hR)
  · rename_i hn
    exact .seq (ensures_put hR (ok_of_ne (fun h => by cases h)) (hn ▸ .policy rfl)) .done

lemma ensures_cancelMail :
    Ensures (Changes env op s₀) (cancelMail id) (fun _ => Changes env op s₀) (Changes env op s₀) := by
  refine .read_bind (fun s => Ensures.pre ?_ (fun _ h => h.1))
  split
  · exact .onlyIf ensures_putMail
  · exact .done

lemma ensures_confirm {otp : Str} {now t : ℕ} (hi : Inv env s₀) :
    Makes env (.confirm id otp now t) s₀ (confirm env id otp now t) := by
  have hR : ∀ s, s = s₀ → Changes env (.confirm id otp now t) s₀ s := .of_eq hi
  refine .except hR (fun _ _ => .bind (ensures_load hR) (fun r => .fix ?_))
  rintro s ⟨rfl, hr, rfl⟩
  refine .except hR (fun _ hs => ?_)
  have hs : r.state = .awaiting := of_decide_eq_true (require_ok.mp hs)
  split
  · exact .seq (ensures_put hR (ok_of_ne (fun h => by cases h)) (hr ▸ .expire hs)) (.fail (fun _ h => h))
  · rename_i hnow
    split
    · have hput : r.miss.operationID = r.operationID := by
        rw [Record.miss]
        split <;> rfl
      exact .seq (ensures_put hR ((hi _ r hr).2.miss hs) (by rw [hput, hr]; exact .miss hs))
        (.fail (fun _ h => h))
    · rename_i hotp
      refine .seq (ensures_put hR (ok_of_ne (fun h => by cases h))
        (hr ▸ .confirm hs (not_le.mp hnow) (not_not.mp hotp))) ?_
      exact .seq ensures_cancelMail .done

lemma Move.claim_expired (h : Move env (.claim k now fresh) o r) : r.state = .expired := by
  cases h
  rfl

def Claimable (s : Store) (now : Str → ℕ) (job : MailJob) : Prop :=
  ∃ r, s.records.lookup job.operationID = some r ∧ r.state = .awaiting ∧ now job.operationID < r.expiresAt

lemma ensures_claimFrom (ids : List Str) : Ensures (Changes env (.claim k now fresh) s₀) (claimFrom k now fresh ids)
      (fun job s => Changes env (.claim k now fresh) s₀ s ∧ Claimable s₀ now job) (Changes env (.claim k now fresh) s₀) := by
  induction ids with
  | nil => exact .fail (fun _ h => h)
  | cons id ids ih =>
    refine .read_bind (fun u => .except (fun _ h => h.1) (fun job _ => ?_))
    refine .bind ((ensures_load (fun _ h => h)).pre (fun _ h => h.1)) (fun r => .fix ?_)
    rintro s ⟨hch, hr, hid⟩
    have hP : ∀ s', s' = s → Changes env (.claim k now fresh) s₀ s' := fun s' h => h ▸ hch
    have hfirst : r.state = .awaiting → s₀.records.lookup job.operationID = some r := fun hs =>
      hch.untouched hr (fun _ hm => State.noConfusion (hs.symm.trans hm.claim_expired))
    split
    · refine .seq (.onlyIf_of (fun hs => ?_) (fun _ => hP)) (.seq (.onlyIf ensures_putMail) ih)
      have hs : r.state = .awaiting := of_decide_eq_true hs
      refine ensures_put hP (ok_of_ne (fun h => by cases h)) ?_
      rw [show r.expire.operationID = job.operationID from hid, hfirst hs]
      exact .expire hs
    · rename_i hopen
      obtain ⟨hs, hnow⟩ := not_or.mp hopen
      split
      · refine .seq (ensures_putMail.pre hP) (.pure (fun _ h => ⟨h, r, ?_⟩))
        exact ⟨hfirst (not_not.mp hs), not_not.mp hs, not_le.mp hnow⟩
      · exact ih.pre hP

lemma ensures_claimPendingMail (hi : Inv env s₀) : Ensures (· = s₀) (claimPendingMail k now fresh)
      (fun job s => Changes env (.claim k now fresh) s₀ s ∧ Claimable s₀ now job) (Changes env (.claim k now fresh) s₀) :=
  .except (.of_eq hi) (fun _ _ => .read_at ((ensures_claimFrom _).pre (.of_eq hi)))

lemma ensures_advance {source target : State} (hi : Inv env s₀) :
    Makes env (.advance id source target) s₀ (advance env id source target) := by
  have hR : ∀ s, s = s₀ → Changes env (.advance id source target) s₀ s := .of_eq hi
  refine .except hR (fun _ _ => .except hR (fun _ hv => .except hR (fun _ _ => ?_)))
  refine .bind (ensures_load hR) (fun r => .fix ?_)
  rintro s ⟨rfl, hr, rfl⟩
  split
  · exact .pure hR
  · refine .except hR (fun _ hs => ?_)
    have hv : validTransition source target = true := require_ok.mp hv
    refine .seq (ensures_put hR (ok_of_ne (fun h => ?_)) (hr ▸ .advance (of_decide_eq_true (require_ok.mp hs)) hv))
      .done
    obtain rfl : target = .awaiting := h
    simp [validTransition] at hv

lemma ensures_markMail {attemptID reason : Str} {permanent queued : Bool} {now : ℕ} (hi : Inv env s₀) :
    Makes env op s₀ (markMail id attemptID reason permanent queued now) := by
  have hR : ∀ s, s = s₀ → Changes env op s₀ s := .of_eq hi
  refine .except hR (fun _ _ => .read_at (.except hR (fun _ _ => ?_)))
  split
  · exact .pure hR
  · exact .except hR (fun _ _ => ensures_putMail.pre hR)

lemma Changes.step (hi : Inv env s) (op : Op) : Changes env op s (step env s op) := by
  cases op with
  | begin => exact (ensures_beginOperation hi).final rfl []
  | policy => exact (ensures_beginPolicyRemoval hi).final rfl []
  | confirm => exact (ensures_confirm hi).final rfl []
  | claim => exact ((ensures_claimPendingMail hi).post (fun _ _ h => h.1)).final rfl []
  | mark => exact (ensures_markMail hi).final rfl []
  | advance => exact (ensures_advance hi).final rfl []

lemma inv_run (ops : List Op) : Inv env (run (step env) ⟨∅, ∅⟩ ops) :=
  run_invariant (step env) (I := Inv env) (fun _ op hi => (Changes.step hi op).inv) (fun k r h => by simp at h) ops

lemma Move.deleting (h : Move env op o r) (hid : r.operationID = id) (hs : r.state = .deleting) :
    (∃ realmID scope now, op = .policy id realmID scope now) ∨ ∃ old otp now t, o = some old ∧
      old.state = .awaiting ∧ op = .confirm id otp now t ∧ now < old.expiresAt ∧
      old.otpHash = env.hash (trimSpace otp) := by
  cases h with
  | begin h => cases h.symm.trans hs
  | policy h => exact .inl ⟨_, _, _, by rw [← hid, h]⟩
  | expire => cases hs
  | miss h =>
    rw [Record.miss] at hs
    split at hs
    · cases hs
    · cases h.symm.trans hs
  | confirm h hnow hotp => exact .inr ⟨_, _, _, _, rfl, h, by rw [← hid], hnow, hotp⟩
  | advance _ hv =>
    obtain rfl : _ = State.deleting := hs
    simp [validTransition] at hv

def State.leads (x y : State) : Bool :=
  x = y || x = .awaiting && (y = .expired || y = .deleting) || validTransition x y

lemma Move.keeps {r' : Record} (h : Move env op o r') (ho : o = some r) :
    r'.scope = r.scope ∧ r.state.leads r'.state = true := by
  cases h with
  | begin => cases ho
  | policy => cases ho
  | expire h => cases ho; exact ⟨rfl, by simp [State.leads, h, Record.expire]⟩
  | miss h =>
    cases ho
    rw [Record.miss]
    split
    · exact ⟨rfl, by simp [State.leads, h, Record.expire]⟩
    · exact ⟨rfl, by simp [State.leads]⟩
  | confirm h => cases ho; exact ⟨rfl, by simp [State.leads, h]⟩
  | advance h hv => cases ho; exact ⟨rfl, by simp [State.leads, h, hv]⟩

theorem removal_needs_confirmation (env : Env) (ops : List Op) :
    let s := run (step env) ⟨∅, ∅⟩ ops
    ∀ op,
      (∀ id r', (step env s op).records.lookup id = some r' → r'.state = .deleting → s.records.lookup id = some r' ∨
        (∃ realmID scope now, op = .policy id realmID scope now) ∨
        ∃ r otp now t, s.records.lookup id = some r ∧ r.state = .awaiting ∧ op = .confirm id otp now t ∧
          now < r.expiresAt ∧ env.hash (trimSpace otp) = env.hash r.token ∧ r.wrong < env.attempts) ∧
      (∀ id r, s.records.lookup id = some r → ∃ r', (step env s op).records.lookup id = some r' ∧ r'.scope = r.scope ∧
        r.state.leads r'.state = true) ∧
      ∀ staleAfter now fresh job s' rest, claimPendingMail staleAfter now fresh s [] = (.ok job, s', rest) →
        Claimable s now job := by
  intro s op
  have hi : Inv env s := inv_run ops
  have hch : Changes env op s (step env s op) := .step hi op
  refine ⟨fun id r' hr' hs => ?_, fun id r hr => ?_, fun _ _ _ _ _ _ hrun => ?_⟩
  · rcases hch.move id with heq | ⟨v, hv, hm⟩
    · exact .inl (heq ▸ hr')
    · obtain rfl := Option.mem_unique hv hr'
      rcases hm.deleting (hch.inv id v hv).1 hs with hp | ⟨old, otp, now, t, ho, hold, hop, hnow, hotp⟩
      · exact .inr (.inl hp)
      · have hok := (hi id old ho).2
        refine .inr (.inr ⟨old, otp, now, t, ho, hold, hop, hnow, hotp.symm.trans (hok.issued hold), ?_⟩)
        obtain ⟨hcount, hleft⟩ := hok.counts hold
        omega
  · rcases hch.move id with heq | ⟨v, hv, hm⟩
    · exact ⟨r, heq.trans hr, rfl, by simp [State.leads]⟩
    · exact ⟨v, hv, hm.keeps hr⟩
  · exact ((ensures_claimPendingMail hi).of_run rfl hrun).2

end FileES.RealmRemoval
