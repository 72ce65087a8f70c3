import FileES.Lib.Durable
import FileES.RepoWorker.RealmRemoval

/-! Beginning a realm removal when the operations on its two files can fail or be cut short. -/

namespace FileES.RemovalMail

open Go Lib Lib.Fallible Lib.Maps Lib.Durable Lib.Runs RealmRemoval

/-- `record`, `mail` and `removed` say what becomes of the file operations, `err` what they report. An outbox that
cannot be made is a mail that failed; a process that dies before the mail is one whose record stays, too. -/
structure Call where
  (operationID realmID : Str)
  scope : Scope
  request : Request
  (token messageID : Str)
  now : ℕ
  (record mail : Write)
  removed : Bool
  err : Err

variable (env : Env) (s : Store) (c : Call)

def checkRequest : Except Err Request := do
  checkIDs env c.operationID c.realmID
  validateScope c.scope
  let email ← present (env.canonicalEmail c.request.notificationEmail)
    (.text "realm removal notification email is invalid")
  pure { c.request with notificationEmail := email }

def commit (request : Request) : Store × Except Err (Record × Str) :=
  let r : Record := ⟨c.operationID, c.realmID, c.scope, request, env.hash c.token, env.attempts, .awaiting, c.now, none,
    c.now + env.ttl, c.token, 0⟩
  let s := { s with records := c.record.store s.records (s.records.insert c.operationID r) }
  if !c.record.ok then (s, .error c.err)
  else
    let job : MailJob := ⟨c.messageID, c.operationID, request.notificationEmail, c.token, .pending, [], none, none, [],
      c.now, r.expiresAt⟩
    let s := { s with outbox := c.mail.store s.outbox (s.outbox.insert c.operationID job) }
    if c.mail.ok then (s, .ok (r, c.token))
    else if c.removed then ({ s with records := s.records.erase c.operationID }, .error c.err)
    else (s, .error c.err)

def beginOperation : Store × Except Err (Record × Str) :=
  match checkRequest env c with
  | .error e => (s, .error e)
  | .ok request =>
    match s.records.lookup c.operationID with
    | some existing =>
      if existing.realmID = c.realmID ∧ existing.request = request then (s, .ok (existing, []))
      else (s, .error (.text "realm removal operation conflicts with prior request"))
    | none => commit env s c request

abbrev after : Store := (beginOperation env s c).1

lemma after_without_faults (h : c.record = .done) (hm : c.mail = .done) : after env s c =
    RealmRemoval.step env s (.begin c.operationID c.realmID c.scope c.request c.token c.messageID c.now) := by
  simp only [after, beginOperation, checkRequest, RealmRemoval.step, RealmRemoval.beginOperation, bind, pure,
    Except.bind, Except.pure, Effects.ofExcept, Effects.read]
  cases checkIDs env c.operationID c.realmID with
  | error e => rfl
  | ok _ =>
    cases validateScope c.scope with
    | error e => rfl
    | ok _ =>
      cases env.canonicalEmail c.request.notificationEmail with
      | none => rfl
      | some email =>
        cases hl : s.records.lookup c.operationID with
        | none => simp [present, hl, commit, h, hm, Write.ok, Write.store, Write.landed, put, putMail, Effects.update]
        | some existing =>
          simp only [present, hl]
          split <;> simp [require, Effects.fail, *]

/-- The call that writes the record also leaves its mail or takes the record back. -/
def Settled : Prop :=
  s.records.lookup c.operationID = none → c.record.landed = true →
    c.record.ok = true ∧ (c.mail.landed = true ∨ c.removed = true)

def HasMail (id : Str) (r : Record) : Prop :=
  r.state = .awaiting → ∃ job, s.outbox.lookup id = some job ∧ env.hash job.otp = r.otpHash ∧
    job.deliveryAddress = r.request.notificationEmail

def Confirmable : Prop := ∀ id r, s.records.lookup id = some r → HasMail env s id r

variable {env s c} {request : Request} {r : Record} {token : Str}

lemma commit_elsewhere {id : Str} (h : id ≠ c.operationID) :
    (commit env s c request).1.records.lookup id = s.records.lookup id ∧
      (commit env s c request).1.outbox.lookup id = s.outbox.lookup id := by
  unfold commit Write.store
  dsimp only
  repeat' split
  all_goals simp [AList.lookup_insert_ne h, AList.lookup_erase_ne h]

lemma commit_at (hn : s.records.lookup c.operationID = none) (h : Settled s c)
    (hr : (commit env s c request).1.records.lookup c.operationID = some r) :
    HasMail env (commit env s c request).1 c.operationID r := by
  intro _
  have hs := h hn
  cases hw : c.record with
  | failed => simp [commit, hw, Write.store, Write.landed, Write.ok, hn] at hr
  | unsynced => simp [hw, Write.landed, Write.ok] at hs
  | done =>
    cases hm : c.mail <;> cases hd : c.removed <;>
      simp [commit, hw, hm, hd, Write.store, Write.landed, Write.ok] at hr hs ⊢
    all_goals simp [← hr]

lemma Confirmable.after (hs : Confirmable env s) (h : Settled s c) : Confirmable env (after env s c) := by
  unfold RemovalMail.after beginOperation
  split
  · exact hs
  · split
    · split <;> exact hs
    · rename_i hn
      intro id r hr
      by_cases hid : id = c.operationID
      · subst hid
        exact commit_at hn h hr
      · rw [(commit_elsewhere hid).1] at hr
        unfold HasMail
        rw [(commit_elsewhere hid).2]
        exact hs id r hr

lemma commit_ok (h : (commit env s c request).2 = .ok (r, token)) :
    Settled s c ∧ (commit env s c request).1.records.lookup c.operationID = some r := by
  unfold commit at h ⊢
  dsimp only at h ⊢
  split at h
  · cases h
  · split at h
    · cases h
      simp_all [Settled, Write.store, Write.landed_of_ok]
    · split at h <;> cases h

lemma beginOperation_ok (h : (beginOperation env s c).2 = .ok (r, token)) :
    Settled s c ∧ (after env s c).records.lookup c.operationID = some r := by
  unfold RemovalMail.after
  unfold beginOperation at h ⊢
  split at h
  · cases h
  · split at h
    · rename_i hl
      split at h
      · rename_i hsame
        cases h
        rw [if_pos hsame]
        exact ⟨fun hn => absurd hl (by simp [hn]), hl⟩
      · cases h
    · exact commit_ok h

/-- When every earlier call that wrote the record left the mail beside it or took the record back, a call that returns
an awaiting record has its mail. -/
theorem begun_has_mail (hs : Confirmable env s) {es : List Call} (h : Admits (after env) Settled s es)
    (hok : (beginOperation env (run (after env) s es) c).2 = .ok (r, token)) :
    HasMail env (after env (run (after env) s es) c) c.operationID r := by
  have hrun : Along (after env) (Confirmable env) s es := along_of_admits _ (fun _ _ hs hc => hs.after hc) hs h
  obtain ⟨hset, hstored⟩ := beginOperation_ok hok
  exact hrun.last.after hset _ r hstored

def sampleID : Str := "6ba7b810-9dad-11d1-80b4-00c04fd430c8"

def asking (mail : Write) (removed : Bool) : Call :=
  ⟨sampleID, sampleID, ⟨[], [], []⟩, ⟨"a@b", false, []⟩, "code", [], 1, .done, mail, removed, .notExist⟩

def lenient : Env := ⟨id, some, true, 10, 3⟩

theorem begun_has_mail_after_failure :
    ∃ r, r.state = .awaiting ∧
      HasMail lenient (after lenient (after lenient ⟨∅, ∅⟩ (asking .failed true)) (asking .done false)) sampleID r := by
  have hrun : Admits (after lenient) Settled ⟨∅, ∅⟩ [asking .failed true] := ⟨fun _ _ => ⟨rfl, .inr rfl⟩, trivial⟩
  exact ⟨_, rfl, begun_has_mail (fun _ _ h => by simp at h) hrun (c := asking .done false) rfl⟩

theorem retry_without_mail :
    let s := after lenient ⟨∅, ∅⟩ (asking .failed false)
    ∃ r, (beginOperation lenient s (asking .done false)).2 = .ok (r, []) ∧ r.state = .awaiting ∧
      (after lenient s (asking .done false)).outbox.lookup sampleID = none := by
  exact ⟨_, rfl, rfl, rfl⟩

end FileES.RemovalMail
