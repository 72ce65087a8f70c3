import FileES.Archive.Rules

/-! The server's coordinators: an archive is frozen or released in its guard and in the canonical record, behind a fence that
stops raw writes. -/

namespace FileES.Archive

open Go Lib.Calls Lib.Durable Lib.Effects Lib.Fallible Lib.Maps

structure Canonical where
  record : RepositoryRecord
  audits : Map ℕ ArchiveReleaseAudit

structure Host where
  repo : Repo
  fence : Option ArchiveAdmissionBinding
  (wc committed : Canonical)
  accepted : List Binding

abbrev Op := Prog Host Write Str

def Host.setRepo (r : Repo) (s : Host) : Host := { s with repo := r }

def onRepo {α : Type} (m : RepoOp α) : Op α := zoom Host.repo Host.setRepo m

variable (s : Host) (env : Env) (repo : Str) (c : Canonical) (a : ArchiveReleaseAudit)

def verifyCanonicalArchiveRelease (repo : Str) (a : ArchiveReleaseAudit) : Except Str Unit := do
  require (a.repoID = repo) "canonical archive audit belongs to another repository"
  match c.audits.lookup (a.previous.epoch + 1) with
  | none => .error notExist
  | some got => require (got = a) "canonical archive audit is missing or inconsistent"

def validateRepositoryArchive : Except Str Unit :=
  match c.record.archivePolicy with
  | none => .ok ()
  | some p => do
    p.validate env
    match p.release with
    | none => .ok ()
    | some a => verifyCanonicalArchiveRelease c c.record.repoID a

def checkCanonicalRepositoryWrite : Except Str Unit := do
  require (c.record.schema = repositorySchema && c.record.repoID = env.repository)
    "canonical repository authority is invalid"
  validateRepositoryArchive env c
  require (!c.record.archiveProtected) errArchiveReadOnly

def active : Str := "active"

def loadActiveRepository : Except Str RepositoryRecord := do
  require (c.record.schema = repositorySchema && c.record.repoID = repo && c.record.state = active)
    "canonical active repository is invalid"
  validateRepositoryArchive env c
  pure c.record

def Canonical.putAudit : Canonical :=
  { c with audits := c.audits.insert (a.previous.epoch + 1) a }

def Host.putAudit : Host := { s with wc := s.wc.putAudit a }

def Host.putRecord (r : RepositoryRecord) : Host := { s with wc := { s.wc with record := r } }

def Host.commit (audit : Option ArchiveReleaseAudit) : Host :=
  { s with committed := ⟨s.wc.record, match audit with
    | none => s.committed.audits
    | some a => (s.committed.putAudit a).audits⟩ }

def writeCanonicalArchiveRelease : Op Unit := do
  ofExcept (require (a.repoID = repo) "canonical archive audit repository changed")
  let s ← read
  match s.wc.audits.lookup (a.previous.epoch + 1) with
  | some got => do
    ofExcept (require (got = a) "refusing to overwrite a canonical archive audit")
    command "canonical archive audit is not synced"
  | none => do
    command "temporary file is not written"
    save (fun s => s.putAudit a) "canonical archive audit is not linked"

def writeAudit (audit : Option ArchiveReleaseAudit) : Op Unit :=
  match audit with
  | none => pure ()
  | some a => writeCanonicalArchiveRelease repo a

def publishArchivePolicy (record : RepositoryRecord) (next : RepositoryArchivePolicy) : Op Unit := do
  command "realm grant publisher is incomplete"
  ofExcept (next.validate env)
  writeAudit record.repoID next.release
  save (fun s => s.putRecord { record with archivePolicy := some next }) "repository record is not written"
  command "grant authority is not rebuilt"
  save (fun s => s.commit next.release) "publication failed"

variable (now : Time) (repo : Str) (plan : PolicyCore) (s : Host) (r : ArchiveAdmissionBinding)

def readFence : Except Str (Option ArchiveAdmissionBinding) :=
  match s.fence with
  | none => .ok none
  | some r => do
    r.validate
    pure (some r)

def fenceHeld : Bool :=
  match readFence s with
  | .error _ => true
  | .ok r => r.any (fun r => r.state = .held)

def heldFor : ArchiveAdmissionBinding :=
  ⟨archiveAdmissionSchema, repo, plan.operationID, plan.repositoryUUID, plan.revision, plan.epoch, .held, now⟩

def Host.putFence : Host := { s with fence := some r }

def Host.accept : Host :=
  { s.putFence r with accepted := s.accepted ++ [r.binding] }

def hold : Op Unit := do
  ofExcept (heldFor now repo plan).validate
  command "archive admission must be a real directory"
  command "archive admission is not locked"
  let s ← read
  let existing ← ofExcept (readFence s)
  match existing with
  | none => save (fun s => s.accept (heldFor now repo plan)) "archive admission is not written"
  | some r =>
    if r.state = .held then ofExcept (require (r.isFor repo plan) "another archive transition is pending")
    else save (fun s => s.accept (heldFor now repo plan)) "archive admission is not written"

def openedFor : ArchiveAdmissionBinding :=
  { r with state := .opened, changedAt := now }

def openFence : Op Unit := do
  command "archive admission must be a real directory"
  command "archive admission is not locked"
  let s ← read
  let existing ← ofExcept (readFence s)
  match existing with
  | none => fail "archive admission release binding changed"
  | some r => do
    ofExcept (require (r.isFor repo plan) "archive admission release binding changed")
    onlyIf (r.state ≠ .opened) (do
      ofExcept (openedFor now r).validate
      save (fun s => s.putFence (openedFor now r)) "archive admission is not written")

structure FreezeRequest where
  (realm repo operation repositoryUUID : Str)
  revision : ℤ

variable (env : Env) (now : Time) (req : FreezeRequest)

def intent (epoch : ℕ) : RepositoryArchivePolicy :=
  ⟨⟨repositoryArchivePolicySchema, req.operation, req.repositoryUUID, req.revision, epoch, .preparing, now⟩, none⟩

def freezePlan (record : RepositoryRecord) : Except Str RepositoryArchivePolicy :=
  match record.archivePolicy with
  | none => .ok (intent now req 1)
  | some p =>
    if p.state = .released then do
      require (p.epoch ≠ maxEpoch && p.operationID ≠ req.operation) "refreeze requires a new policy operation and epoch"
      pure (intent now req (p.epoch + 1))
    else do
      require (p.state ≠ .releasing && p.operationID = req.operation && p.repositoryUUID = req.repositoryUUID &&
        p.revision = req.revision) "archive operation conflicts with canonical intent"
      pure p

def RepositoryRecord.releasedPolicy (r : RepositoryRecord) : Bool := r.archivePolicy.any (fun p => p.state = .released)

def checkOperation (operation : Str) (epoch : ℕ) : RepoOp Unit := do
  let s ← read
  ofExcept (checkArchiveOperationReuse s operation epoch)

def guardPlan (repo : Str) (want : PolicyCore) : ArchiveProtectionRecord :=
  ⟨[], repo, want.repositoryUUID, want.operationID, want.epoch, .freezing, want.revision, [], [], 0⟩

def reached (want : RepositoryArchivePolicy) (runtime : ArchiveProtectionRecord) (waiting : Bool) :
    Except Str RepositoryArchivePolicy :=
  if waiting then do
    require (want.state ≠ .archived) "archived policy cannot regress to freezing"
    pure { want with state := .freezing }
  else do
    require (runtime.state = .archived) "archive is not protected at the final boundary"
    pure { want with state := .archived }

def freezeLocal (want : PolicyCore) : Op (Option Str) := do
  let result ← attempt (onRepo (freeze env now (guardPlan env.repository want)))
  match result with
  | .ok _ => pure none
  | .error e => if e = errArchiveLocks then pure (some e) else fail e

def readRuntime (message : Str) : Op ArchiveProtectionRecord := do
  let runtime ← onRepo (readProtection env)
  match runtime with
  | none => fail message
  | some r => pure r

def freezeCutOver (record : RepositoryRecord) (want : RepositoryArchivePolicy) :
    Op (RepositoryArchivePolicy × Option Str) := do
  let _ ← onRepo (checkSnapshot want.repositoryUUID want.revision "archive plan changed before the acknowledged drain")
  onlyIf record.releasedPolicy (onRepo (checkOperation want.operationID want.epoch))
  hold now env.repository want.toPolicyCore
  onlyIf (!record.archiveProtected) (publishArchivePolicy env record want)
  let waiting ← freezeLocal env now want.toPolicyCore
  onRepo (inspectHooks env true)
  let runtime ← readRuntime env "runtime archive protection does not match canonical intent"
  ofExcept (require (runtime.binding = want.binding) "runtime archive protection does not match canonical intent")
  let next ← ofExcept (reached want runtime waiting.isSome)
  publishArchivePolicy env record next
  openFence now env.repository next.toPolicyCore
  pure (next, waiting)

def freezeArchive : Op (RepositoryArchivePolicy × Option Str) := do
  ofExcept (require env.fileLocksSupported "archive freeze requires Unix server file locks")
  command "realm grant publisher is incomplete"
  let s ← read
  let record ← ofExcept (loadActiveRepository env req.repo s.wc)
  ofExcept (require (record.ownerRealmID = req.realm && record.purpose = [])
    "authenticated realm does not own an ordinary archive candidate")
  ofExcept (require (env.repository = req.repo) "archive executor repository does not match authority")
  let want ← ofExcept (freezePlan now req record)
  ofExcept (want.validate env)
  command "worker does not support archive protection"
  onRepo (paths env)
  onRepo (inspectHooks env false)
  withBarrier (freezeCutOver env now record want)

structure ArchiveReleaseRequest where
  (repoID operationID expectedOperationID repositoryUUID : Str)
  expectedEpoch : ℕ
  revision : ℤ
  reason : Str

variable (env : Env) (now : Time) (actor confirmed : Str) (req : ArchiveReleaseRequest)

def ArchiveReleaseRequest.validate (r : ArchiveReleaseRequest) : Except Str Unit := do
  require (r.expectedEpoch ≠ 0 && r.expectedEpoch ≠ maxEpoch && 0 ≤ r.revision && r.operationID ≠ r.expectedOperationID &&
    archiveReleaseText r.reason 1024) "invalid archive release request"
  require ([r.repoID, r.operationID, r.expectedOperationID, r.repositoryUUID].all canonicalUUID)
    "archive release requires canonical identities"

def ArchiveReleaseRequest.isFor (r : ArchiveReleaseRequest) (old : PolicyCore) : Bool :=
  old.state = .archived && old.epoch = r.expectedEpoch && old.operationID = r.expectedOperationID &&
    old.repositoryUUID = r.repositoryUUID && old.revision = r.revision

def releasedRuntimeMatches (r : ArchiveProtectionRecord) (p : RepositoryArchivePolicy) : Bool :=
  p.release.any (fun a => r.state = .released && r.repoID = a.repoID && r.epoch = p.epoch && r.operationID = p.operationID &&
    r.repositoryUUID = p.repositoryUUID && r.revision = p.revision && r.reason = a.reason &&
    r.previousSHA256 = env.recordDigest a.runtimeBefore)

def releaseAudit (current : PolicyCore) (runtime : ArchiveProtectionRecord) : ArchiveReleaseAudit :=
  ⟨archiveReleaseAuditSchema, req.repoID, req.operationID, actor, req.reason, now, current, env.policyDigest current, runtime⟩

def survivingAudit (c : Canonical) (audit : ArchiveReleaseAudit) : Except Str ArchiveReleaseAudit :=
  match c.audits.lookup (audit.previous.epoch + 1) with
  | none => .ok audit
  | some prior => do
    require (prior = { audit with requestedAt := prior.requestedAt })
      "archive release conflicts with an existing administrative audit"
    pure { audit with requestedAt := prior.requestedAt }

def releasePlan (c : Canonical) (current : RepositoryArchivePolicy) (runtime : ArchiveProtectionRecord) : Except Str RepositoryArchivePolicy :=
  if current.state = .archived then do
    require (req.isFor current.toPolicyCore && runtime.state = .archived && runtime.binding = current.binding)
      "archive release expected policy or runtime changed"
    let audit ← survivingAudit c (releaseAudit env now actor req current.toPolicyCore runtime)
    pure ⟨⟨repositoryArchivePolicySchema, req.operationID, current.repositoryUUID, current.revision, current.epoch + 1,
      .releasing, audit.requestedAt⟩, some audit⟩
  else do
    require ((current.state = .releasing || current.state = .released) && current.operationID = req.operationID &&
        current.release.any (fun a => req.isFor a.previous && a.actor = actor && a.reason = req.reason))
      "archive release does not match the pending administrative operation"
    pure current

def checkUnlocked (want : PolicyCore) : RepoOp Unit := do
  let head ← snapshot
  ofExcept (require (head.uuid = want.repositoryUUID && head.youngest = want.revision && !head.locked)
    "archive release boundary is changed or locked")

def releaseCutOver (record : RepositoryRecord) (current want : RepositoryArchivePolicy) (audit : ArchiveReleaseAudit) :
    Op RepositoryArchivePolicy := do
  command "administrator refused"
  ofExcept (require (confirmed = actor) "archive administrator changed before cutover")
  onlyIf (current.state ≠ .released) (onRepo (checkUnlocked want.toPolicyCore))
  onRepo (checkOperation req.operationID want.epoch)
  hold now req.repoID want.toPolicyCore
  onlyIf (current.state = .archived) (publishArchivePolicy env record want)
  onRepo (release env now audit.runtimeBefore req.operationID req.reason)
  let got ← readRuntime env "administrative runtime release was not verified"
  ofExcept (require (releasedRuntimeMatches env got want) "administrative runtime release was not verified")
  publishArchivePolicy env record { want with state := .released }
  openFence now req.repoID want.toPolicyCore
  pure { want with state := .released }

def completedBefore (runtime : ArchiveProtectionRecord) (s : Host) (repo : Str) (want : RepositoryArchivePolicy) : Except Str Bool := do
  require (releasedRuntimeMatches env runtime want) "released runtime does not match canonical authority"
  let fence ← readFence s
  match fence with
  | none => .error "archive release admission receipt is absent"
  | some r => pure (r.state = .opened || !r.isFor repo want.toPolicyCore)

def releaseCurrentPolicy (record : RepositoryRecord) (current want : RepositoryArchivePolicy) : Op RepositoryArchivePolicy :=
  match want.release with
  | none => fail "administrative release requires canonical audit"
  | some audit => withBarrier (releaseCutOver env now actor confirmed req record current want audit)

def releaseArchive :
    Op RepositoryArchivePolicy := do
  ofExcept (require env.fileLocksSupported "archive release requires Unix server file locks")
  ofExcept req.validate
  command "realm grant publisher is incomplete"
  let s ← read
  let record ← ofExcept (loadActiveRepository env req.repoID s.wc)
  ofExcept (require (record.purpose = [] && env.repository = req.repoID) "repository is not an ordinary protected archive")
  match record.archivePolicy with
  | none => fail "repository is not an ordinary protected archive"
  | some current => do
    command "administrator refused"
    ofExcept (require (archiveReleaseText actor 128) "administrative release actor is absent")
    command "worker does not support archive protection"
    onRepo (paths env)
    onRepo (inspectHooks env true)
    let runtime ← readRuntime env "archive runtime is unavailable"
    let want ← ofExcept (releasePlan env now actor req s.wc current runtime)
    ofExcept (want.validate env)
    if current.state = .released then do
      let done ← ofExcept (completedBefore env runtime s req.repoID want)
      if done then pure want else releaseCurrentPolicy env now actor confirmed req record current want
    else releaseCurrentPolicy env now actor confirmed req record current want

end FileES.Archive
