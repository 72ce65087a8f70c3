import FileES.Go.Text
import FileES.Lib.Calls
import FileES.Lib.Fallible
import FileES.Lib.Maps

/-! The records that an archived repository leaves behind, and how the guard inside it is read, frozen and released. -/

namespace FileES.Archive

open Go Lib.Calls Lib.Durable Lib.Effects Lib.Fallible Lib.Maps

abbrev Time := ℤ

def maxEpoch : ℕ := 2 ^ 64 - 1

structure Binding where
  (operationID repositoryUUID : Str)
  revision : ℤ
  epoch : ℕ
  deriving DecidableEq, Repr

def isDigest (s : Str) : Bool := isHex s && byteLen s = 64 && s.map lowerASCII = s

def archiveGuardVersion : Str := "filees.archive-protection/v1"

inductive GuardState
  | freezing
  | archived
  | released
  deriving DecidableEq, Repr

structure ArchiveProtectionRecord where
  (schema repoID repositoryUUID operationID : Str)
  epoch : ℕ
  state : GuardState
  revision : ℤ
  (reason previousSHA256 : Str)
  atTime : Time
  deriving DecidableEq, Repr

namespace ArchiveProtectionRecord

variable (r : ArchiveProtectionRecord)

def validate : Except Str Unit := do
  require (r.schema = archiveGuardVersion && r.epoch ≠ 0 && 0 ≤ r.revision && r.atTime ≠ 0)
    "invalid archive protection record"
  require ([r.repoID, r.repositoryUUID, r.operationID].all canonicalUUID) "archive protection requires canonical UUIDs"
  require (byteLen r.reason ≤ 1024 && '\x00' ∉ r.reason &&
      (r.state ≠ .released || (trimSpace r.reason ≠ [] && r.previousSHA256 ≠ [])))
    "administrative archive release requires a bounded reason"
  require (r.previousSHA256 = [] || isDigest r.previousSHA256) "invalid preceding archive protection digest"

def binding : Binding := ⟨r.operationID, r.repositoryUUID, r.revision, r.epoch⟩

def event : ℕ × GuardState := (r.epoch, r.state)

end ArchiveProtectionRecord

def repositoryArchivePolicySchema : Str := "filees.repository-archive-policy/v1"

def archiveReleaseAuditSchema : Str := "filees.archive-admin-release/v1"

inductive PolicyState
  | preparing
  | freezing
  | archived
  | releasing
  | released
  deriving DecidableEq, Repr

structure PolicyCore where
  (schema operationID repositoryUUID : Str)
  revision : ℤ
  epoch : ℕ
  state : PolicyState
  startedAt : Time
  deriving DecidableEq, Repr

structure ArchiveReleaseAudit where
  (schema repoID operationID actor reason : Str)
  requestedAt : Time
  previous : PolicyCore
  previousSHA256 : Str
  runtimeBefore : ArchiveProtectionRecord
  deriving DecidableEq, Repr

structure RepositoryArchivePolicy extends PolicyCore where
  release : Option ArchiveReleaseAudit
  deriving DecidableEq, Repr

def PolicyCore.binding (p : PolicyCore) : Binding := ⟨p.operationID, p.repositoryUUID, p.revision, p.epoch⟩

structure Env where
  fileLocksSupported : Bool
  (repository executable : Str)
  recordDigest : ArchiveProtectionRecord → Str
  policyDigest : PolicyCore → Str
  recordDigest_isDigest : ∀ r, isDigest (recordDigest r) = true

def PolicyCore.validate (p : PolicyCore) : Except Str Unit := do
  require (p.schema = repositoryArchivePolicySchema && 0 ≤ p.revision && p.epoch ≠ 0 && p.startedAt ≠ 0)
    "canonical archive policy is invalid"
  require ([p.operationID, p.repositoryUUID].all canonicalUUID) "canonical archive policy contains invalid UUID"

def archiveReleaseText (text : Str) (limit : ℕ) : Bool :=
  byteLen text ≤ limit && trimSpace text ≠ [] && !containsAny text ['\x00', '\r', '\n']

def ArchiveReleaseAudit.validatePolicy (env : Env) (a : ArchiveReleaseAudit) (p : PolicyCore) : Except Str Unit := do
  require (a.schema = archiveReleaseAuditSchema && a.requestedAt ≠ 0 && archiveReleaseText a.actor 128 &&
    archiveReleaseText a.reason 1024) "invalid canonical administrative release audit"
  require ([a.repoID, a.operationID].all canonicalUUID) "invalid release audit identity"
  require (a.previous.state = .archived && a.previous.validate.isOk && a.previous.epoch ≠ maxEpoch &&
      a.operationID ≠ a.previous.operationID && a.previousSHA256 = env.policyDigest a.previous)
    "release audit does not bind an archived policy"
  require (a.runtimeBefore.validate.isOk && a.runtimeBefore.state = .archived && a.runtimeBefore.repoID = a.repoID &&
    a.runtimeBefore.binding = a.previous.binding) "release audit runtime binding is invalid"
  require (p.operationID = a.operationID && p.epoch = a.previous.epoch + 1 && p.repositoryUUID = a.previous.repositoryUUID &&
      p.revision = a.previous.revision && p.startedAt = a.requestedAt)
    "release policy differs from its administrative audit"

def RepositoryArchivePolicy.validate (env : Env) (p : RepositoryArchivePolicy) : Except Str Unit := do
  p.toPolicyCore.validate
  if p.state = .releasing ∨ p.state = .released then
    match p.release with
    | none => .error "administrative release requires canonical audit"
    | some audit => audit.validatePolicy env p.toPolicyCore
  else require p.release.isNone "unexpected archive release audit"

structure RepositoryRecord where
  (schema repoID ownerRealmID purpose state : Str)
  archivePolicy : Option RepositoryArchivePolicy
  deriving DecidableEq, Repr

def repositorySchema : Str := "filees.repository/v1"

def RepositoryRecord.archiveProtected (r : RepositoryRecord) : Bool := r.archivePolicy.any (fun p => p.state ≠ .released)

def archiveAdmissionSchema : Str := "filees.archive-admission/v1"

inductive FenceState
  | held
  | opened
  deriving DecidableEq, Repr

structure ArchiveAdmissionBinding where
  (schema repoID operationID repositoryUUID : Str)
  revision : ℤ
  epoch : ℕ
  state : FenceState
  changedAt : Time
  deriving DecidableEq, Repr

namespace ArchiveAdmissionBinding

variable (r : ArchiveAdmissionBinding)

def validate : Except Str Unit := do
  require (r.schema = archiveAdmissionSchema && r.epoch ≠ 0 && 0 ≤ r.revision && r.changedAt ≠ 0)
    "invalid archive admission state"
  require ([r.repoID, r.operationID, r.repositoryUUID].all canonicalUUID) "invalid archive admission identity"

def binding : Binding := ⟨r.operationID, r.repositoryUUID, r.revision, r.epoch⟩

def isFor (repo : Str) (p : PolicyCore) : Bool :=
  r.repoID = repo && r.operationID = p.operationID && r.epoch = p.epoch && r.repositoryUUID = p.repositoryUUID &&
    r.revision = p.revision

lemma isFor_iff {r : ArchiveAdmissionBinding} {repo : Str} {p : PolicyCore} :
    r.isFor repo p = true ↔ r.repoID = repo ∧ r.binding = p.binding := by
  simp only [isFor, binding, PolicyCore.binding, Binding.mk.injEq, Bool.and_eq_true, decide_eq_true_eq]
  tauto

end ArchiveAdmissionBinding

inductive HookName
  | preCommit
  | preLock
  | preUnlock
  | preRevpropChange
  deriving DecidableEq, Repr

def HookName.text : HookName → Str
  | .preCommit => "pre-commit"
  | .preLock => "pre-lock"
  | .preUnlock => "pre-unlock"
  | .preRevpropChange => "pre-revprop-change"

inductive Hook
  | symlink (target : Str)
  | file (content : Str)
  deriving DecidableEq, Repr

def archiveGuardHooks : List HookName := [.preCommit, .preLock, .preUnlock, .preRevpropChange]

structure Guard where
  policy : Option ArchiveProtectionRecord
  events : Map (ℕ × GuardState) ArchiveProtectionRecord

structure Repo where
  hooks : HookName → Option Hook
  guard : Option Guard
  uuid : Str
  youngest : ℤ
  locked : Bool
  history : List ArchiveProtectionRecord

abbrev RepoOp := Prog Repo Write Str

def errArchiveReadOnly : Str := "archive is read-only; use a controlled server-side append"

def errArchiveLocks : Str := "archive freeze is waiting for existing locks to be released"

def notExist : Str := "file does not exist"

def canceled : Str := "context canceled"

variable (env : Env) (s : Repo)

def readArchiveAudit (g : Guard) (event : ℕ × GuardState) : Except Str (Option ArchiveProtectionRecord) :=
  match g.events.lookup event with
  | none => .ok none
  | some r => do
    r.validate
    pure (some r)

def readPolicy (g : Guard) (r : ArchiveProtectionRecord) :
    Except Str ArchiveProtectionRecord := do
  r.validate
  require (r.repoID = env.repository) "archive protection belongs to another repository"
  require (readArchiveAudit g r.event = .ok (some r)) "archive protection audit is missing or inconsistent"
  require (s.uuid = r.repositoryUUID) "archive protection repository UUID changed"
  pure r

def readArchiveProtection : Except Str (Option ArchiveProtectionRecord) := do
  require (canonicalUUID env.repository) "archive protection repository must have its canonical ID"
  match s.guard with
  | none => pure none
  | some g =>
    match g.policy with
    | none => .error notExist
    | some r => do
      let r ← readPolicy env s g r
      pure (some r)

def checkArchiveWrite : Except Str Unit :=
  match s.guard with
  | none => .ok ()
  | some _ => do
    let r ← (readArchiveProtection env s).mapError ("cannot establish archive protection: " ++ ·)
    require (r.any (fun r => r.state = .released)) errArchiveReadOnly

def foreignHook (name : HookName) : Str :=
  "preserving existing " ++ name.text ++ ": explicit hook integration required"

def inspectHook (executable : Str) (required : Bool) (name : HookName) (hook : Option Hook) : Except Str Unit :=
  match hook with
  | none => require (!required) notExist
  | some (.symlink target) => require (target = executable) (foreignHook name)
  | some (.file _) => .error (foreignHook name)

def inspectArchiveHooks (required : Bool) (s : Repo) : Except Str Unit := do
  let _ ← archiveGuardHooks.mapM (fun name => inspectHook env.executable required name (s.hooks name))
  pure ()

def checkReuse (operation : Str) (epoch : ℕ) (e : Sigma fun _ : ℕ × GuardState => ArchiveProtectionRecord) :
    Except Str Unit := do
  e.2.validate
  require (e.1 = e.2.event) "invalid archive audit event name"
  require (e.2.epoch ≤ epoch) "archive audit is ahead of the requested epoch"
  require (!(e.2.epoch < epoch && e.2.operationID = operation)) "archive policy operation was already used"

def checkArchiveOperationReuse (operation : Str) (epoch : ℕ) : Except Str Unit :=
  match s.guard with
  | none => .error notExist
  | some g => do
    let _ ← g.events.entries.mapM (checkReuse operation epoch)
    pure ()

variable (r : ArchiveProtectionRecord)

def Repo.putEvent : Repo :=
  { s with guard := s.guard.map (fun g => { g with events := g.events.insert r.event r }) }

def Repo.putPolicy : Repo :=
  { s with guard := s.guard.map (fun g => { g with policy := some r }), history := s.history ++ [r] }

def Repo.putHook (name : HookName) (hook : Hook) : Repo :=
  { s with hooks := fun n => if n = name then some hook else s.hooks n }

def dated (prior : Option ArchiveProtectionRecord) : ArchiveProtectionRecord :=
  match prior with
  | none => r
  | some p => { r with atTime := p.atTime }

def writeArchiveProtection : RepoOp Unit := do
  ofExcept r.validate
  let s ← read
  match s.guard with
  | none => fail notExist
  | some g => do
    let prior ← ofExcept (readArchiveAudit g r.event)
    ofExcept (require (prior.all (fun p => p = dated r prior)) "conflicting archive protection audit event")
    command "temporary file is not written"
    onlyIf prior.isNone (save (fun s => s.putEvent (dated r prior)) "event is not linked")
    command "temporary file is not written"
    save (fun s => s.putPolicy (dated r prior)) "policy is not replaced"

def readProtection (env : Env) : RepoOp (Option ArchiveProtectionRecord) := do
  command "archive protection is not readable"
  let s ← read
  ofExcept (readArchiveProtection env s)

def inspectHooks (env : Env) (required : Bool) : RepoOp Unit := do
  let s ← read
  ofExcept (inspectArchiveHooks env required s)

def snapshot : RepoOp Repo := do
  command "svnlook failed"
  read

def checkSnapshot (repositoryUUID : Str) (revision : ℤ) (message : Str) : RepoOp Repo := do
  let head ← snapshot
  ofExcept (require (head.uuid = repositoryUUID && head.youngest = revision) message)
  pure head

def withBarrier {σ α : Type} (action : Prog σ Write Str α) : Prog σ Write Str α := do
  command "sessions are not stopped"
  command canceled
  let a ← action
  command "session barrier failed"
  command canceled
  pure a

def paths (env : Env) : RepoOp Unit := do
  command "repository is not usable"
  ofExcept (require (canonicalUUID env.repository) "archive protection repository must have its canonical ID")

variable (want : ArchiveProtectionRecord)

def freezingRecord (now : Time) (want : ArchiveProtectionRecord) : ArchiveProtectionRecord :=
  { want with schema := archiveGuardVersion, state := .freezing, reason := [], atTime := now }

def refreeze (env : Env) (want existing : ArchiveProtectionRecord) : RepoOp ArchiveProtectionRecord := do
  ofExcept (require (existing.epoch ≠ maxEpoch && want.epoch = existing.epoch + 1 && want.operationID ≠ existing.operationID)
    "archive refreeze requires a new operation and policy epoch")
  let s ← read
  ofExcept (checkArchiveOperationReuse s want.operationID want.epoch)
  command "policy is not readable"
  writeArchiveProtection { want with previousSHA256 := env.recordDigest existing }
  pure { want with previousSHA256 := env.recordDigest existing }

def resume (existing : ArchiveProtectionRecord) : RepoOp ArchiveProtectionRecord := do
  ofExcept (require (existing.binding = want.binding) "archive protection belongs to another policy transition")
  pure existing

def freezeFirst : RepoOp ArchiveProtectionRecord := do
  ofExcept (require (want.epoch = 1 && want.previousSHA256 = []) "initial archive protection requires its first policy epoch")
  save (fun s => { s with guard := some ⟨none, ∅⟩ }) "directory is not created"
  writeArchiveProtection want
  pure want

def enterFreezing : RepoOp ArchiveProtectionRecord := do
  let existing ← readProtection env
  match existing with
  | none => freezeFirst want
  | some existing => if existing.state = .released then refreeze env want existing else resume want existing

def installHook (name : HookName) : RepoOp Unit := do
  command "hook is not readable"
  let s ← read
  onlyIf (s.hooks name).isNone (save (fun s => s.putHook name (.symlink env.executable)) "hook is not installed")

def enterArchived : RepoOp Unit := do
  let head ← checkSnapshot want.repositoryUUID want.revision "archive boundary changed during installation"
  ofExcept (require (!head.locked) errArchiveLocks)
  onlyIf (want.state ≠ .archived) (writeArchiveProtection { want with state := .archived })

def freezeGuarded : RepoOp Unit := do
  command canceled
  let _ ← checkSnapshot want.repositoryUUID want.revision "archive plan revision or UUID changed"
  let want ← enterFreezing env want
  each (installHook env) archiveGuardHooks
  command "hooks are not synced"
  inspectHooks env true
  command canceled
  enterArchived want

def freeze (now : Time) (want : ArchiveProtectionRecord) : RepoOp Unit := do
  ofExcept (require env.fileLocksSupported "archive transitions require supported Unix server file locks")
  ofExcept (freezingRecord now want).validate
  command "worker does not support archive protection"
  paths env
  ofExcept (require (want.repoID = env.repository) "archive plan repository mismatch")
  command "lock guard file is not locked"
  inspectHooks env false
  withBarrier (freezeGuarded env (freezingRecord now want))

variable (now : Time) (current expected : ArchiveProtectionRecord) (operationID reason : Str)

def releasedRecord :
    ArchiveProtectionRecord :=
  { current with
    state := .released
    operationID := operationID
    reason := reason
    previousSHA256 := env.recordDigest expected
    epoch := current.epoch + 1
    atTime := now }

def sameRelease : Bool :=
  current.state = .released && current.operationID = operationID && current.reason = reason &&
    current.epoch = expected.epoch + 1 && current.previousSHA256 = env.recordDigest expected

def releaseCurrent :
    RepoOp Unit := do
  ofExcept (require (current = expected) "archive release binding changed")
  ofExcept (releasedRecord env now current expected operationID reason).validate
  let s ← read
  ofExcept (checkArchiveOperationReuse s operationID (current.epoch + 1))
  command canceled
  writeArchiveProtection (releasedRecord env now current expected operationID reason)

def releaseGuarded :
    RepoOp Unit := do
  command canceled
  let current ← readProtection env
  ofExcept expected.validate
  match current with
  | none => fail "archive release binding changed"
  | some current => do
    ofExcept (require (expected.state ≠ .released && expected.epoch ≠ maxEpoch) "archive release binding changed")
    inspectHooks env true
    if sameRelease env current expected operationID reason then pure ()
    else releaseCurrent env now current expected operationID reason

def release : RepoOp Unit := do
  ofExcept (require env.fileLocksSupported "archive transitions require supported Unix server file locks")
  paths env
  command "lock guard file is not locked"
  withBarrier (releaseGuarded env now expected operationID reason)

end FileES.Archive
