import FileES.Go.UUID
import FileES.Lib.Calls
import FileES.Lib.Fallible
import FileES.Lib.Maps

/-! The records of the installations that a server admits, the access files rendered from them, and the operations of the
activation manager. Each runs under the activation lock, except that the revocation of a realm takes the lock again for
every client. -/

namespace FileES.Activation

open Go Lib.Calls Lib.Durable Lib.Effects Lib.Fallible Lib.Maps

abbrev Time := ℤ

inductive State
  | staged
  | active
  | revoking
  | revoked
  | expired
  | other (text : Str)
  deriving DecidableEq, Repr

structure MobileRepositoryGrant where
  (repoID access attachmentPolicy : Str)
  deriving DecidableEq, Repr

structure Record where
  (deployRequestID clientID realmID kind : Str)
  repositories : List MobileRepositoryGrant
  (installationPublicKey installationFingerprint : Str)
  state : State
  (createdAt expiresAt : Time)
  activatedAt : Option Time
  serviceRevision : ℤ
  revokedAt : Option Time
  revokeReason : Str
  deriving DecidableEq, Repr

structure ParsedKey where
  marshalled : Str
  ed25519 : Bool
  (fingerprint comment : Str)
  options : List Str
  rest : Str
  deriving DecidableEq, Repr

structure Env where
  parseKey : Str → Option ParsedKey
  encodedLength : Str → Record → ℕ
  (clientEntryPath mobileEntryPath : Str)
  (singleActivationPerRealm dataAuthzFile demoRealm serviceWorkingCopyHeld : Bool)

def kindMobile : Str := "mobile"

def kindDesktop : Str := "desktop"

def Record.live (r : Record) : Bool := r.state = .staged || r.state = .active

def readable (env : Env) (operationID : Str) (r : Record) : Bool := env.encodedLength operationID r ≤ 64 * 1024

def readFile (env : Env) (operationID : Str) (r : Record) : Except Str Record := do
  require (readable env operationID r) "activation JSON exceeds 64 KiB"
  pure r

abbrev Records := Map Str Record

def recordsLocked (env : Env) (records : Records) : Except Str (List (Sigma fun _ : Str => Record)) := do
  let entries ← records.entries.mapM (fun e => do
    let r ← readFile env e.1 e.2
    pure ⟨e.1, r⟩)
  pure (entries.insertionSort (fun e e' => e.2.clientID ≤ e'.2.clientID))

structure KeyLine where
  (entryPath operationID clientID key : Str)
  deriving DecidableEq, Repr

structure ServiceAuthz where
  (proof clients : List Str)
  alerts : List (Str × List Str)
  deriving DecidableEq, Repr

variable (env : Env) (records : List (Sigma fun _ : Str => Record))

def entryPath (r : Record) : Except Str Str :=
  if r.kind = kindMobile then do
    require (env.mobileEntryPath ≠ []) ("activation record " ++ r.clientID ++
      " is kind mobile but mobile_entry_path is not configured")
    pure env.mobileEntryPath
  else pure env.clientEntryPath

def keyLine (operationID : Str) (r : Record) : Except Str KeyLine :=
  match env.parseKey r.installationPublicKey with
  | none => .error "ssh: no key found"
  | some key => do
    let path ← entryPath env r
    pure ⟨path, operationID, r.clientID, key.marshalled⟩

def authorizedKeys : Except Str (List KeyLine) :=
  (records.filter (fun e => e.2.live)).mapM (fun e => keyLine env e.1 e.2)

def alertReaders (realmID : Str) : List Str :=
  (records.filter (fun e => e.2.state = .active && (e.2.kind = [] || e.2.kind = kindDesktop) && e.2.realmID = realmID)).map
    (fun e => e.2.clientID)

def serviceAuthz : ServiceAuthz where
  proof := (records.filter (fun e => e.2.live)).map (fun e => e.2.clientID)
  clients := (records.filter (fun e => e.2.state = .active)).map (fun e => e.2.clientID)
  alerts := (((records.map (fun e => e.2.realmID)).dedup.filter (fun id => alertReaders records id ≠ [])).insertionSort
    (· ≤ ·)).map (fun id => (id, alertReaders records id))

structure Grant where
  (operationID deployRequestID clientID realmID kind : Str)
  repositories : List MobileRepositoryGrant
  (installationPublicKey installationFingerprint : Str)
  expiresAt : Time
  deriving DecidableEq, Repr

variable (env : Env) (now : Time) (grant : Grant)

def validateGrant : Except Str Str := do
  require (isUUID grant.operationID) "activation operation_id must be a UUID"
  require (isUUID grant.deployRequestID) "activation deploy_request_id must be a UUID"
  require (isUUID grant.clientID) "activation client_id must be a UUID"
  require (isUUID grant.realmID) "activation realm_id must be a UUID"
  match env.parseKey (trimSpace grant.installationPublicKey) with
  | none => .error "activation key must be one commented Ed25519 public key"
  | some key => do
    require (key.ed25519 && key.options = [] && trimSpace key.rest = [] && key.comment ≠ [])
      "activation key must be one commented Ed25519 public key"
    require (key.fingerprint = grant.installationFingerprint) "activation key fingerprint mismatch"
    require (grant.expiresAt ≠ 0) "activation expiry is required"
    pure (key.marshalled ++ [' '] ++ key.comment)

def sameGrant (operationID : Str) (r : Record) (grant : Grant) (canonical : Str) : Bool :=
  operationID = grant.operationID && r.deployRequestID = grant.deployRequestID && r.clientID = grant.clientID &&
    r.realmID = grant.realmID && r.kind = grant.kind && r.installationPublicKey = canonical &&
    r.installationFingerprint = grant.installationFingerprint

def stagedRecord (canonical : Str) (now : Time) : Record where
  deployRequestID := grant.deployRequestID
  clientID := grant.clientID
  realmID := grant.realmID
  kind := grant.kind
  repositories := grant.repositories
  installationPublicKey := canonical
  installationFingerprint := grant.installationFingerprint
  state := .staged
  createdAt := now
  expiresAt := grant.expiresAt
  activatedAt := none
  serviceRevision := 0
  revokedAt := none
  revokeReason := []

def validateRevokeReason (reason : Str) : Except Str Str := do
  require (trimSpace reason ≠ [] && byteLen (trimSpace reason) ≤ 200 && !containsAny (trimSpace reason) ['\r', '\n'])
    "revoke reason must be 1..200 characters on one line"
  pure (trimSpace reason)

structure Receipt where
  clientID : Str
  time : Time
  deriving DecidableEq, Repr

structure Move where
  operationID : Str
  old : Option State
  new : State
  deriving DecidableEq, Repr

structure Session where
  (operationID clientID realmID : Str)
  startedAt : Time
  deriving DecidableEq, Repr

structure Host where
  records : Records
  receipts : Map Str Receipt
  keys : List KeyLine
  authz : ServiceAuthz
  fences : Map Str Bool
  moves : List Move
  admitted : List Session

inductive ServicePath
  | client (clientID : Str)
  | view (clientID : Str)
  | revokeAudit (operationID : Str)
  deriving DecidableEq, Repr

abbrev Revisions := ServicePath → ℤ

abbrev Op := Prog Host Write Str

def Host.putRecord (s : Host) (operationID : Str) (r : Record) : Host :=
  { s with
    records := s.records.insert operationID r
    moves := s.moves ++ [⟨operationID, (s.records.lookup operationID).map Record.state, r.state⟩] }

def saveRecord (operationID : Str) (r : Record) : Op Unit :=
  save (fun s => s.putRecord operationID r) "record is not written"

def notExist : Str := "file does not exist"

def readRecord (s : Host) (operationID : Str) : Except Str Record :=
  match s.records.lookup operationID with
  | none => .error notExist
  | some r => readFile env operationID r

def renderAccess : Op Unit := do
  let s ← read
  let records ← ofExcept (recordsLocked env s.records)
  let keys ← ofExcept (authorizedKeys env records)
  save (fun s => { s with keys := keys }) "authorized_keys is not written"
  save (fun s => { s with authz := serviceAuthz records }) "authz is not written"

def expireRecord (e : Sigma fun _ : Str => Record) : Op Unit :=
  onlyIf (e.2.state = .staged && !decide (now < e.2.expiresAt)) (do
    saveRecord e.1 { e.2 with state := .expired }
    tryTo (fun s => { s with receipts := s.receipts.erase e.1 }))

def expireStaged : Op Unit := do
  let s ← read
  let records ← ofExcept (recordsLocked env s.records)
  each (expireRecord now) records

def checkFence (s : Host) (realmID : Str) : Except Str Unit :=
  match s.fences.lookup realmID with
  | none => .ok ()
  | some true => .error "activation realm is being removed"
  | some false => .error "realm removal admission fence is invalid"

def checkSingle (s : Host) (realmID : Str) : Except Str Unit :=
  if env.singleActivationPerRealm then do
    let records ← recordsLocked env s.records
    require (records.all (fun e => e.2.realmID ≠ realmID)) "this server allows one activation per realm"
  else .ok ()

def stageNew (canonical : Str) (s : Host) : Op Unit := do
  ofExcept (checkFence s grant.realmID)
  ofExcept (checkSingle env s grant.realmID)
  saveRecord grant.operationID (stagedRecord grant canonical now)
  renderAccess env

def stage : Op Unit := do
  let canonical ← ofExcept (validateGrant env grant)
  command "records directory is not created"
  command "proofs directory is not created"
  expireStaged env now
  let s ← read
  match s.records.lookup grant.operationID with
  | none => stageNew env now grant canonical s
  | some r => do
    let existing ← ofExcept (readFile env grant.operationID r)
    ofExcept (require (sameGrant grant.operationID existing grant canonical) "activation record conflicts with staged identity")
    renderAccess env

def cleanupExpired : Op Unit := do
  expireStaged env now
  renderAccess env

variable (env : Env) (now : Time) (operationID clientID : Str)

def recordProofLocked : Op Record := do
  let s ← read
  let r ← ofExcept (readRecord env s operationID)
  if r.clientID = clientID ∧ r.state = .staged ∧ now < r.expiresAt then do
    save (fun s => { s with receipts := s.receipts.insert operationID ⟨clientID, now⟩ }) "receipt is not written"
    pure r
  else if r.clientID = clientID ∧ r.state = .active then pure r
  else fail "proof does not match one live staged or active client"

def recordProof : Op Unit := do
  ofExcept (require (isUUID operationID) "proof operation_id must be a UUID")
  ofExcept (require (isUUID clientID) "proof client_id must be a UUID")
  let _ ← recordProofLocked env now operationID clientID

def claimSession : Op Session := do
  ofExcept (require (isUUID operationID) "session operation_id must be a UUID")
  ofExcept (require (isUUID clientID) "session client_id must be a UUID")
  command "installation is stopped"
  let r ← recordProofLocked env now operationID clientID
  ofExcept (require r.live "session record is not active")
  command "session lease is not created"
  update (fun s => { s with admitted := s.admitted ++ [⟨operationID, clientID, r.realmID, now⟩] })
  pure ⟨operationID, clientID, r.realmID, now⟩

def sessionAllowed (s : Host) (now : Time) (operationID clientID : Str) : Bool :=
  match readRecord env s operationID with
  | .error _ => false
  | .ok r => r.clientID = clientID && (r.state = .active || (r.state = .staged && now < r.expiresAt))

variable (env : Env) (svn : Revisions)

def reconcileServiceWorkingCopy : Op Unit := do
  command "svn cleanup service working copy"
  command "svn revert service working copy"
  command "svn cleanup service working copy"
  command "svn update service working copy"

def withServiceWorkingCopy {α : Type} (env : Env) (m : Op α) : Op α :=
  if env.serviceWorkingCopyHeld then m
  else do
    reconcileServiceWorkingCopy
    let result ← attempt m
    match result with
    | .ok a => pure a
    | .error e => do
      let _ ← attempt reconcileServiceWorkingCopy
      fail e

def hasProof (s : Host) (now : Time) (grant : Grant) : Except Str Receipt := do
  require (now < grant.expiresAt) "activation expired before possession proof was finalized"
  match s.receipts.lookup grant.operationID with
  | none => .error notExist
  | some receipt => do
    require (receipt.clientID = grant.clientID && receipt.time ≤ grant.expiresAt) "possession receipt does not match activation"
    pure receipt

def svnInfo (path : ServicePath) (text : Str) : Op ℤ := do
  command text
  ofExcept (require (0 < svn path) "svn returned invalid service revision")
  pure (svn path)

def publishServiceFiles (clientID : Str) : Op ℤ := do
  command "service realm file"
  command "service bootstrap file"
  command "client, view and audit files are not written"
  onlyIf env.demoRealm (command "demo file is not written")
  command "svn add service activation"
  command "svn status service activation"
  command "svn commit service activation"
  svnInfo svn (.client clientID) "svn info service activation"

def rebuildDataAuthority : Op Unit := onlyIf env.dataAuthzFile (command "grant authority is not rebuilt")

def publishGrants (clientID : Str) (revision : ℤ) : Op ℤ :=
  if env.dataAuthzFile then do
    rebuildDataAuthority env
    let latest ← svnInfo svn (.view clientID) "svn info service grant projection"
    pure (max revision latest)
  else pure revision

def publish (now : Time) (grant : Grant) : Op ℤ := do
  let canonical ← ofExcept (validateGrant env grant)
  withServiceWorkingCopy env (do
    let s ← read
    let r ← ofExcept (readRecord env s grant.operationID)
    if r.state = .active ∧ sameGrant grant.operationID r grant canonical then pure r.serviceRevision
    else do
      let receipt ← ofExcept (hasProof s now grant)
      ofExcept (require (r.state = .staged && sameGrant grant.operationID r grant canonical) "activation record is not publishable")
      let published ← publishServiceFiles env svn r.clientID
      let revision ← publishGrants env svn r.clientID published
      saveRecord grant.operationID { r with state := .active, activatedAt := some receipt.time, serviceRevision := revision }
      renderAccess env
      pure revision)

variable (env : Env) (svn : Revisions) (now : Time) (clientID realmID reason : Str)

def closing (r : Record) : Record :=
  { r with state := .revoking, revokedAt := some now, revokeReason := reason }

def closed (text : Str) (r : Record) : Except Str (Record × Bool) :=
  if r.live then .ok (closing now reason r, true)
  else do
    require (r.state = .revoking && r.revokeReason = reason && r.revokedAt.isSome) text
    pure (r, false)

def publishRevocation (operationID clientID : Str) : Op ℤ := do
  command "client file is not written"
  command "audit directory is not created"
  command "audit file is not written"
  command "svn add service revoke"
  command "svn commit service revoke"
  let client ← svnInfo svn (.client clientID) "svn info service revoke"
  let audit ← svnInfo svn (.revokeAudit operationID) "svn info service revoke"
  ofExcept (require (client = audit) "svn returned inconsistent revoke revision")
  pure audit

def selectClient (records : List (Sigma fun _ : Str => Record)) :
    Except Str (Sigma fun _ : Str => Record) :=
  match records.filter (fun e => e.2.clientID = clientID) with
  | [] => .error notExist
  | [e] => .ok e
  | _ => .error "multiple activation records for client"

def revokeClient : Op ℤ := do
  let s ← read
  let records ← ofExcept (recordsLocked env s.records)
  let selected ← ofExcept (selectClient clientID records)
  if selected.2.state = .revoked then do
    ofExcept (require (selected.2.revokeReason = reason) "client was already revoked for a different reason")
    pure selected.2.serviceRevision
  else do
    let next ← ofExcept (closed now reason "client is not revocable from its current state" selected.2)
    onlyIf next.2 (saveRecord selected.1 next.1)
    renderAccess env
    let revision ← publishRevocation svn selected.1 selected.2.clientID
    rebuildDataAuthority env
    saveRecord selected.1 { next.1 with state := .revoked, serviceRevision := revision }
    renderAccess env
    pure revision

def revoke (env : Env) (svn : Revisions) (now : Time) (clientID reason : Str) : Op ℤ := do
  ofExcept (require (isUUID clientID) "revoke client_id must be a UUID")
  let reason ← ofExcept (validateRevokeReason reason)
  withServiceWorkingCopy env (revokeClient env svn now clientID reason)

def closeRecord (targets : List Str) (e : Sigma fun _ : Str => Record) :
    Op (List Str) :=
  if e.2.realmID ≠ realmID ∨ e.2.state = .revoked then pure targets
  else do
    let next ← ofExcept (closed now reason ("client " ++ e.2.clientID ++ " is not revocable from its current state") e.2)
    onlyIf next.2 (saveRecord e.1 next.1)
    pure (targets ++ [e.2.clientID])

def closeRealm : Op (List Str) := do
  let s ← read
  let records ← ofExcept (recordsLocked env s.records)
  let targets ← records.foldlM (closeRecord now realmID reason) []
  renderAccess env
  pure targets

def revokeRealm : Op (List Str) := do
  ofExcept (require (isUUID realmID) "revoke realm_id must be a UUID")
  let reason ← ofExcept (validateRevokeReason reason)
  let targets ← closeRealm env now realmID reason
  each (fun clientID => do let _ ← revoke env svn now clientID reason) targets
  pure targets

end FileES.Activation
