import FileES.Authority.Publisher

/-! The creation of repositories: the durable record of each operation, its stages, and the rollback of a creation whose
publication has failed. -/

namespace FileES.Authority

open Go Lib.Durable Lib.Effects Lib.Fallible

structure Provision where
  repoID : Str → Str
  url : Str → Except Str Str

variable (env : Env) (repoID op : Str)

def saveRecord (r : BackendRecord) : Op Unit := save (fun s => { s with backend := s.backend.insert op r })

def removeRecord : Op Unit := do
  save (fun s => { s with backend := s.backend.erase op })
  command "backend directory is not synced"

def createFSFS : Op Unit := do
  command "repositories root is not created"
  let s ← read
  if (s.trees.lookup repoID).isSome then command "lock guards"
  else do
    onlyIf (op ∉ s.staging) (save (fun s => { s with staging := op :: s.staging }))
    command "svnserve.conf is not written"
    command "lock guards"
    save (fun s => { s with staging := s.staging.erase op, trees := s.trees.insert repoID 0 })

def Service.removeTree (w : Write) (s : Service) : Service :=
  match s.trees.lookup repoID with
  | none => s
  | some n =>
    { s with
      trees := if w.landed then s.trees.erase repoID else s.trees
      removals := s.removals ++ [⟨repoID, repoID ∈ s.released, n⟩] }

def removeTree : Op Unit := do
  let w ← call
  update (Service.removeTree repoID w)
  settle w "repository is not removed"
  command "repositories root is not synced"

def rollbackTree (realmID : Str) : Op Unit := do
  ofExcept (require (isUUID repoID) "repository rollback repo ID is invalid")
  delete env repoID realmID
  removeTree repoID

def rollbackCreate (r : BackendRecord) : Op Unit :=
  match r.stage with
  | .rollbackPending => do
    rollbackTree env r.repoID r.realmID
    saveRecord op { r with stage := .rolledBack }
    removeRecord op
  | .rolledBack => removeRecord op
  | _ => fail "invalid repository rollback stage"

def Stage.failed (stage : Stage) : Bool := stage = .rollbackPending || stage = .rolledBack

def reapFailedCreate : Op Unit := do
  let s ← read
  match s.backend.lookup op with
  | none => pure ()
  | some r => onlyIf (isUUID op && r.stage.failed) (rollbackCreate env op r)

def reapFailedCreates : Op Unit := do
  let s ← read
  each (reapFailedCreate env) (sortedStrings s.backend.keys)

def startWorker : Op Unit := do
  reconcile
  reapFailedCreates env

variable (env : Env) (op : Str) (r : BackendRecord)

def resumed (realmID name : Str) (purpose : Purpose) : Except Str (BackendRecord × Bool) := do
  require (r.realmID = realmID && r.name = name) "operation parameters conflict"
  require (purpose = .none || r.purpose = .none || r.purpose = purpose) "operation purpose conflicts"
  pure (if purpose ≠ .none ∧ r.purpose = .none then ({ r with purpose := purpose }, r.stage = .published) else (r, false))

def openRecord (p : Provision) (op realmID name : Str) (purpose : Purpose) : Op (BackendRecord × Bool) := do
  let s ← read
  match s.backend.lookup op with
  | some r => ofExcept (resumed r realmID name purpose)
  | none => do
    let url ← ofExcept (p.url (p.repoID op))
    saveRecord op ⟨realmID, name, p.repoID op, url, .allocated, purpose⟩
    pure (⟨realmID, name, p.repoID op, url, .allocated, purpose⟩, false)

def publishRecord : Op Unit := publish env r.repoID r.realmID r.name r.url r.purpose

def createTree : Op BackendRecord :=
  if r.stage = .allocated then do
    createFSFS r.repoID op
    saveRecord op { r with stage := .fsfsCreated }
    pure { r with stage := .fsfsCreated }
  else pure r

def publishCreated : Op Unit :=
  match r.stage with
  | .fsfsCreated => do
    command "realm quota"
    let result ← attempt (publishRecord env r)
    match result with
    | .ok _ => saveRecord op { r with stage := .published }
    | .error e => do
      saveRecord op { r with stage := .rollbackPending }
      rollbackCreate env op { r with stage := .rollbackPending }
      fail e
  | .published => pure ()
  | _ => fail "invalid repository backend stage"

def createWithPurpose (p : Provision) (op realmID name : Str) (purpose : Purpose) : Op Unit := do
  ofExcept (require (isUUID op && isUUID realmID) "invalid UUID")
  command "backend root is not created"
  let opened ← openRecord p op realmID name purpose
  if opened.1.stage.failed then do
    rollbackCreate env op opened.1
    fail "previous repository creation was rolled back; submit a new create request"
  else do
    onlyIf opened.2 (do
      publishRecord env opened.1
      saveRecord op opened.1)
    let r ← createTree op opened.1
    publishCreated env op r

end FileES.Authority
