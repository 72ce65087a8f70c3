import FileES.Authority.Projection

/-! The operations of the authority on the service working copy, and the SVN commands that publish their results. -/

namespace FileES.Authority

open Go Lib.Durable Lib.Effects Lib.Fallible Lib.Maps

inductive Stage
  | allocated
  | fsfsCreated
  | published
  | rollbackPending
  | rolledBack
  | other (text : Str)
  deriving DecidableEq, Repr

structure BackendRecord where
  (realmID name repoID url : Str)
  stage : Stage
  purpose : Purpose
  deriving DecidableEq, Repr

structure Removal where
  repoID : Str
  released : Bool
  youngest : ℕ
  deriving DecidableEq, Repr

structure Service where
  (wc head : Files)
  authz : Option Authz
  channels : Option (List (Option Shares.UploadRecord))
  backend : Map Str BackendRecord
  trees : Map Str ℕ
  (staging released : List Str)
  removals : List Removal

structure Answer where
  commits : List Str
  write : Write

abbrev Op := Prog Service Answer Str

def succeeds : Answer := ⟨[], .done⟩

def calls (n : ℕ) : List Answer := List.replicate n succeeds

def Service.clientCommit (s : Service) (id : Str) : Service :=
  match s.trees.lookup id with
  | some n => if id ∈ s.released then { s with trees := s.trees.insert id (n + 1) } else s
  | none => s

def call : Op Write := do
  let a ← ask
  update (fun s => a.commits.foldl Service.clientCommit s)
  pure a.write

def settle (w : Write) (text : Str) : Op Unit := if w.ok then pure () else fail text

def save (f : Service → Service) : Op Unit := do
  let w ← call
  update (fun s => w.store s (f s))
  settle w "file is not written"

def putRepository (id : Str) (r : Repository) : Op Unit :=
  save (fun s => { s with wc := { s.wc with repositories := s.wc.repositories.insert id (some r) } })

def putView (client : Str) (v : View) : Op Unit :=
  save (fun s => { s with wc := { s.wc with views := s.wc.views.insert client (some v) } })

def putGrant (key : Str × Str) (g : Grant) : Op Unit :=
  save (fun s => { s with wc := { s.wc with grants := s.wc.grants.insert key (some g) } })

def putAuthz (a : Authz) : Op Unit := save (fun s => { s with authz := some a })

def command (text : Str) : Op Unit := do
  let w ← call
  settle w text

def revertPath (p : Place) : Op Unit := do
  let revert ← call
  update (fun s => if revert.ok && p.present s.head then { s with wc := p.copy s.head s.wc } else s)
  let status ← call
  let s ← read
  onlyIf (revert.ok && status.ok && !p.present s.head) do
    let w ← call
    update (fun s => if w.ok then { s with wc := p.copy s.head s.wc } else s)

variable (paths : List Place) (env : Env) (f : View → Except Str (Option View))

def rollback : Op Unit := each revertPath paths.reverse

def addPaths (done : List Place) : List Place → Op Unit
  | [] => pure ()
  | p :: todo => do
    let w ← call
    if w.ok then addPaths (done ++ [p]) todo
    else do
      rollback (done ++ [p])
      fail "svn add authority"

def liveIn (f : Files) : Place → Option Str
  | .repository id => ((f.repositories.lookup id).bind live).map (fun _ => id)
  | _ => none

def Service.committed (s : Service) : Service :=
  { s with head := paths.foldl (fun h p => p.copy s.wc h) s.head, released := s.released ++ paths.filterMap (liveIn s.wc) }

def publishPaths : Op Unit :=
  if paths = [] then pure ()
  else do
    addPaths [] paths
    let w ← call
    if w.ok then update (Service.committed paths)
    else do
      rollback paths
      fail "svn commit authority"

def Files.restored (head wc : Files) : Files where
  repositories := head.repositories ∪ wc.repositories
  views := head.views ∪ wc.views
  grants := head.grants ∪ wc.grants
  clients := head.clients ∪ wc.clients
  realms := head.realms ∪ wc.realms

def reconcile : Op Unit := do
  command "svn cleanup service working copy"
  let revert ← call
  update (fun s => if revert.ok then { s with wc := s.head.restored s.wc } else s)
  settle revert "svn revert service working copy"
  let cleanup ← call
  update (fun s => if cleanup.ok then { s with wc := s.head } else s)
  settle cleanup "svn cleanup service working copy"
  command "svn update service working copy"

def rewriteView (changed : List Place) (client : Str) :
    Op (List Place) := do
  let s ← read
  match s.wc.view env client with
  | none => pure changed
  | some v => do
    let next ← ofExcept (f v)
    match next with
    | none => pure changed
    | some v' => do
      ofExcept (require (v'.validate env) "client view is invalid")
      putView client v'
      pure (changed ++ [.view client])

def rewriteViews : Op (List Place) := do
  let s ← read
  s.wc.views.keys.foldlM (rewriteView env f) []

def saveProjected (before : Repositories) (changed : List Place) (e : Sigma fun _ : Str => Repository) :
    Op (List Place) :=
  if (before.lookup e.1).any (fun r => r.parentRepoID = e.2.parentRepoID && r.state = e.2.state) then pure changed
  else do
    putRepository e.1 e.2
    pure (changed ++ [.repository e.1])

def savePlan (f : Files) (repositories : Repositories) (grants : Map (Str × Str) Access)
    (saved : List Plan × List Place) (e : Sigma fun _ : Str => Client) : Op (List Plan × List Place) := do
  let plan ← ofExcept (projectClient env f repositories grants e)
  match plan.view with
  | none => pure (saved.1 ++ [plan], saved.2)
  | some v => do
    putView e.1 v
    pure (saved.1 ++ [plan], saved.2 ++ [.view e.1])

def rebuildGrantAuthority : Op (List Place) := do
  let s ← read
  let model ← ofExcept (loadGrantModel s.wc)
  let repositories ← ofExcept (projectShelfParents s.channels model.repositories)
  let changed ← repositories.entries.foldlM (saveProjected model.repositories) []
  let saved ← (sortedClients model.clients).foldlM (savePlan env s.wc repositories model.grants) ([], changed)
  onlyIf (s.authz ≠ some (renderCanonicalGrantAuthz repositories model.clients saved.1))
    (putAuthz (renderCanonicalGrantAuthz repositories model.clients saved.1))
  pure saved.2

variable (record : Repository) (env : Env) (f : Files) (repoID realmID : Str)

def validRepoID (id : Str) : Bool :=
  id ≠ [] && id ≠ ['.'] && id ≠ ['.', '.'] && !containsAny id ['/', '\\', '\x00']

def readRepository : Except Str Repository := do
  require (validRepoID repoID) "invalid repository id"
  match f.repositories.lookup repoID with
  | none => .error "file does not exist"
  | some none => .error "canonical repository record is invalid"
  | some (some r) => do
    require (r.schema = repositorySchema) "canonical repository record is invalid"
    pure r

def recordFor (name url : Str) (purpose : Purpose) : Except Str (Repository × Bool) :=
  match f.repositories.lookup repoID with
  | none => .ok (⟨repositorySchema, realmID, name, url, .initializing, [], purpose, [], none⟩, true)
  | some none => .error "canonical repository record conflicts"
  | some (some old) => do
    require (old.ownerRealmID = realmID && old.displayName = name && old.url = url)
      "canonical repository record conflicts"
    require old.archiveValid "canonical archive policy is invalid"
    require (purpose = .none || old.purpose = .none || old.purpose = purpose)
      "canonical repository purpose conflicts"
    require (old.state ≠ .deleted) "deleted repository cannot be republished"
    pure ({ old with purpose := if purpose = .none then old.purpose else purpose }, purpose ≠ .none && old.purpose = .none)

def shown : Projected where
  repoID := repoID
  displayName := record.displayName
  url := record.url
  access := ownerAccess record
  state := .initializing
  ownerRealmID := record.ownerRealmID
  attachmentPolicy := "optional"
  metadataDigest := []
  editingPolicy := record.editingPolicy
  purpose := record.purpose
  parentRepoID := record.parentRepoID

def offered (p : Projected) : Projected :=
  { p with
    parentRepoID := record.parentRepoID
    access := ownerAccess record
    purpose := if p.purpose = .none then record.purpose else p.purpose }

def replaced (g : Projected → Projected) (ps : List Projected) : List Projected :=
  ps.map (fun p => if p.repoID = repoID then g p else p)

def offer (url : Str) (record : Repository) (view : View) : Except Str (Option View) :=
  if view.realmID ≠ realmID then .ok none
  else
    match view.entry repoID with
    | none => .ok (some (view.bump (byRepoID (view.repositories ++ [shown record repoID]))))
    | some p => do
      require (p.url = url && p.ownerRealmID = realmID
          && (p.access = ownerAccess record || (ownerAccess record = .r && p.access = .rw)))
        "repository projection conflicts"
      require (record.purpose = .none || p.purpose = .none || p.purpose = record.purpose)
        "repository projection purpose conflicts"
      pure (if offered record p = p then none else some (view.bump (replaced repoID (offered record) view.repositories)))

def publish (name url : Str) (purpose : Purpose) : Op Unit := do
  ofExcept (require (validRepoID repoID) "invalid repository id")
  ofExcept (require (validPurpose purpose) "canonical repository purpose is invalid")
  let s ← read
  let record ← ofExcept (recordFor s.wc repoID realmID name url purpose)
  onlyIf record.2 (putRepository repoID record.1)
  let changed ← rewriteViews env (offer repoID realmID url record.1)
  let s ← read
  let authz ← ofExcept (renderAuthz env s.wc)
  putAuthz authz
  publishPaths (.repository repoID :: changed)

def activatable : Except Str Repository := do
  let record ← readRepository f repoID
  require (record.ownerRealmID = realmID) "authenticated realm does not own repository"
  require record.archiveValid "canonical archive policy is invalid"
  require (record.state = .initializing || record.state = .active) "repository cannot be activated"
  pure record

def healed (p : Projected) : Projected :=
  { p with
    state := if p.state = .initializing then .active else p.state
    displayName := record.displayName
    url := record.url
    ownerRealmID := record.ownerRealmID
    editingPolicy := record.editingPolicy
    purpose := record.purpose
    parentRepoID := record.parentRepoID
    access := if record.readOnly then .r else p.access }

def heal (record : Repository) (view : View) : Except Str (Option View) :=
  .ok (if view.realmID ≠ realmID ∨ replaced repoID (healed record) view.repositories = view.repositories then none
    else some (view.bump (replaced repoID (healed record) view.repositories)))

def activate : Op Unit := do
  let s ← read
  let record ← ofExcept (activatable s.wc repoID realmID)
  onlyIf (record.state ≠ .active) (putRepository repoID { record with state := .active })
  let changed ← rewriteViews env (heal repoID realmID { record with state := .active })
  publishPaths ((if record.state ≠ .active then [.repository repoID] else []) ++ changed)

def authorizeDelete : Except Str Repository := do
  require (isUUID realmID) "repository deletion realm ID is invalid"
  let record ← readRepository f repoID
  require (record.ownerRealmID = realmID) "authenticated realm does not own repository"
  require record.archiveValid "canonical archive policy is invalid"
  require (!record.archiveProtected || record.archivePolicy.any (fun p => p.state = .archived))
    "archive is read-only; use a controlled server-side append"
  pure record

def revokeFile (changed : List Place) (key : Str × Str) (file : Option Grant) : Op (List Place) :=
  match file with
  | none => fail "canonical realm grant is invalid"
  | some g => do
    ofExcept (require (g.valid key) "canonical realm grant is invalid")
    if g.access = none then pure changed
    else do
      putGrant key { g with access := none }
      pure (changed ++ [.grant key])

def revokeRepositoryGrants : Op (List Place) := do
  let s ← read
  (s.wc.grants.entries.filter (fun e => e.1.1 = repoID)).foldlM (fun changed e => revokeFile changed e.1 e.2) []

def withdrawn (view : View) : Except Str (Option View) :=
  .ok (if (view.entry repoID).isSome then some (view.bump (view.repositories.filter (fun p => p.repoID ≠ repoID))) else none)

def delete : Op Unit := do
  let s ← read
  let record ← ofExcept (authorizeDelete s.wc repoID realmID)
  onlyIf (record.state ≠ .deleted) (putRepository repoID { record with state := .deleted })
  let revoked ← revokeRepositoryGrants repoID
  let changed ← rewriteViews env (withdrawn repoID)
  let rebuilt ← rebuildGrantAuthority env
  publishPaths (.repository repoID :: (revoked ++ changed ++ rebuilt))

variable (f : Files) (env : Env) (owner recipient repoID : Str)

def loadActiveRepository : Except Str Repository := do
  let record ← readRepository f repoID
  require (record.state = .active) "canonical active repository is invalid"
  require record.archiveValid "canonical archive policy is invalid"
  pure record

def loadOwnedRepository (ownerRealmID repoID : Str) : Except Str Repository := do
  let record ← loadActiveRepository f repoID
  require (record.ownerRealmID = ownerRealmID) "authenticated realm does not own repository"
  pure record

def boundary (env : Env) (repoID : Str) (old : Option Grant) : Except Str (Option ℤ × Str) :=
  match env.repositoryHead with
  | none => if old.isNone then .ok (none, []) else .error "regrant requires authoritative repository revision"
  | some head =>
    match head repoID with
    | none => .error "cannot establish ownership grant boundary"
    | some (number, uuid) => do
      require (0 ≤ number) "cannot establish ownership grant boundary"
      require (isUUID uuid) "invalid ownership repository incarnation"
      require (old.all (fun g => g.cutoffUUID ≠ uuid || g.cutoffRevision.all (fun cutoff => cutoff ≤ number)))
        "ownership history moved behind regrant boundary"
      pure (some number, uuid)

def freshGrant (old : Option Grant) : Except Str Grant := do
  let cutoff ← boundary env repoID old
  pure ⟨owner, some .rw, cutoff.1, cutoff.2⟩

def grantRecord (key : Str × Str) (access : Access) (old : Option (Option Grant)) :
    Except Str (Option Grant) :=
  match old, access with
  | none, .r => .ok (some ⟨owner, some .r, none, []⟩)
  | none, .rw => (freshGrant env owner key.1 none).map some
  | some none, _ => .error "canonical realm grant conflicts"
  | some (some g), .r => do
    require (g.valid key && g.ownerRealmID = owner) "canonical realm grant conflicts"
    pure (some { g with access := some .r })
  | some (some g), .rw => do
    require (g.valid key && g.ownerRealmID = owner) "canonical realm grant conflicts"
    if g.access = some .rw then pure none else (freshGrant env owner key.1 (some g)).map some

def grantRequest (f : Files) (owner recipient repoID : Str) (access : Access) :
    Except Str (Option Grant) := do
  require (owner ≠ recipient) "repository owner already has rw access"
  let repo ← loadOwnedRepository f owner repoID
  require (access ≠ .rw || !repo.archiveProtected) "archive is read-only; use a controlled server-side append"
  require ((f.realms.lookup recipient).any Realm.active) "recipient realm is not active"
  require (isUUID repoID && isUUID recipient) "realm grant identifiers must be UUID"
  grantRecord env owner (repoID, recipient) access (f.grants.lookup (repoID, recipient))

def grant (access : Access) : Op Unit := do
  let s ← read
  let next ← ofExcept (grantRequest env s.wc owner recipient repoID access)
  match next with
  | none => pure ()
  | some g => do
    onlyIf (access = .r && (s.wc.grants.lookup (repoID, recipient)).isSome) (command "sessions are not stopped")
    putGrant (repoID, recipient) g
    let changed ← rebuildGrantAuthority env
    publishPaths (.grant (repoID, recipient) :: changed)

def revokeRequest : Except Str Grant := do
  let _ ← loadOwnedRepository f owner repoID
  require (isUUID repoID && isUUID recipient) "realm grant identifiers must be UUID"
  match f.grants.lookup (repoID, recipient) with
  | none => .error "file does not exist"
  | some none => .error "canonical realm grant is invalid"
  | some (some g) => do
    require (g.valid (repoID, recipient) && g.ownerRealmID = owner) "canonical realm grant is invalid"
    pure g

def revokeGrant : Op Unit := do
  let s ← read
  let g ← ofExcept (revokeRequest s.wc owner recipient repoID)
  command "sessions are not stopped"
  putGrant (repoID, recipient) { g with access := none }
  let changed ← rebuildGrantAuthority env
  publishPaths (.grant (repoID, recipient) :: changed)

def withdrawGrant (realmID : Str) (changed : List Place) (repoID : Str) : Op (List Place) := do
  let s ← read
  match s.wc.grants.lookup (repoID, realmID) with
  | none => fail "file does not exist"
  | some file => revokeFile changed (repoID, realmID) file

def withdrawRealmGrants (realmID : Str) (repoIDs : List Str) : Op Unit := do
  ofExcept (require (isUUID realmID && repoIDs.all isUUID) "realm grant withdrawal identifiers must be UUID")
  let revoked ← repoIDs.dedup.foldlM (withdrawGrant realmID) []
  let changed ← rebuildGrantAuthority env
  publishPaths (revoked ++ changed)

def transferable (f : Files) (repoID : Str) : Except Str Repository := do
  let record ← readRepository f repoID
  require record.archiveValid "canonical archive policy is invalid"
  require (!record.archiveProtected) "archive is read-only; use a controlled server-side append"
  require (record.state ≠ .deleted) "deleted repository cannot be transferred"
  pure record

def transferAccess (record : Repository) : Access := if record.purpose = .uploadShelf then .r else .rw

def transferred (record : Repository) (p : Projected) : Projected :=
  { p with ownerRealmID := record.ownerRealmID, access := transferAccess record }

def reassign (repoID old : Str) (record : Repository) (view : View) : Except Str (Option View) :=
  if view.realmID = old then withdrawn repoID view
  else if view.realmID = record.ownerRealmID then
    match view.entry repoID with
    | some _ => .ok (some (view.bump (replaced repoID (transferred record) view.repositories)))
    | none => .ok (some (view.bump (byRepoID (view.repositories ++
        [{ shown record repoID with access := transferAccess record, state := record.state }]))))
  else .ok none

def transferOwner (env : Env) (repoID newRealmID : Str) : Op Unit := do
  let s ← read
  let record ← ofExcept (transferable s.wc repoID)
  if record.ownerRealmID = newRealmID then pure ()
  else do
    putRepository repoID { record with ownerRealmID := newRealmID }
    let revoked ← revokeRepositoryGrants repoID
    let changed ← rewriteViews env (reassign repoID record.ownerRealmID { record with ownerRealmID := newRealmID })
    let rebuilt ← rebuildGrantAuthority env
    publishPaths (.repository repoID :: (revoked ++ changed ++ rebuilt))

def lockRequired : Str := "lock_required"

def normalizeEditingPolicy (policy : Str) : Str := if policy = "free" then [] else policy

def editable (f : Files) (realmID repoID policy : Str) : Except Str Repository := do
  require (isUUID realmID) "editing policy realm_id must be UUID"
  require (policy = [] || policy = "free" || policy = lockRequired)
    "editing policy must be free or lock_required"
  let record ← loadOwnedRepository f realmID repoID
  require (!record.archiveProtected) "archive is read-only; use a controlled server-side append"
  pure record

def setRepositoryEditingPolicy (env : Env) (realmID repoID policy : Str) : Op Unit := do
  let s ← read
  let record ← ofExcept (editable s.wc realmID repoID policy)
  onlyIf (policy = lockRequired) (command "lock guards")
  if record.editingPolicy = normalizeEditingPolicy policy then pure ()
  else do
    putRepository repoID { record with editingPolicy := normalizeEditingPolicy policy }
    let changed ← rebuildGrantAuthority env
    publishPaths (.repository repoID :: changed)

def rebuild (env : Env) : Op Unit := do
  let changed ← rebuildGrantAuthority env
  publishPaths changed

inductive Operation
  | publish (repoID realmID name url : Str) (purpose : Purpose)
  | activate (repoID realmID : Str)
  | delete (repoID realmID : Str)
  | grant (owner recipient repoID : Str) (access : Access)
  | revokeGrant (owner recipient repoID : Str)
  | transferOwner (repoID newRealmID : Str)
  | withdrawRealmGrants (realmID : Str) (repoIDs : List Str)
  | setRepositoryEditingPolicy (realmID repoID policy : Str)
  | rebuild

def perform (env : Env) : Operation → Op Unit
  | .publish repoID realmID name url purpose => publish env repoID realmID name url purpose
  | .activate repoID realmID => activate env repoID realmID
  | .delete repoID realmID => delete env repoID realmID
  | .grant owner recipient repoID access => grant env owner recipient repoID access
  | .revokeGrant owner recipient repoID => revokeGrant env owner recipient repoID
  | .transferOwner repoID newRealmID => transferOwner env repoID newRealmID
  | .withdrawRealmGrants realmID repoIDs => withdrawRealmGrants env realmID repoIDs
  | .setRepositoryEditingPolicy realmID repoID policy => setRepositoryEditingPolicy env realmID repoID policy
  | .rebuild => rebuild env

end FileES.Authority
