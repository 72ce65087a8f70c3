import FileES.Shares.Channel

/-! The canonical records of the service working copy and the view that each client is shown, and what they say: who may
do what in which repository. A file stands under the name that its content gives; one that does not decode is `none`. -/

namespace FileES.Authority

open Go Lib.Fallible Lib.Maps

inductive Access
  | r
  | rw
  deriving DecidableEq, Repr

inductive RepositoryState
  | initializing
  | active
  | deleted
  | other (text : Str)
  deriving DecidableEq, Repr

inductive Purpose
  | none
  | uploadShelf
  | uploadTrash
  | other (text : Str)
  deriving DecidableEq, Repr

def validPurpose : Purpose → Bool
  | .other _ => false
  | _ => true

inductive ArchiveState
  | preparing
  | freezing
  | archived
  | releasing
  | released
  deriving DecidableEq, Repr

structure ArchivePolicy where
  state : ArchiveState
  valid : Bool
  deriving DecidableEq, Repr

def repositorySchema : Str := "filees.repository/v1"

structure Repository where
  (schema ownerRealmID displayName url : Str)
  state : RepositoryState
  editingPolicy : Str
  purpose : Purpose
  parentRepoID : Str
  archivePolicy : Option ArchivePolicy
  deriving DecidableEq, Repr

variable (r : Repository) (f : Files)

def Repository.archiveValid : Bool := r.archivePolicy.all ArchivePolicy.valid

def Repository.archiveProtected : Bool := r.archivePolicy.any (fun p => p.state ≠ .released)

def Repository.archiveReadOnly : Bool :=
  r.archivePolicy.any (fun p => p.state ≠ .released && p.state ≠ .freezing)

def Repository.readOnly : Bool := r.purpose = .uploadShelf || r.archiveReadOnly

structure Projected where
  (repoID displayName url : Str)
  access : Access
  state : RepositoryState
  (ownerRealmID attachmentPolicy metadataDigest editingPolicy : Str)
  purpose : Purpose
  parentRepoID : Str
  deriving DecidableEq, Repr

inductive Role
  | normal
  | ro
  deriving DecidableEq, Repr

structure View where
  (realmID realmAlias : Str)
  generation : ℕ
  role : Role
  repositories : List Projected
  lockRequests : List Str
  deriving DecidableEq, Repr

structure Grant where
  ownerRealmID : Str
  access : Option Access
  cutoffRevision : Option ℤ
  cutoffUUID : Str
  deriving DecidableEq, Repr

structure Client where
  realmID : Str
  (active mobile : Bool)
  deriving DecidableEq, Repr

structure Realm where
  realmAlias : Str
  active : Bool
  deriving DecidableEq, Repr

structure Files where
  repositories : Map Str (Option Repository)
  views : Map Str (Option View)
  grants : Map (Str × Str) (Option Grant)
  clients : Map Str (Option Client)
  realms : Map Str Realm

structure Env where
  (validURL validAlias : Str → Bool)
  repositoryHead : Option (Str → Option (ℤ × Str))

def RepositoryState.shown : RepositoryState → Bool
  | .initializing => true
  | .active => true
  | .deleted => false
  | .other text => text = "disabled" || text = "revoked"

def Projected.valid (env : Env) (role : Role) (p : Projected) : Bool :=
  isUUID p.repoID && trimSpace p.displayName ≠ [] && !containsAny p.displayName ['\x00', '\r', '\n'] && env.validURL p.url
    && (role ≠ .ro || p.access = .r) && p.state.shown && (p.ownerRealmID = [] || isUUID p.ownerRealmID)
    && (p.attachmentPolicy = [] || p.attachmentPolicy = "optional" || p.attachmentPolicy = "required")
    && (p.editingPolicy = [] || p.editingPolicy = "lock_required") && validPurpose p.purpose
    && (p.parentRepoID = [] || (isUUID p.parentRepoID && p.purpose = .uploadShelf && p.parentRepoID ≠ p.repoID))

def View.validate (env : Env) (v : View) : Bool :=
  isUUID v.realmID && (v.realmAlias = [] || env.validAlias v.realmAlias) && 1 ≤ v.generation
    && v.repositories.all (Projected.valid env v.role) && (v.repositories.map Projected.repoID).Nodup
    && v.lockRequests.all (fun id => id ∈ v.repositories.map Projected.repoID)

def Files.view (env : Env) (f : Files) (client : Str) : Option View :=
  (f.views.lookup client).join.filter (View.validate env)

def View.entry (v : View) (id : Str) : Option Projected := v.repositories.find? (fun p => p.repoID = id)

def View.bump (v : View) (repositories : List Projected) : View :=
  { v with repositories := repositories, generation := v.generation + 1 }

def byRepoID (ps : List Projected) : List Projected := ps.insertionSort (fun p q => p.repoID ≤ q.repoID)

def Grant.valid (key : Str × Str) (g : Grant) : Bool :=
  (g.cutoffUUID = [] || (isUUID g.cutoffUUID && g.cutoffRevision.isSome)) && g.cutoffRevision.all (fun n => 0 ≤ n)
    && isUUID key.1 && isUUID g.ownerRealmID && isUUID key.2 && g.ownerRealmID ≠ key.2

inductive Place
  | repository (id : Str)
  | view (client : Str)
  | grant (key : Str × Str)
  deriving DecidableEq, Repr

def Place.copy (p : Place) (src dst : Files) : Files :=
  match p with
  | .repository id => { dst with repositories := transfer src.repositories dst.repositories id }
  | .view client => { dst with views := transfer src.views dst.views client }
  | .grant key => { dst with grants := transfer src.grants dst.grants key }

def Place.present (p : Place) (f : Files) : Bool :=
  match p with
  | .repository id => (f.repositories.lookup id).isSome
  | .view client => (f.views.lookup client).isSome
  | .grant key => (f.grants.lookup key).isSome

structure Rule where
  members : List Str
  access : Access
  deriving DecidableEq, Repr

abbrev Authz := List (Str × List Rule)

def Rule.gives (client : Str) (access : Access) (rule : Rule) : Bool := client ∈ rule.members && rule.access = access

def Authz.access (a : Authz) (client repoID : Str) : Option Access :=
  let rules := (a.lookup repoID).getD []
  if rules.any (Rule.gives client .rw) then some .rw
  else if rules.any (Rule.gives client .r) then some .r
  else none

def sortedStrings (l : List Str) : List Str := l.insertionSort (· ≤ ·)

abbrev Repositories := Map Str Repository

structure Model where
  repositories : Repositories
  grants : Map (Str × Str) Access
  clients : Map Str Client

def checkRepository : Option Repository → Except Str Repository
  | none => .error "canonical repository record is invalid"
  | some r => do
    require (r.schema = repositorySchema) "canonical repository record is invalid"
    require r.archiveValid "canonical archive policy is invalid"
    pure r

def live : Option Repository → Option Repository
  | none => none
  | some r => if r.state = .deleted then none else some r

def liveRepositories : Repositories := filterMap (fun _ => live) f.repositories

def checkGrant (repositories : Repositories) (key : Str × Str) : Option Grant → Except Str Unit
  | none => .error "canonical realm grant is invalid"
  | some g => do
    require (g.valid key) "canonical realm grant is invalid"
    require (g.access.isNone || (repositories.lookup key.1).any (fun r => r.ownerRealmID = g.ownerRealmID))
      "canonical realm grant owner conflicts with repository"

def activeGrants : Map (Str × Str) Access := filterMap (fun _ g => g.bind Grant.access) f.grants

def checkClient (id : Str) : Option Client → Except Str Unit
  | none => .error "canonical client record is invalid"
  | some c => require (!c.active || isUUID id) "canonical client record is invalid"

def activeClients : Map Str Client := filterMap (fun _ c => c.filter Client.active) f.clients

def loadGrantModel : Except Str Model := do
  let _ ← f.repositories.entries.mapM (fun e => checkRepository e.2)
  let _ ← f.grants.entries.mapM (fun e => checkGrant (liveRepositories f) e.1 e.2)
  let _ ← f.clients.entries.mapM (fun e => checkClient e.1 e.2)
  pure ⟨liveRepositories f, activeGrants f, activeClients f⟩

def resetParent : Repository := if r.purpose = .uploadShelf then { r with parentRepoID := [] } else r

def activated (record : Shares.UploadRecord) (parent shelf : Repository) : RepositoryState :=
  if record.state = .active ∧ parent.state = .active ∧ shelf.state = .initializing then .active else shelf.state

def projectShelf (repositories : Repositories) : Option Shares.UploadRecord → Except Str Repositories
  | none => .error "invalid upload channel during shelf projection"
  | some record => do
    require (record.schema = Shares.uploadRecordSchema) "invalid upload channel during shelf projection"
    match record.manifest with
    | none => pure repositories
    | some manifest =>
      if record.state = .deleted then pure repositories
      else
        match repositories.lookup manifest.uploadRepoID, repositories.lookup manifest.authorityRepoID with
        | some shelf, some parent => do
          require (shelf.purpose = .uploadShelf && parent.purpose = .none && shelf.ownerRealmID = record.ownerRealm
              && parent.ownerRealmID = record.ownerRealm && manifest.uploadRepoID ≠ manifest.authorityRepoID)
            "upload shelf authority mismatch"
          require (shelf.parentRepoID = [] || shelf.parentRepoID = manifest.authorityRepoID)
            "conflicting upload shelf parents"
          pure (repositories.insert manifest.uploadRepoID
            { shelf with parentRepoID := manifest.authorityRepoID, state := activated record parent shelf })
        | _, _ => pure repositories

def projectShelfParents (channels : Option (List (Option Shares.UploadRecord))) (repositories : Repositories) :
    Except Str Repositories :=
  match channels with
  | none => .ok repositories
  | some records => records.foldlM projectShelf (mapVal resetParent repositories)

variable (mobile : Bool) (grants : Map (Str × Str) Access) (id : Str) (repo : Repository)

def baseAccess (realmID id : Str) (repo : Repository) : Option Access :=
  if repo.ownerRealmID = realmID then some .rw else grants.lookup (id, realmID)

def clientAccess (requested : Option Projected) (access : Access) : Option Access :=
  if mobile then
    if repo.purpose = .none then requested.map (fun p => if p.access = .r then .r else access) else none
  else some access

def limited (role : Role) (repo : Repository) (access : Access) : Access :=
  if role = .ro || repo.readOnly then .r else access

def projectedAccess (realmID : Str) (role : Role) (mobile : Bool) (current : Option Projected) (id : Str) (repo : Repository) : Option Access := do
  let base ← baseAccess grants realmID id repo
  let access ← clientAccess mobile repo current base
  pure (limited role repo access)

def attachmentPolicy (current : Option Projected) : Str :=
  match current with
  | none => "optional"
  | some p => if mobile || p.attachmentPolicy ≠ [] then p.attachmentPolicy else "optional"

def projected (mobile : Bool) (current : Option Projected) (access : Access) :
    Projected where
  repoID := id
  displayName := repo.displayName
  url := repo.url
  access := access
  state := repo.state
  ownerRealmID := repo.ownerRealmID
  attachmentPolicy := attachmentPolicy mobile current
  metadataDigest := (current.map Projected.metadataDigest).getD []
  editingPolicy := repo.editingPolicy
  purpose := repo.purpose
  parentRepoID := repo.parentRepoID

def projectedRepositories (repositories : Repositories) (grants : Map (Str × Str) Access) (mobile : Bool)
    (view : View) : List Projected :=
  byRepoID (repositories.entries.filterMap (fun e =>
    (projectedAccess grants view.realmID view.role mobile (view.entry e.1) e.1 e.2).map
      (projected e.1 e.2 mobile (view.entry e.1))))

variable (env : Env) (repositories : Repositories) (clients : Map Str Client)

def checkRealm (f : Files) (view : View) : Except Str Realm :=
  match f.realms.lookup view.realmID with
  | none => .error "client projection realm record is invalid"
  | some realm => if realm.active then .ok realm else .error "client projection realm record is invalid"

structure Plan where
  client : Str
  next : List Projected
  view : Option View

def planFor (grants : Map (Str × Str) Access) (client : Str) (mobile : Bool) (view : View) (realm : Realm) : Plan where
  client := client
  next := projectedRepositories repositories grants mobile view
  view :=
    if view.repositories = projectedRepositories repositories grants mobile view ∧ view.realmAlias = realm.realmAlias then none
    else some { view.bump (projectedRepositories repositories grants mobile view) with realmAlias := realm.realmAlias }

def checkPlan (plan : Plan) : Except Str Plan :=
  if plan.view.all (View.validate env) then .ok plan else .error "client view is invalid"

def projectClient (f : Files) (repositories : Repositories) (grants : Map (Str × Str) Access) (e : Sigma fun _ : Str => Client) : Except Str Plan :=
  match f.view env e.1 with
  | none => .error "client view is invalid"
  | some view => do
    require (view.realmID = e.2.realmID) "client projection realm conflicts with canonical client"
    let realm ← checkRealm f view
    checkPlan env (planFor repositories grants e.1 e.2.mobile view realm)

inductive Group
  | owner
  | writer
  | reader
  deriving DecidableEq, Repr

variable (repo : Repository)

def groupOf (client : Option Client) (access : Access) : Group :=
  if access = .r || repo.readOnly then .reader
  else if client.any (fun c => c.realmID = repo.ownerRealmID) then .owner
  else .writer

def accessIn (next : List Projected) (id : Str) : Option Access :=
  (next.find? (fun p => p.repoID = id)).map Projected.access

def members (plans : List Plan) (id : Str) (repo : Repository) (group : Group) :
    List Str :=
  sortedStrings ((plans.filter (fun plan =>
    (accessIn plan.next id).any (fun access => groupOf repo (clients.lookup plan.client) access = group))).map Plan.client)

def renderCanonicalGrantAuthz (plans : List Plan) : Authz :=
  (sortedStrings repositories.keys).filterMap (fun id => (repositories.lookup id).map (fun repo =>
    (id, [⟨members clients plans id repo .owner, .rw⟩, ⟨members clients plans id repo .writer, .rw⟩,
      ⟨members clients plans id repo .reader, .r⟩])))

def sortedClients : List (Sigma fun _ : Str => Client) :=
  clients.entries.insertionSort (fun a b => a.1 ≤ b.1)

def canonicalAuthz (channels : Option (List (Option Shares.UploadRecord))) (f : Files) :
    Except Str Authz := do
  let model ← loadGrantModel f
  let repositories ← projectShelfParents channels model.repositories
  let plans ← (sortedClients model.clients).mapM (projectClient env f repositories model.grants)
  pure (renderCanonicalGrantAuthz repositories model.clients plans)

def ownerAccess : Access := if repo.readOnly then .r else .rw

def ownerMember (id : Str) (view : View) : Bool :=
  view.realmID = repo.ownerRealmID &&
    view.repositories.any (fun p => p.repoID = id && (p.access = .rw || (repo.readOnly && p.access = .r)))

def ownerMembers (env : Env) (f : Files) (id : Str) (repo : Repository) : List Str :=
  sortedStrings (f.views.keys.filter (fun client => (f.view env client).any (ownerMember repo id)))

def renderAuthz (env : Env) (f : Files) : Except Str Authz := do
  let _ ← f.repositories.entries.mapM (fun e => checkRepository e.2)
  pure ((sortedStrings (liveRepositories f).keys).filterMap (fun id =>
    ((liveRepositories f).lookup id).map (fun repo => (id, [⟨ownerMembers env f id repo, ownerAccess repo⟩]))))

end FileES.Authority
