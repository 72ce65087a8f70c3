import FileES.Lib.Durable
import FileES.Lib.Effects
import FileES.Lib.Maps
import FileES.Shares.Manifest
import Mathlib.Data.Vector.Basic

/-! The store of public channels: the records of shares and upload channels and the reservations of their addresses. -/

namespace FileES.Shares

open Go Lib.Fallible Lib.Maps Lib.Durable Lib.Effects

inductive StoreError
  | notFound
  | forbidden
  | slugTaken
  | inactive
  | recordConflict
  | policy
  | other (text : Str)
  | file
  deriving DecidableEq, Repr

inductive State
  | active
  | revoked
  | deleted
  deriving DecidableEq, Repr

structure Credential where
  (email tokenHash epoch : Str)
  deriving DecidableEq, Repr

structure Record where
  (schema channelID ownerRealm repoID realmAlias slug : Str)
  state : State
  manifest : Option Share
  recipients : List Credential
  (createdAt updatedAt : ℤ)
  (revokedAt deletedAt : Option ℤ)
  deriving DecidableEq, Repr

structure UploadRecord where
  (schema channelID ownerRealm realmAlias slug : Str)
  state : State
  manifest : Option Upload
  recipients : List Credential
  (createdAt updatedAt : ℤ)
  (revokedAt deletedAt : Option ℤ)
  deriving DecidableEq, Repr

structure Reservation where
  (schema ownerRealm realmAlias slug channelID : Str)
  createdAt : ℤ
  deriving DecidableEq, Repr

structure Delivery where
  (email token : Str)
  deriving DecidableEq, Repr

structure Files where
  records : Map Str Record
  uploads : Map Str UploadRecord
  (slugs addresses : Map (Str × Str) Reservation)

def Files.empty : Files := ⟨∅, ∅, ∅, ∅⟩

structure Host where
  complete : Bool
  maxChannelsPerRealm : ℕ
  passwordRequired : Bool
  lowering : Lowering
  recipientToken : Str → Str → Str → Str
  uploadRecipientToken : Str → Str → Str → Str
  sha256 : Str → List.Vector UInt8 32

structure Authority where
  ownsActiveRepository : Str → Str → Bool
  activeRealmAlias : Str → Option Str

structure Call where
  authority : Authority
  (reservedAt now : ℤ)
  clock : Str → ℤ

variable (H : Host) (c : Call) (operationID : Str) (s : Files) (requesterRealm channelID : Str)

def recordSchema : Str := "filees.public-share-channel/v1"

def slugSchema : Str := "filees.public-share-slug/v1"

def uploadRecordSchema : Str := "filees.upload-channel/v1"

def Host.email (value : Str) : Str := canonicalEmail H.lowering value

def credentialsMatch (H : Host) (want : List Str) : List Credential → Except Str Unit
  | [] => require want.isEmpty "record recipient credentials are incomplete"
  | c :: rest => do
    require (want.contains c.email && c.email = H.email c.email && (bytes c.tokenHash).length = 64)
      "record recipient credential is invalid"
    require (isHex c.tokenHash) "record recipient digest is invalid"
    require (canonicalUUID c.epoch) "record recipient epoch is invalid"
    credentialsMatch H (want.filter (· ≠ c.email)) rest

variable (realmAlias : Str) (declaration : Share) (r : Record) (ownerRealm channelSlug : Str)

def declarationMatches (declaration : Share) : Except Str Unit := do
  require (declaration.ownerRealm = r.ownerRealm && declaration.repoID = r.repoID && declaration.slug = r.slug
    && (declaration.validate H.lowering).isOk) "record declaration conflicts with envelope"
  require (r.recipients.length = declaration.recipients.length) "record credential count conflicts with recipients"
  credentialsMatch H (declaration.recipients.map H.email) r.recipients

def lifecycleOk : Except Str Unit :=
  match r.state, r.manifest with
  | .active, some declaration =>
    if r.deletedAt.isSome then .error "active record lifecycle is invalid" else declarationMatches H r declaration
  | .active, none => .error "active record lifecycle is invalid"
  | .revoked, some declaration =>
    if r.revokedAt.isNone || r.deletedAt.isSome then .error "revoked record lifecycle is invalid"
    else declarationMatches H r declaration
  | .revoked, none => .error "revoked record lifecycle is invalid"
  | .deleted, none =>
    require (r.recipients.isEmpty && r.deletedAt.isSome) "deleted record retained private state"
  | .deleted, some _ => .error "deleted record retained private state"

def validateRecord : Except Str Unit := do
  require (r.schema = recordSchema && r.createdAt ≠ 0 && r.createdAt ≤ r.updatedAt) "record metadata is invalid"
  require ([r.channelID, r.ownerRealm, r.repoID].all canonicalUUID) "record identifier is invalid"
  let _ ← slugPath H.lowering r.realmAlias r.slug
  lifecycleOk H r

def loadPath : Except StoreError Record :=
  match s.records.lookup channelID with
  | none => .error .notFound
  | some r => if (validateRecord H r).isOk then .ok r else .error (.other "stored public share channel is invalid")

def load : Except StoreError Record :=
  if isUUID channelID then loadPath H s channelID else .error .notFound

def loadUploadPath : Except StoreError UploadRecord :=
  match s.uploads.lookup channelID with
  | none => .error .notFound
  | some r =>
    if r.schema = uploadRecordSchema && r.channelID ≠ [] then .ok r
    else .error (.other "upload channel record is invalid")

def loadUpload : Except StoreError UploadRecord :=
  if isUUID channelID then loadUploadPath s channelID else .error .notFound

def names {V : Type} (m : Map Str V) : List Str :=
  m.keys.insertionSort (fun a b => a ++ ".json" ≤ b ++ ".json")

def loadAll : Except StoreError (List Record) := (names s.records).mapM (loadPath H s)

def loadAllUploads : Except StoreError (List UploadRecord) := (names s.uploads).mapM (loadUploadPath s)

def channelCount : Except StoreError ℕ :=
  (loadAll H s).map (fun rs => rs.countP (fun r => r.ownerRealm = ownerRealm && r.state ≠ .deleted))

def newestFirst (rs : List Record) : List Record :=
  rs.insertionSort (fun a b => b.updatedAt < a.updatedAt ∨ a.updatedAt = b.updatedAt ∧ a.channelID ≤ b.channelID)

def newestUploadFirst (rs : List UploadRecord) : List UploadRecord :=
  rs.insertionSort (fun a b => b.updatedAt < a.updatedAt ∨ a.updatedAt = b.updatedAt ∧ a.channelID ≤ b.channelID)

def listAll : Except StoreError (List Record) :=
  (loadAll H s).map (fun rs => newestFirst (rs.filter (·.state ≠ .deleted)))

def listOwned (repoID : Str) : Except StoreError (List Record) := do
  require H.complete (.other "public share store is incomplete")
  require (isUUID requesterRealm) .forbidden
  require (isUUID repoID) .notFound
  require (c.authority.ownsActiveRepository requesterRealm repoID) .forbidden
  (loadAll H s).map (fun rs => newestFirst
    (rs.filter (fun r => r.ownerRealm = requesterRealm && r.repoID = repoID && r.state ≠ .deleted)))

def listOwnedUploads (authorityRepoID : Str) :
    Except StoreError (List UploadRecord) := do
  require H.complete (.other "public share store is incomplete")
  require (isUUID requesterRealm) .forbidden
  require (isUUID authorityRepoID) .notFound
  require (c.authority.ownsActiveRepository requesterRealm authorityRepoID) .forbidden
  (loadAllUploads s).map (fun rs => newestUploadFirst (rs.filter (fun r => r.ownerRealm = requesterRealm
    && r.manifest.any (·.authorityRepoID = authorityRepoID) && r.state ≠ .deleted)))

def retained (old : List Credential) (email : Str) : Option Credential :=
  old.reverse.find? (fun c => H.email c.email = email)

def issueEach (H : Host) (token : Str → Str) (repeated : Str) (epoch : Str) (old : List Credential)
    (seen : List Str) : List Str → Except StoreError (List Credential × List Delivery)
  | [] => .ok ([], [])
  | raw :: rest => do
    let email := H.email raw
    require (!seen.contains email) (.other repeated)
    let (credentials, deliveries) ← issueEach H token repeated epoch old (email :: seen) rest
    match retained H old email with
    | some credential => pure (credential :: credentials, deliveries)
    | none =>
      pure (⟨email, hexEncode (H.sha256 (token email)).toList, epoch⟩ :: credentials, ⟨email, token email⟩ :: deliveries)

def sortDeliveries (ds : List Delivery) : List Delivery := ds.insertionSort (fun a b => a.email ≤ b.email)

def issue (token : Str → Str) (repeated epoch : Str) (addresses : List Str) (old : List Credential) : Except StoreError (List Credential × List Delivery) :=
  (issueEach H token repeated epoch old [] addresses).map (fun r =>
    (r.1.insertionSort (fun a b => a.email ≤ b.email), sortDeliveries r.2))

def issueRecipients (epoch : Str) :=
  issue H (H.recipientToken channelID epoch) "public share recipient list contains duplicate address" epoch

def issueUploadRecipients (epoch : Str) :=
  issue H (H.uploadRecipientToken channelID epoch) "upload channel recipient list contains duplicate address" epoch

def deliveriesForEpoch (token : Str → Str) (recipients : List Credential) (epoch : Str) : List Delivery :=
  sortDeliveries ((recipients.filter (·.epoch = epoch)).map (fun c => ⟨c.email, token c.email⟩))

abbrev M := Prog Files Write StoreError

def check (c : Bool) (e : StoreError) : M Unit := ofExcept (require c e)

def save (put : Files → Files) : M Unit := do
  let w ← ask
  update (fun s => w.store s (put s))
  check w.ok .file

def putRecord (id : Str) (r : Record) (s : Files) : Files := { s with records := s.records.insert id r }

def putUpload (id : Str) (r : UploadRecord) (s : Files) : Files := { s with uploads := s.uploads.insert id r }

def other : M Unit := do
  let w ← ask
  check w.ok .file

def validate : M Unit := do
  check H.complete (.other "public share store is incomplete")
  other

def Reservation.agrees (old want : Reservation) : Bool :=
  old.schema = slugSchema && old.channelID = want.channelID && old.ownerRealm = want.ownerRealm
    && old.realmAlias = want.realmAlias && old.slug = want.slug

def reserve (get : Files → Option Reservation) (put : Files → Files) (want : Reservation) : M Unit := do
  let s ← read
  match get s with
  | some old => check (old.agrees want) .slugTaken
  | none => save put

def ensureReservation (want : Reservation) : M Unit := do
  reserve (fun s => s.slugs.lookup (want.ownerRealm, want.slug))
    (fun s => { s with slugs := s.slugs.insert (want.ownerRealm, want.slug) want }) want
  reserve (fun s => s.addresses.lookup (want.realmAlias, want.slug))
    (fun s => { s with addresses := s.addresses.insert (want.realmAlias, want.slug) want }) want

def newRecord (recipients : List Credential) : Record where
  schema := recordSchema
  channelID := operationID
  ownerRealm := requesterRealm
  repoID := declaration.repoID
  realmAlias := realmAlias
  slug := declaration.slug
  state := .active
  manifest := some declaration
  recipients := recipients
  createdAt := c.now
  updatedAt := c.now
  revokedAt := none
  deletedAt := none

def createRecord :
    M (Record × List Delivery) := do
  let s ← read
  let count ← ofExcept (if 0 < H.maxChannelsPerRealm then channelCount H s requesterRealm else .ok 0)
  check (H.maxChannelsPerRealm = 0 || count < H.maxChannelsPerRealm) .policy
  ensureReservation ⟨slugSchema, requesterRealm, realmAlias, declaration.slug, operationID, c.reservedAt⟩
  let issued ← ofExcept (issueRecipients H operationID operationID declaration.recipients [])
  let record := newRecord c operationID requesterRealm realmAlias declaration issued.1
  save (putRecord operationID record)
  pure (record, issued.2)

def publishable : Bool :=
  !(H.passwordRequired && declaration.recipients.isEmpty && declaration.password = [])

def create :
    M (Record × List Delivery) := do
  validate H
  check (isUUID operationID) (.other "public share operation_id must be UUID")
  check (declaration.ownerRealm = requesterRealm) .forbidden
  ofExcept ((declaration.validate H.lowering).mapError .other)
  check (publishable H declaration) .policy
  check (c.authority.ownsActiveRepository requesterRealm declaration.repoID) .forbidden
  let found ← ofExcept ((c.authority.activeRealmAlias requesterRealm).elim (.error .forbidden) .ok)
  let _ ← ofExcept ((slugPath H.lowering (trimSpace found) declaration.slug).mapError .other)
  let s ← read
  match loadPath H s operationID with
  | .ok old =>
    if old.manifest = some declaration ∧ old.state = .active then
      pure (old, deliveriesForEpoch (H.recipientToken old.channelID operationID) old.recipients operationID)
    else fail .recordConflict
  | .error .notFound => createRecord H c operationID requesterRealm (trimSpace found) declaration
  | .error e => fail e

def ownedManifest (requesterRealm : Str) : Except StoreError Share :=
  match r.manifest with
  | some m => if m.ownerRealm = requesterRealm then .ok m else .error .forbidden
  | none => .error .forbidden

def preserving (current declaration : Share) (preservePassword manageInvitations : Bool) : Share :=
  { declaration with
    password := if preservePassword then current.password else declaration.password
    invitationMessage := if manageInvitations then declaration.invitationMessage else current.invitationMessage }

def updateShare (preservePassword manageInvitations : Bool) : M (Record × List Delivery) := do
  validate H
  check (isUUID operationID) (.other "public share operation_id must be UUID")
  let s ← read
  let record ← ofExcept (load H s channelID)
  let current ← ofExcept (ownedManifest record requesterRealm)
  check (record.state = .active) .inactive
  check (declaration.ownerRealm = requesterRealm && declaration.repoID = current.repoID && declaration.slug = current.slug)
    .recordConflict
  check (!preservePassword || (declaration.recipients = [] && declaration.password = [])) .recordConflict
  let declaration := preserving current declaration preservePassword manageInvitations
  ofExcept ((declaration.validate H.lowering).mapError .other)
  check (publishable H declaration) .policy
  check (c.authority.ownsActiveRepository requesterRealm declaration.repoID) .forbidden
  if current = declaration then
    pure (record, deliveriesForEpoch (H.recipientToken record.channelID operationID) record.recipients operationID)
  else do
    let issued ← ofExcept (issueRecipients H channelID operationID declaration.recipients record.recipients)
    let record := { record with manifest := some declaration, recipients := issued.1, updatedAt := c.now }
    save (putRecord channelID record)
    pure (record, issued.2)

def resend :
    M (Record × List Delivery) := do
  validate H
  check (isUUID operationID) (.other "public share operation_id must be UUID")
  let s ← read
  let record ← ofExcept (load H s channelID)
  let current ← ofExcept (ownedManifest record requesterRealm)
  check (record.ownerRealm = requesterRealm) .forbidden
  check (record.state = .active) .inactive
  check (c.authority.ownsActiveRepository requesterRealm record.repoID) .forbidden
  check (record.recipients ≠ []) .policy
  check (current = declaration) .recordConflict
  pure (record, record.recipients.map (fun k => ⟨k.email, H.recipientToken channelID k.epoch k.email⟩))

def Record.revoke (now : ℤ) : Record := { r with state := .revoked, updatedAt := now, revokedAt := some now }

def Record.delete (now : ℤ) : Record :=
  { r with state := .deleted, updatedAt := now, deletedAt := some now, manifest := none, recipients := [] }

def revoke : M Record := do
  let s ← read
  let record ← ofExcept (load H s channelID)
  let _ ← ofExcept (ownedManifest record requesterRealm)
  match record.state with
  | .deleted => fail .notFound
  | .revoked => do
    other
    pure record
  | .active => do
    save (putRecord channelID (record.revoke c.now))
    other
    pure (record.revoke c.now)

def deleteLocked (permitted : Share → Bool) : M Record := do
  let s ← read
  let record ← ofExcept (load H s channelID)
  match record.manifest with
  | none => do
    check (record.state = .deleted) .forbidden
    other
    pure record
  | some m => do
    check (permitted m) .forbidden
    save (putRecord channelID (record.delete c.now))
    other
    pure (record.delete c.now)

def delete : M Record :=
  deleteLocked H c channelID (fun m => m.ownerRealm = requesterRealm)

def deleteAsOperator : M Record :=
  deleteLocked H c channelID (fun _ => true)

def deleteOwned (channelID : Str) : M Unit := do
  let s ← read
  let record ← ofExcept (loadPath H s channelID)
  onlyIf (record.ownerRealm = ownerRealm && record.state ≠ .deleted)
    (save (putRecord channelID (record.delete (c.clock channelID))))

def deleteRealm : M Unit := do
  let s ← read
  each (deleteOwned H c ownerRealm) (names s.records)
  other

def reserveAddress (realmAlias channelSlug : Str) : M Unit := do
  validate H
  check (isUUID channelID) (.other "upload channel operation_id must be UUID")
  let _ ← ofExcept ((slugPath H.lowering realmAlias channelSlug).mapError .other)
  ensureReservation ⟨slugSchema, ownerRealm, realmAlias, channelSlug, channelID, c.reservedAt⟩

variable (declaration : Upload) (r : UploadRecord)

def newUploadRecord (recipients : List Credential) : UploadRecord where
  schema := uploadRecordSchema
  channelID := operationID
  ownerRealm := requesterRealm
  realmAlias := realmAlias
  slug := declaration.slug
  state := .active
  manifest := some declaration
  recipients := recipients
  createdAt := c.now
  updatedAt := c.now
  revokedAt := none
  deletedAt := none

def createUploadRecord :
    M (UploadRecord × List Delivery) := do
  ensureReservation ⟨slugSchema, requesterRealm, realmAlias, declaration.slug, operationID, c.reservedAt⟩
  let issued ← ofExcept (issueUploadRecipients H operationID operationID declaration.recipients [])
  let record := newUploadRecord c operationID requesterRealm realmAlias declaration issued.1
  save (putUpload operationID record)
  pure (record, issued.2)

def Upload.withPolicy (u : Upload) : Upload :=
  { u with collisionPolicy := if u.collisionPolicy = .unset then .deny else u.collisionPolicy }

def createUpload :
    M (UploadRecord × List Delivery) := do
  validate H
  check (isUUID operationID) (.other "upload channel operation_id must be UUID")
  check (declaration.ownerRealm = requesterRealm) .forbidden
  let declaration := declaration.withPolicy
  check (declaration.collisionPolicy = .deny) .policy
  ofExcept ((declaration.validate H.lowering).mapError .other)
  check (c.authority.ownsActiveRepository requesterRealm declaration.authorityRepoID) .forbidden
  let found ← ofExcept ((c.authority.activeRealmAlias requesterRealm).elim (.error .forbidden) .ok)
  let _ ← ofExcept ((slugPath H.lowering (trimSpace found) declaration.slug).mapError .other)
  let s ← read
  match loadUploadPath s operationID with
  | .ok old =>
    if old.manifest = some declaration ∧ old.state = .active then
      pure (old, deliveriesForEpoch (H.uploadRecipientToken old.channelID operationID) old.recipients operationID)
    else fail .recordConflict
  | .error .notFound => createUploadRecord H c operationID requesterRealm (trimSpace found) declaration
  | .error e => fail e

def ownedUpload (requesterRealm : Str) : Except StoreError Upload :=
  match r.manifest with
  | some m => if m.ownerRealm = requesterRealm then .ok m else .error .forbidden
  | none => .error .forbidden

def updateUpload :
    M (UploadRecord × List Delivery) := do
  validate H
  check (isUUID operationID) (.other "upload channel operation_id must be UUID")
  let s ← read
  let record ← ofExcept (loadUpload s channelID)
  let current ← ofExcept (ownedUpload record requesterRealm)
  check (record.state = .active) .inactive
  let declaration := declaration.withPolicy
  check (declaration.ownerRealm = requesterRealm && declaration.authorityRepoID = current.authorityRepoID
    && declaration.uploadRepoID = current.uploadRepoID && declaration.slug = current.slug) .recordConflict
  check (declaration.collisionPolicy = .deny) .policy
  ofExcept ((declaration.validate H.lowering).mapError .other)
  check (c.authority.ownsActiveRepository requesterRealm declaration.authorityRepoID) .forbidden
  if current = declaration then
    pure (record, deliveriesForEpoch (H.uploadRecipientToken record.channelID operationID) record.recipients operationID)
  else do
    let issued ← ofExcept (issueUploadRecipients H channelID operationID declaration.recipients record.recipients)
    let record := { record with manifest := some declaration, recipients := issued.1, updatedAt := c.now }
    save (putUpload channelID record)
    pure (record, issued.2)

def resendUpload :
    M (UploadRecord × List Delivery) := do
  validate H
  check (isUUID operationID) (.other "upload channel operation_id must be UUID")
  let s ← read
  let record ← ofExcept (loadUpload s channelID)
  let current ← ofExcept (ownedUpload record requesterRealm)
  check (record.ownerRealm = requesterRealm) .forbidden
  check (record.state = .active) .inactive
  check (c.authority.ownsActiveRepository requesterRealm current.authorityRepoID) .forbidden
  check (current = declaration) .recordConflict
  pure (record, record.recipients.map (fun k => ⟨k.email, H.uploadRecipientToken channelID k.epoch k.email⟩))

def UploadRecord.revoke (now : ℤ) : UploadRecord :=
  { r with state := .revoked, updatedAt := now, revokedAt := some now }

def UploadRecord.delete (now : ℤ) : UploadRecord :=
  { r with state := .deleted, updatedAt := now, deletedAt := some now, manifest := none, recipients := [] }

def revokeUpload : M UploadRecord := do
  let s ← read
  let record ← ofExcept (loadUpload s channelID)
  let _ ← ofExcept (ownedUpload record requesterRealm)
  match record.state with
  | .deleted => fail .notFound
  | .revoked => pure record
  | .active => do
    save (putUpload channelID (record.revoke c.now))
    pure (record.revoke c.now)

def deleteUpload : M UploadRecord := do
  let s ← read
  let record ← ofExcept (loadUpload s channelID)
  match record.manifest with
  | none => do
    check (record.state = .deleted) .forbidden
    pure record
  | some m => do
    check (m.ownerRealm = requesterRealm) .forbidden
    save (putUpload channelID (record.delete c.now))
    pure (record.delete c.now)

def reservationAt : Option Reservation :=
  if (slugPath H.lowering realmAlias channelSlug).isOk then
    (s.addresses.lookup (realmAlias, channelSlug)).filter (fun r =>
      r.schema = slugSchema && r.realmAlias = realmAlias && r.slug = channelSlug)
  else none

def resolveAddress : Except StoreError Record :=
  match reservationAt H s realmAlias channelSlug with
  | none => .error .notFound
  | some reservation =>
    match load H s reservation.channelID with
    | .error _ => .error .notFound
    | .ok r =>
      if r.state = .active ∧ r.manifest.any (·.slug = channelSlug) ∧ r.realmAlias = realmAlias ∧ r.slug = channelSlug then
        .ok r
      else .error .notFound

def resolveUploadAddress : Except StoreError UploadRecord :=
  match reservationAt H s realmAlias channelSlug with
  | none => .error .notFound
  | some reservation =>
    match loadUpload s reservation.channelID with
    | .error _ => .error .notFound
    | .ok r =>
      if r.state = .active ∧ r.manifest.any (·.slug = channelSlug) ∧ r.realmAlias = realmAlias ∧ r.slug = channelSlug then
        .ok r
      else .error .notFound

end FileES.Shares
