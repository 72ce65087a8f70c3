import FileES.Lib.Runs
import FileES.Shares.Channel

/-! The tickets of the control plane that reach the store of public channels, their validation, and the worker's services
between ticket and store. -/

namespace FileES.Shares

open Go Lib.Fallible Lib.Durable Lib.Effects

structure ShareDeclaration where
  manageInvitations : Bool
  invitationMessage : Str
  resendInvitations : Bool
  (repoID sourceRoot slug : Str)
  recipients : List Str
  passwordHash : Str
  doNotFollow : Option ℤ
  objects : List Object
  deriving DecidableEq, Repr

structure UploadDeclaration where
  manageInvitations : Bool
  invitationMessage : Str
  resendInvitations : Bool
  (authorityRepoID slug : Str)
  kind : Kind
  recipients : List Str
  requireOTP : Bool
  collisionPolicy : CollisionPolicy
  deriving DecidableEq, Repr

def validateUUID (field value : Str) : Except Str Unit :=
  require (isUUID value) (field ++ " must be UUID")

def validatePlainEmail (value : Str) : Bool :=
  let value := trimSpace value
  value ≠ [] && byteLen value ≤ 254 && !containsAny value ['<', '>', '\r', '\n', '\t', ' ']
    && (beforeLast '@' value).any (· ≠ []) && value.getLast? ≠ some '@' && value.count '@' = 1

def validateRecipients (L : Lowering) (seen : List Str) : List Str → Except Str Unit
  | [] => .ok ()
  | raw :: rest => do
    require (validatePlainEmail raw) "recipient address is invalid"
    require (!seen.contains (toLower L (trimSpace raw))) "recipient list contains duplicate address"
    validateRecipients L (toLower L (trimSpace raw) :: seen) rest

def validatePublicSharePath (field value : Str) : Except Str Unit := do
  require (value ≠ [] && value = trimSpace value && !hasPrefix value ['/'] && !containsAny value ['\\', '\x00']
    && !contains value "//") (field ++ " is not a canonical repository-relative path")
  require ((value.splitOn '/').all (fun segment => segment ≠ [] && segment ≠ "." && segment ≠ ".."))
    (field ++ " contains a relative segment")

def validateObject (sourceRoot : Str) (index : ℕ) (seen : List Str) (object : Object) : Except Str Unit := do
  require (16 ≤ byteLen object.publicID && byteLen object.publicID ≤ 64)
    (objectField index "].public_id has invalid length")
  require (object.publicID.all letterOrDigit) (objectField index "].public_id is invalid")
  require (!seen.contains object.publicID) "object_map contains duplicate public_id"
  validatePublicSharePath (objectField index "].repo_path") object.repoPath
  require (sourceRoot = ['.'] || hasPrefix object.repoPath (sourceRoot ++ ['/']))
    (objectField index "].repo_path is outside source_root")
  require (trimSpace object.displayName ≠ [] && byteLen object.displayName ≤ 512
    && !containsAny object.displayName ['\x00', '\r', '\n']) (objectField index "].display_name is invalid")
  require (object.size.all (0 ≤ ·)) (objectField index "].size is invalid")

def validateObjects (sourceRoot : Str) (index : ℕ) (seen : List Str) : List Object → Except Str Unit
  | [] => .ok ()
  | object :: rest => do
    validateObject sourceRoot index seen object
    validateObjects sourceRoot (index + 1) (object.publicID :: seen) rest

def normalized (L : Lowering) (slug : Str) : Bool :=
  match normalize L slug with
  | .ok value => value = slug
  | .error _ => false

def validatePublicShareDeclaration (L : Lowering) (p : ShareDeclaration) : Except Str Unit := do
  require (p.manageInvitations || (p.invitationMessage = [] && !p.resendInvitations))
    "invitation options require explicit management"
  require (!p.resendInvitations || p.recipients ≠ []) "resend requires a closed share"
  validateInvitationMessage p.invitationMessage
  validateUUID "repo_id" p.repoID
  require (canonicalUUID p.repoID) "repo_id must be a canonical UUID"
  require (normalized L p.slug) "slug must be normalized"
  if p.sourceRoot = ['.'] then pure () else validatePublicSharePath "source_root" p.sourceRoot
  require (p.recipients.length ≤ 256) "recipients exceeds 256 addresses"
  require (p.recipients = [] || p.passwordHash = []) "closed share cannot carry a shared password"
  require (p.passwordHash = [] || (byteLen p.passwordHash ≤ 512 && (validatePasswordVerifier p.passwordHash).isOk))
    "password_hash is not a bounded Argon2id verifier"
  validateRecipients L [] p.recipients
  require (p.doNotFollow.all (1 ≤ ·)) "do-not-follow must be at least 1"
  require (p.objects.length ≤ 4096) "object_map must contain at most 4096 objects"
  validateObjects p.sourceRoot 0 [] p.objects

def validateUploadChannelDeclaration (L : Lowering) (p : UploadDeclaration) : Except Str Unit := do
  require (p.manageInvitations || (p.invitationMessage = [] && !p.resendInvitations))
    "invitation options require explicit support"
  validateInvitationMessage p.invitationMessage
  validateUUID "authority_repo_id" p.authorityRepoID
  require (normalized L p.slug) "slug must be normalized"
  require (p.recipients ≠ []) "upload channel requires a recipient list"
  require (p.recipients.length ≤ 256) "recipients exceeds 256 addresses"
  validateRecipients L [] p.recipients
  require (p.collisionPolicy = .unset || p.collisionPolicy = .deny) "collision_policy must be deny"

inductive Ticket
  | createPublicShare (d : ShareDeclaration)
  | updatePublicShare (channelID : Str) (keepPassword : Bool) (d : ShareDeclaration)
  | revokePublicShare (channelID : Str)
  | deletePublicShare (channelID : Str)
  | createUploadChannel (d : UploadDeclaration)
  | updateUploadChannel (channelID : Str) (d : UploadDeclaration)
  | revokeUploadChannel (channelID : Str)
  | deleteUploadChannel (channelID : Str)
  deriving DecidableEq, Repr

def Ticket.payloadOk (L : Lowering) : Ticket → Except Str Unit
  | .createPublicShare d => do
    require (!d.resendInvitations) "create cannot resend invitations"
    (validatePublicShareDeclaration L d).mapError ("CREATE_PUBLIC_SHARE payload: " ++ ·)
  | .updatePublicShare channelID keepPassword d => do
    validateUUID "UPDATE_PUBLIC_SHARE payload.channel_id" channelID
    (validatePublicShareDeclaration L d).mapError ("UPDATE_PUBLIC_SHARE payload: " ++ ·)
    require (!keepPassword || (d.passwordHash = [] && d.recipients = []))
      "UPDATE_PUBLIC_SHARE keep_password requires an open declaration without a new verifier"
  | .revokePublicShare channelID => validateUUID "REVOKE_PUBLIC_SHARE payload.channel_id" channelID
  | .deletePublicShare channelID => validateUUID "DELETE_PUBLIC_SHARE payload.channel_id" channelID
  | .createUploadChannel d => do
    (validateUploadChannelDeclaration L d).mapError ("CREATE_UPLOAD_CHANNEL payload: " ++ ·)
    require (!d.resendInvitations) "resend requires an existing shelf"
  | .updateUploadChannel channelID d => do
    validateUUID "UPDATE_UPLOAD_CHANNEL payload.channel_id" channelID
    (validateUploadChannelDeclaration L d).mapError ("UPDATE_UPLOAD_CHANNEL payload: " ++ ·)
  | .revokeUploadChannel channelID => validateUUID "REVOKE_UPLOAD_CHANNEL payload.channel_id" channelID
  | .deleteUploadChannel channelID => validateUUID "DELETE_UPLOAD_CHANNEL payload.channel_id" channelID

def Ticket.validate (L : Lowering) (operationID : Str) (t : Ticket) : Except Str Unit := do
  validateUUID "operation_id" operationID
  t.payloadOk L

structure Request where
  (operationID realm : Str)
  ticket : Ticket
  call : Call
  deliverer : Bool
  provisioned : Option Str

variable (H : Host) (q : Request) (d : UploadDeclaration)

def toShare (ownerRealm : Str) (d : ShareDeclaration) : Share where
  invitationMessage := d.invitationMessage
  ownerRealm := ownerRealm
  repoID := d.repoID
  sourceRoot := d.sourceRoot
  slug := d.slug
  recipients := d.recipients
  password := d.passwordHash
  doNotFollow := d.doNotFollow
  objects := d.objects

def toUploadManifest (ownerRealm uploadRepoID : Str) (d : UploadDeclaration) : Upload where
  invitationMessage := d.invitationMessage
  ownerRealm := ownerRealm
  authorityRepoID := d.authorityRepoID
  uploadRepoID := uploadRepoID
  slug := d.slug
  kind := normalizeKind d.kind
  recipients := d.recipients
  requireOTP := d.requireOTP
  collisionPolicy := if d.collisionPolicy = .unset then .deny else d.collisionPolicy

def rejected : StoreError := .other "rejected"

def Request.createShare (d : ShareDeclaration) : M (Record × List Delivery) := do
  check (!d.resendInvitations && (d.manageInvitations || d.invitationMessage = [])) rejected
  ofExcept (((toShare q.realm d).validate H.lowering).mapError .other)
  create H q.call q.operationID q.realm (toShare q.realm d)

def Request.updateShare (channelID : Str) (keepPassword : Bool) (d : ShareDeclaration) :
    M (Record × List Delivery) := do
  check (d.manageInvitations || (d.invitationMessage = [] && !d.resendInvitations)) rejected
  ofExcept (((toShare q.realm d).validate H.lowering).mapError .other)
  check (!d.resendInvitations || (q.deliverer && !keepPassword)) rejected
  if d.resendInvitations then resend H q.call q.operationID q.realm channelID (toShare q.realm d)
  else Shares.updateShare H q.call q.operationID q.realm channelID (toShare q.realm d) keepPassword d.manageInvitations

def Request.createUpload : M (UploadRecord × List Delivery) := do
  ofExcept ((validateInvitationMessage d.invitationMessage).mapError .other)
  check (!d.resendInvitations && (d.collisionPolicy = .unset || d.collisionPolicy = .deny) && d.recipients ≠ []) rejected
  check (q.call.authority.ownsActiveRepository q.realm d.authorityRepoID) .forbidden
  let found ← ofExcept ((q.call.authority.activeRealmAlias q.realm).elim (.error .forbidden) .ok)
  reserveAddress H q.call q.operationID q.realm found d.slug
  let uploadRepoID ← ofExcept (q.provisioned.elim (.error .file) .ok)
  ofExcept (((toUploadManifest q.realm uploadRepoID d).validate H.lowering).mapError .other)
  Shares.createUpload H q.call q.operationID q.realm (toUploadManifest q.realm uploadRepoID d)

def UploadDeclaration.over (current : Upload) : UploadDeclaration :=
  { d with
    authorityRepoID := current.authorityRepoID
    slug := current.slug
    kind := normalizeKind current.kind
    invitationMessage := if d.manageInvitations then d.invitationMessage else current.invitationMessage
    collisionPolicy := if d.collisionPolicy = .unset then .deny else d.collisionPolicy }

def Request.updateUpload (channelID : Str) (d : UploadDeclaration) :
    M (UploadRecord × List Delivery) := do
  check (d.manageInvitations || (d.invitationMessage = [] && !d.resendInvitations)) rejected
  let s ← read
  let record ← ofExcept (loadUpload s channelID)
  let current ← ofExcept (record.manifest.elim (.error .notFound) .ok)
  check (d.kind = .unset || normalizeKind d.kind = normalizeKind current.kind) rejected
  let body := toUploadManifest q.realm current.uploadRepoID (d.over current)
  if d.resendInvitations then resendUpload H q.call q.operationID q.realm channelID body
  else Shares.updateUpload H q.call q.operationID q.realm channelID body

def discard {α : Type} (m : M α) : M Unit := do
  let _ ← m
  pure ()

def Request.handle : M Unit := do
  ofExcept ((q.ticket.validate H.lowering q.operationID).mapError .other)
  match q.ticket with
  | .createPublicShare d => discard (q.createShare H d)
  | .updatePublicShare channelID keepPassword d => discard (q.updateShare H channelID keepPassword d)
  | .revokePublicShare channelID => discard (revoke H q.call q.realm channelID)
  | .deletePublicShare channelID => discard (delete H q.call q.realm channelID)
  | .createUploadChannel d => discard (q.createUpload H d)
  | .updateUploadChannel channelID d => discard (q.updateUpload H channelID d)
  | .revokeUploadChannel channelID => discard (revokeUpload q.call q.realm channelID)
  | .deleteUploadChannel channelID => discard (deleteUpload q.call q.realm channelID)

inductive Order
  | ticket (q : Request)
  | operatorDelete (c : Call) (channelID : Str)
  | removeRealm (c : Call) (realm : Str)

def Order.handle : Order → M Unit
  | .ticket q => q.handle H
  | .operatorDelete c channelID => discard (deleteAsOperator H c channelID)
  | .removeRealm c realm => deleteRealm H c realm

abbrev Event := Order × List Write

def step (s : Files) (e : Event) : Files := (e.1.handle H s e.2).2.1

end FileES.Shares
