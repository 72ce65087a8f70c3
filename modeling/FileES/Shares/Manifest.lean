import FileES.Go.Text
import FileES.Lib.Fallible

/-! The declarations of a public channel, one for handing out and one for accepting, with their checks and the address
`/<alias>/<slug>` that a channel stands under. -/

namespace FileES.Shares

open Go Lib.Fallible

variable (index : ℕ) (L : Lowering) (value : Str)

def reserved : List Str :=
  ["get", "file", "up", "api", "static", "assets", "health", "status", "robots.txt", "favicon.ico", "admin", "internal",
    "public", "kwarantanna"].map String.toList

def letterOrDigit (c : Char) : Bool := ('a' ≤ c && c ≤ 'z') || ('0' ≤ c && c ≤ '9')

def slugChars (before : Option Char) : Str → Except Str Unit
  | [] => .ok ()
  | c :: s =>
    if letterOrDigit c then slugChars (some c) s
    else if c ≠ '-' then .error "slug may contain only lowercase letters, digits and '-'"
    else if before = some '-' then .error "slug may not contain consecutive hyphens"
    else slugChars (some c) s

def normalize : Except Str Str := do
  let value := toLower L (trimSpace value)
  require (value ≠ []) "slug is empty"
  require (3 ≤ byteLen value && byteLen value ≤ 64) "slug must contain 3 to 64 characters"
  require (value.head?.any letterOrDigit && value.getLast?.any letterOrDigit)
    "slug must start and end with a letter or digit"
  slugChars none value
  require (!reserved.contains value) "slug is reserved"
  pure value

def slugPath (realmAlias channelSlug : Str) : Except Str Str := do
  let realmAlias := trimSpace realmAlias
  require (realmAlias ≠ []) "realm alias is empty"
  require (!containsAny realmAlias ['/', '\\']) "realm alias must be a single path segment"
  let normalized ← normalize L channelSlug
  pure ('/' :: realmAlias ++ '/' :: normalized)

def canonicalEmail : Str := toLower L (trimSpace value)

inductive CollisionPolicy
  | unset
  | deny
  | rename
  | newRevision
  | other (text : Str)
  deriving DecidableEq, Repr

def CollisionPolicy.valid : CollisionPolicy → Bool
  | .deny | .rename | .newRevision => true
  | .unset | .other _ => false

def CollisionPolicy.text : CollisionPolicy → Str
  | .unset => []
  | .deny => "deny"
  | .rename => "rename"
  | .newRevision => "new_revision"
  | .other text => text

inductive Kind
  | unset
  | shelf
  | slots
  | other (text : Str)
  deriving DecidableEq, Repr

def normalizeKind : Kind → Kind
  | .unset => .shelf
  | kind => kind

structure Object where
  (publicID repoPath displayName : Str)
  size : Option ℤ
  deriving DecidableEq, Repr

structure Share where
  (invitationMessage ownerRealm repoID sourceRoot slug : Str)
  recipients : List Str
  password : Str
  doNotFollow : Option ℤ
  objects : List Object
  deriving DecidableEq, Repr

structure Upload where
  (invitationMessage ownerRealm authorityRepoID uploadRepoID slug : Str)
  kind : Kind
  recipients : List Str
  requireOTP : Bool
  collisionPolicy : CollisionPolicy
  deriving DecidableEq, Repr

def validUUID (field value : Str) : Except Str Unit :=
  require (canonicalUUID value) (field ++ ": not a UUID")

def validateInvitationMessage (text : Str) : Except Str Unit := do
  require (text.length ≤ 2000) "invitation message must be UTF-8 and at most 2000 characters"
  require (text.all (fun r => !isControl r || r = '\n' || r = '\r' || r = '\t'))
    "invitation message contains a control character"

def validSlug (slug : Str) : Except Str Unit := do
  let normalized ← (normalize L slug).mapError ("slug: " ++ ·)
  require (normalized = slug) "slug must already be normalized"

def validRepoPath (field value : Str) : Except Str Unit := do
  require (value = trimSpace value) (field ++ ": must not have surrounding whitespace")
  require (value ≠ []) (field ++ ": empty")
  require (!hasPrefix value ['/']) (field ++ ": must be repository-relative")
  require (!containsAny value ['\\', '\x00']) (field ++ ": contains a forbidden character")
  require (!contains value "//") (field ++ ": contains an empty segment")
  require ((value.splitOn '/').all (fun segment => segment ≠ "." && segment ≠ ".."))
    (field ++ ": contains a relative segment")

def objectField (rest : String) : Str := "object_map[" ++ (toString index).toList ++ rest.toList

def validPublicID : Except Str Unit := do
  require (16 ≤ byteLen value && byteLen value ≤ 64) (objectField index "].public_id: must contain 16 to 64 characters")
  require (value.all letterOrDigit) (objectField index "].public_id: must be lowercase alphanumeric")

def validDisplayName : Except Str Unit := do
  require (trimSpace value ≠ [] && byteLen value ≤ 512) (objectField index "].display_name: empty")
  require (value.all (fun r => 0x20 ≤ r.toNat && r.toNat ≠ 0x7f))
    (objectField index "].display_name: contains a control character")

def validRecipient : Except Str Unit := do
  let value := trimSpace value
  let field := "recipients[" ++ (toString index).toList
  require (value ≠ [] && byteLen value ≤ 254) (field ++ "]: empty")
  require ((beforeLast '@' value).any (· ≠ []) && value.getLast? ≠ some '@' && value.count '@' = 1)
    (field ++ "]: not an e-mail address")
  require (!containsAny value [' ', '\t', '\r', '\n', '\x00', ',', ';']) (field ++ "]: contains a forbidden character")

def passwordParameter (name : Str) (minimum maximum : ℕ) : Option ℕ :=
  if hasPrefix value name then
    (parseUint32 (trimPrefix value name)).filter (fun n => minimum ≤ n && n ≤ maximum)
  else none

def validatePasswordVerifier (encoded : Str) : Except Str Unit :=
  match encoded.splitOn '$' with
  | [p0, p1, p2, p3, p4, p5] => do
    require (p0 = [] && p1 = "argon2id" && p2 = "v=19")
      "password_hash is not a supported Argon2id verifier"
    match p3.splitOn ',' with
    | [m, t, p] => do
      require ((passwordParameter m "m=" (8 * 1024) (128 * 1024)).isSome
        && (passwordParameter t "t=" 1 8).isSome && (passwordParameter p "p=" 1 8).isSome)
        "password_hash parameters are outside supported bounds"
      require ((decodeBase64 p4).any (fun salt => 16 ≤ salt.length && salt.length ≤ 64)
        && (decodeBase64 p5).any (fun digest => digest.length = 32)) "password_hash salt or digest is invalid"
    | _ => .error "password_hash parameters are invalid"
  | _ => .error "password_hash is not a supported Argon2id verifier"

def validRecipients (L : Lowering) (repeated : Str) (index : ℕ) (seen : List Str) :
    List Str → Except Str Unit
  | [] => .ok ()
  | addr :: rest => do
    validRecipient index addr
    require (!seen.contains (canonicalEmail L addr)) repeated
    validRecipients L repeated (index + 1) (canonicalEmail L addr :: seen) rest

def validObject (sourceRoot : Str) (index : ℕ) (seen : List Str) (obj : Object) : Except Str Unit := do
  validPublicID index obj.publicID
  require (!seen.contains obj.publicID) ("duplicate public_id in object map: " ++ obj.publicID)
  validRepoPath (objectField index "].repo_path") obj.repoPath
  require (sourceRoot = ['.'] || (obj.repoPath ≠ sourceRoot && hasPrefix obj.repoPath (trimSuffix sourceRoot ['/'] ++ ['/'])))
    (objectField index "].repo_path: outside source_root")
  validDisplayName index obj.displayName
  require (obj.size.all (0 ≤ ·)) (objectField index "].size: negative")

def validObjects (sourceRoot : Str) (index : ℕ) (seen : List Str) : List Object → Except Str Unit
  | [] => .ok ()
  | obj :: rest => do
    validObject sourceRoot index seen obj
    validObjects sourceRoot (index + 1) (obj.publicID :: seen) rest

def validSourceRoot (root : Str) : Except Str Unit :=
  if root = ['.'] then .ok () else validRepoPath "source_root" root

def validPassword (password : Str) : Except Str Unit :=
  if password = [] then .ok () else validatePasswordVerifier password

def Share.validate (s : Share) : Except Str Unit := do
  validateInvitationMessage s.invitationMessage
  validUUID "owner_realm" s.ownerRealm
  validUUID "repo_id" s.repoID
  validSlug L s.slug
  validSourceRoot s.sourceRoot
  require (s.recipients = [] || trimSpace s.password = []) "closed channel must not carry a shared password"
  validPassword s.password
  require (s.recipients.length ≤ 256) "share recipient list exceeds 256 addresses"
  validRecipients L "share recipient list contains duplicate address" 0 [] s.recipients
  require (s.doNotFollow.all (1 ≤ ·)) ("do-not-follow: revision " ++ (toString (s.doNotFollow.getD 0)).toList ++
    " is not publishable")
  require (s.objects.length ≤ 4096) "object_map must contain at most 4096 objects"
  validObjects s.sourceRoot 0 [] s.objects

def quote (s : Str) : Str := '"' :: s.flatMap (fun c => if c = '"' || c = '\\' then ['\\', c] else [c]) ++ ['"']

def Upload.validate (u : Upload) : Except Str Unit := do
  validateInvitationMessage u.invitationMessage
  validUUID "owner_realm" u.ownerRealm
  validUUID "authority_repo_id" u.authorityRepoID
  validUUID "upload_repo_id" u.uploadRepoID
  require (u.authorityRepoID ≠ u.uploadRepoID) "authority repository and upload repository must differ"
  validSlug L u.slug
  require (u.recipients ≠ []) "upload channel requires a non-empty recipient list"
  require (u.recipients.length ≤ 256) "upload recipient list exceeds 256 addresses"
  validRecipients L "upload recipient list contains duplicate address" 0 [] u.recipients
  require u.collisionPolicy.valid ("collision_policy: unsupported value " ++ quote u.collisionPolicy.text)
  require (normalizeKind u.kind = .shelf || normalizeKind u.kind = .slots) "upload channel kind must be shelf or slots"

variable {L : Lowering}

lemma canonicalEmail_idem (L : Lowering) (value : Str) :
    canonicalEmail L (canonicalEmail L value) = canonicalEmail L value := by
  simp only [canonicalEmail, trimSpace_toLower, trimSpace_idem, toLower_idem]

lemma validRecipients_ok {repeated : Str} {index : ℕ} {seen rs : List Str}
    (h : validRecipients L repeated index seen rs = .ok ()) :
    (rs.map (canonicalEmail L)).Nodup ∧ ∀ r ∈ rs, canonicalEmail L r ∉ seen := by
  induction rs generalizing index seen with
  | nil => simp
  | cons r rs ih =>
    obtain ⟨_, _, _, hseen, h⟩ := bind₂_ok.mp h
    obtain ⟨hn, hrest⟩ := ih h
    have hr : canonicalEmail L r ∉ seen := by simpa using require_ok.mp hseen
    refine ⟨?_, ?_⟩
    · rw [List.map_cons, List.nodup_cons]
      refine ⟨?_, hn⟩
      rintro hmem
      obtain ⟨r', hr', heq⟩ := List.mem_map.mp hmem
      exact hrest r' hr' (heq ▸ List.mem_cons_self)
    · intro r' hr'
      rcases List.mem_cons.mp hr' with rfl | hr'
      · exact hr
      · exact fun hmem => hrest r' hr' (List.mem_cons_of_mem _ hmem)

lemma Share.validate_ok {s : Share} (h : s.validate L = .ok ()) :
    canonicalUUID s.ownerRealm = true ∧ canonicalUUID s.repoID = true ∧ (s.recipients.map (canonicalEmail L)).Nodup := by
  simp only [Share.validate, bind_ok] at h
  obtain ⟨_, _, _, howner, _, hrepo, _, _, _, _, _, _, _, _, _, _, _, hrecipients, _⟩ := h
  exact ⟨require_ok.mp howner, require_ok.mp hrepo, (validRecipients_ok hrecipients).1⟩

end FileES.Shares
