import FileES.Go.Path
import FileES.Go.UUID
import FileES.Lib.Fallible
import FileES.Lib.Processes

/-! The requests of Whale objects and the worker processes that receive and publish them: their journal, the queue of each
path, the payload files and the repositories. -/

namespace FileES.Whale

open Go Lib.Fallible Lib.Processes

def reservedNamespace : Str := ".filees-whales"

def maxLogicalPathBytes : ℕ := 4096

def maxObjectBytes : ℤ := 100 * 1024 * 1024 * 1024

def maxWindowBytes : ℤ := 1024 * 1024 * 1024

inductive Direction
  | put
  | get
  deriving DecidableEq, Repr

inductive State
  | receiving
  | validating
  | committing
  | published
  | awaitingConfirmation
  | materializing
  | verifying
  | localFile
  | rejected
  | cancelled
  deriving DecidableEq, Repr

def State.terminal : State → Bool
  | .published | .localFile | .rejected | .cancelled => true
  | _ => false

def initialState : Direction → State
  | .put => .receiving
  | .get => .awaitingConfirmation

def advances : Direction → State → State → Bool
  | .put, .receiving, .validating => true
  | .put, .validating, .committing => true
  | .put, .committing, .published => true
  | .get, .awaitingConfirmation, .materializing => true
  | .get, .materializing, .verifying => true
  | .get, .verifying, .localFile => true
  | _, _, _ => false

def canTransition (direction : Direction) (start next : State) : Bool :=
  if start = next then true
  else if start.terminal then false
  else if next = .rejected || next = .cancelled then true
  else advances direction start next

structure Identity where
  (logicalRepoID logicalPath generationID : Str)
  expectedSize : ℤ
  sha256 : Str
  deriving DecidableEq, Repr

def validateCanonicalUUID (label value : Str) : Except Str Unit :=
  require (canonicalUUID value) (label ++ " must be a canonical UUID")

def validateLogicalPath (value : Str) : Except Str Unit := do
  require (value ≠ [] && byteLen value ≤ maxLogicalPathBytes)
    "logical_path must be non-empty valid UTF-8 up to 4096 bytes"
  require (!hasPrefix value ['/'] && !hasSuffix value ['/'] && !value.contains '\\' && clean value = value)
    "logical_path must be a canonical repository-relative slash path"
  require (value.all (fun r => 0x20 ≤ r.toNat && r.toNat ≠ 0x7f)) "logical_path contains a control character"
  require ((split value).head? ≠ some reservedNamespace) "logical_path targets the reserved Whale namespace"
  require ((split value).all (fun segment => segment ≠ [] && segment ≠ ['.'] && segment ≠ ['.', '.']))
    "logical_path contains a non-canonical segment"

def isLowerHex (c : Char) : Bool := "0123456789abcdef".toList.contains c

def Identity.validate (i : Identity) : Except Str Unit := do
  validateCanonicalUUID "logical_repo_id" i.logicalRepoID
  validateLogicalPath i.logicalPath
  validateCanonicalUUID "generation_id" i.generationID
  require (1 ≤ i.expectedSize && i.expectedSize ≤ maxObjectBytes) "expected_size must be in range 1..107374182400"
  require (i.sha256.length = 64 && i.sha256.all isLowerHex) "sha256 must be 64 lowercase hexadecimal characters"

def Identity.storagePath (i : Identity) : Str := reservedNamespace ++ '/' :: i.logicalPath

def validateOffset (offset expectedSize : ℤ) : Except Str Unit := do
  require (1 ≤ expectedSize && expectedSize ≤ maxObjectBytes) "expected size is outside the Whale limit"
  require (0 ≤ offset && offset ≤ expectedSize) "offset must be in range 0..expected_size"

inductive Operation
  | putWindow
  | putCommit
  | putStatus
  | getDiscover
  | getQuote
  | getWindow
  | getRelease
  deriving DecidableEq, Repr

structure Request where
  requestID : Str
  operation : Operation
  identity : Identity
  revision : ℤ
  (transferID confirmationToken : Str)
  (offset payloadSize : ℤ)
  deriving DecidableEq, Repr

variable (r : Request)

def validateWindow : Except Str Unit := do
  validateOffset r.offset r.identity.expectedSize
  require (1 ≤ r.payloadSize && r.payloadSize ≤ maxWindowBytes && r.payloadSize ≤ r.identity.expectedSize - r.offset)
    "payload_size must fit the generation and be in range 1..1073741824"

def noTransfer : Bool := r.transferID = [] && r.confirmationToken = []

def noPayload : Bool := r.offset = 0 && r.payloadSize = 0

def confirmed : Bool := 1 ≤ r.revision && canonicalUUID r.transferID && canonicalUUID r.confirmationToken

def Request.validateIdentity : Except Str Unit :=
  if r.operation = .getDiscover then
    require (canonicalUUID r.identity.logicalRepoID && (validateLogicalPath r.identity.logicalPath).isOk &&
        r.identity.generationID = [] && r.identity.expectedSize = 0 && r.identity.sha256 = [])
      "GET discovery requires only logical repository and path"
  else r.identity.validate

def Request.validateFields : Except Str Unit :=
  match r.operation with
  | .getDiscover =>
    require (1 ≤ r.revision && noTransfer r && noPayload r) "GET discovery requires only a positive snapshot revision"
  | .putWindow => do
    require (r.revision = 0 && noTransfer r) "PUT window cannot carry GET fields"
    validateWindow r
  | .putCommit | .putStatus =>
    require (r.revision = 0 && noTransfer r && noPayload r)
      "status and commit requests cannot carry offset or payload"
  | .getQuote => require (1 ≤ r.revision && noTransfer r && noPayload r) "GET quote requires only a positive revision"
  | .getWindow => do
    require (confirmed r) "GET window requires revision, transfer_id and confirmation_token"
    validateWindow r
  | .getRelease =>
    require (confirmed r && noPayload r) "GET release requires revision, transfer_id and confirmation_token only"

def Request.validate : Except Str Unit := do
  require (canonicalUUID r.requestID) "request_id must be a canonical UUID"
  r.validateIdentity
  r.validateFields

variable {r : Request}

lemma Request.validate_window (h : r.validate = .ok ()) (ho : r.operation = .putWindow) :
    r.identity.validate = .ok () ∧ 0 ≤ r.offset ∧ 1 ≤ r.payloadSize ∧
      r.offset + r.payloadSize ≤ r.identity.expectedSize := by
  obtain ⟨_, _, _, hid, h⟩ := bind₂_ok.mp h
  rw [Request.validateIdentity, if_neg (by rw [ho]; decide)] at hid
  rw [Request.validateFields, ho] at h
  obtain ⟨_, _, _, hoff, hsize⟩ := bind₂_ok.mp h
  obtain ⟨_, _, hoff⟩ := bind_ok.mp hoff
  simp only [require_ok, Bool.and_eq_true, decide_eq_true_eq] at hoff hsize
  exact ⟨hid, hoff.1, hsize.1.1, by omega⟩

inductive WhaleError
  | text (message : Str)
  | accessDenied
  | offsetConflict
  | digestMismatch
  | generationConflict
  | busy (position : ℕ)
  | insufficientSpace (available required : ℤ)
  | system
  deriving DecidableEq, Repr

structure Env where
  sha256 : List UInt8 → Str
  repositoryPath : Str → Str

structure Record where
  identity : Identity
  direction : Direction
  state : State
  (bytesHave commitBaseRevision : ℤ)
  commitBaseKnown : Bool
  revision : ℤ
  createdAt : ℕ
  deriving DecidableEq, Repr

def knownState : Direction → State → Bool
  | .put, s => s = .receiving || s = .rejected || s = .cancelled || s = .validating || s = .committing || s = .published
  | .get, s => s = .awaitingConfirmation || s = .rejected || s = .cancelled || s = .materializing || s = .verifying ||
      s = .localFile

def needsAllBytes : Direction → State → Bool
  | .put, s => s = .validating || s = .committing || s = .published
  | .get, s => s = .verifying || s = .localFile

def tooFewBytes : Direction → Str
  | .put => "PUT cannot leave receiving before all bytes are durable"
  | .get => "GET cannot verify before all bytes are durable"

def validateRecord (r : Record) : Except Str Unit := do
  r.identity.validate
  validateOffset r.bytesHave r.identity.expectedSize
  require (knownState r.direction r.state) "state is invalid for Whale direction"
  require (!needsAllBytes r.direction r.state || r.bytesHave = r.identity.expectedSize) (tooFewBytes r.direction)
  require (!(r.commitBaseRevision < 0 || (!r.commitBaseKnown && r.commitBaseRevision ≠ 0) || r.revision < 0 ||
      (r.state = .published && (!r.commitBaseKnown || r.revision = 0 || r.revision ≤ r.commitBaseRevision))))
    "published generation requires a positive revision"

def checkAdvance (current next : Record) : Except WhaleError Unit := do
  require (current.identity = next.identity && current.direction = next.direction && current.createdAt = next.createdAt)
    .generationConflict
  require (!(next.revision < current.revision || (current.revision ≠ 0 && next.revision ≠ current.revision)))
    (.text "Whale revision is immutable once recorded")
  require (!(current.commitBaseKnown && (!next.commitBaseKnown || next.commitBaseRevision ≠ current.commitBaseRevision)))
    (.text "Whale commit base revision is immutable once recorded")
  require (current.bytesHave ≤ next.bytesHave) (.text "Whale durable offset cannot decrease")
  require (canTransition next.direction current.state next.state) (.text "invalid Whale state transition")

def checkIdentity (identity : Identity) (direction : Direction) (current : Record) : Except WhaleError Record :=
  if current.identity = identity ∧ current.direction = direction then .ok current else .error .generationConflict

structure QueueRecord where
  holder : Str
  waiting : List Str
  deriving DecidableEq, Repr

def claimed (g : Str) : Option QueueRecord → ℕ × QueueRecord
  | none => (0, ⟨g, []⟩)
  | some q =>
    if q.holder = g then (0, q)
    else match q.waiting.findIdx? (· = g) with
      | some index => (index + 1, q)
      | none => (q.waiting.length + 1, { q with waiting := q.waiting ++ [g] })

def released (g : Str) : Option QueueRecord → Except WhaleError (Option QueueRecord)
  | none => .ok none
  | some q =>
    if q.holder = g then
      match q.waiting with
      | [] => .ok none
      | next :: rest => .ok (some ⟨next, rest⟩)
    else if g ∈ q.waiting then .error (.text "only the Whale path holder can release it")
    else .ok (some q)

structure Revision where
  generation : Option Str
  put : Option (Str × List UInt8)

structure Repository where
  revisions : List Revision
  transactions : List (ℕ × Option Str)
  counter : ℕ
  directories : List Str

structure Window where
  pid : ℕ
  offset : ℤ
  bytes : List UInt8
  deriving DecidableEq, Repr

/-- `copied` and `recorded` are history: the last complete copy into a payload, and the copies that the journal
counted. -/
structure Store where
  journal : Str → Option Record
  payload : Str → Option (List UInt8)
  queue : Str × Str → Option QueueRecord
  window : Str → Option ℕ
  repository : Str → Repository
  clock : ℕ
  copied : Str → Option Window
  recorded : Str → List Window

def Identity.path (i : Identity) : Str × Str := (i.logicalRepoID, i.logicalPath)

section

inductive Fate
  | done
  | failed
  | unsynced
  | cut (bytes : ℕ)
  | refused (available required : ℤ)
  | readOnly
  deriving DecidableEq, Repr

def Fate.ok : Fate → Bool
  | .done => true
  | _ => false

def Fate.landed : Fate → Bool
  | .done | .unsynced => true
  | _ => false

inductive Call
  | resolve (client repo : Str)
  | now
  | readRecord (g : Str)
  | createRecord (r : Record)
  | writeRecord (r : Record)
  | claim (i : Identity)
  | release (i : Identity)
  | reserve (g : Str) (size : ℤ)
  | unreserve (g : Str)
  | lock (g : Str)
  | unlock (g : Str)
  | ready
  | openPayload (g : Str)
  | truncate (g : Str) (size : ℤ)
  | copy (g : Str) (offset : ℤ) (bytes : List UInt8)
  | sync (g : Str)
  | readPayload (g : Str)
  | youngest (path : Str)
  | revisionProperty (path : Str) (revision : ℤ)
  | transactions (path : Str)
  | transactionProperty (path : Str) (transaction : ℕ)
  | removeTransaction (path : Str) (transaction : ℕ)
  | directories (path : Str)
  | beginPut (path : Str) (g : Str)
  | commitPut (path : Str) (transaction : ℕ) (i : Identity) (mkdirs : List Str)

inductive Created
  | made
  | notRenamed
  | failed
  deriving DecidableEq, Repr

inductive Reserved
  | granted
  | short (available required : ℤ)
  | failed
  deriving DecidableEq, Repr

structure RepositoryAccess where
  (repositoryPath access : Str)

abbrev Reply : Call → Type
  | .resolve _ _ => Option RepositoryAccess
  | .now => ℕ
  | .readRecord _ => Option (Option Record)
  | .createRecord _ => Created
  | .writeRecord _ => Bool
  | .claim _ => Option ℕ
  | .release _ => Except WhaleError Unit
  | .reserve _ _ => Reserved
  | .unreserve _ => Bool
  | .lock _ => Bool
  | .unlock _ => Unit
  | .ready => Bool
  | .openPayload _ => Option ℤ
  | .truncate _ _ => Bool
  | .copy _ _ _ => Bool
  | .sync _ => Bool
  | .readPayload _ => Option (List UInt8)
  | .youngest _ => Option ℤ
  | .revisionProperty _ _ => Option (Option Str)
  | .transactions _ => Option (List ℕ)
  | .transactionProperty _ _ => Option (Option Str)
  | .removeTransaction _ _ => Bool
  | .directories _ => Option (List Str)
  | .beginPut _ _ => Option ℕ
  | .commitPut _ _ _ _ => Bool

open Function (update)

variable (pid : ℕ) (s : Store)

def Store.content (g : Str) : List UInt8 := (s.payload g).getD []

def Store.counted (next : Record) : List Window :=
  match s.journal next.identity.generationID, s.copied next.identity.generationID with
  | some current, some w => if current.bytesHave < next.bytesHave then [w] else []
  | _, _ => []

def Store.write (r : Record) : Store :=
  { s with
    journal := update s.journal r.identity.generationID (some r)
    recorded := update s.recorded r.identity.generationID (s.recorded r.identity.generationID ++ s.counted r) }

def Store.writePayload (g : Str) (content : List UInt8) : Store :=
  { s with payload := update s.payload g (some content) }

def overwrite (content : List UInt8) (offset : ℕ) (bytes : List UInt8) : List UInt8 :=
  content.take offset ++ bytes ++ content.drop (offset + bytes.length)

def Store.copy (g : Str) (offset : ℤ) (bytes : List UInt8) : Store :=
  { s.writePayload g (overwrite (s.content g) offset.toNat bytes) with
    copied := update s.copied g (some ⟨pid, offset, bytes⟩) }

def Store.onRepository (path : Str) (f : Repository → Repository) : Store :=
  { s with repository := update s.repository path (f (s.repository path)) }

def Repository.begin (g : Option Str) (r : Repository) : Repository :=
  { r with transactions := r.transactions ++ [(r.counter, g)], counter := r.counter + 1 }

def Repository.remove (t : ℕ) (r : Repository) : Repository :=
  { r with transactions := r.transactions.filter (fun e => e.1 ≠ t) }

def Repository.commit (t : ℕ) (revision : Revision) (mkdirs : List Str) (r : Repository) : Repository :=
  { r.remove t with revisions := r.revisions ++ [revision], directories := r.directories ++ mkdirs }

def Repository.isOpen (t : ℕ) (g : Option Str) (r : Repository) : Bool := r.transactions.contains (t, g)

def Repository.property (r : Repository) (revision : ℤ) : Option (Option Str) :=
  if 1 ≤ revision then r.revisions[revision.toNat - 1]?.map Revision.generation else some none

def Store.commitPut (path : Str) (t : ℕ) (i : Identity) (mkdirs : List Str) : Store :=
  s.onRepository path (Repository.commit t ⟨some i.generationID, some (i.storagePath, s.content i.generationID)⟩ mkdirs)

def Store.saveQueue (w : Fate) (i : Identity) (q : Option QueueRecord) : Store :=
  if w.landed then { s with queue := update s.queue i.path q } else s

def answer (env : Env) : (c : Call) → Store → Fate → Option (Store × Reply c)
  | .resolve _ repo, s, w =>
    match w with
    | .done => some (s, some ⟨env.repositoryPath repo, "rw"⟩)
    | .readOnly => some (s, some ⟨env.repositoryPath repo, "r"⟩)
    | _ => some (s, none)
  | .now, s, _ => some (s, s.clock)
  | .readRecord g, s, w => some (s, if w.ok then some (s.journal g) else none)
  | .createRecord r, s, w =>
    if (s.journal r.identity.generationID).isSome then some (s, .notRenamed)
    else match w with
      | .done => some (s.write r, .made)
      | .unsynced => some (s.write r, .failed)
      | .failed => some (s, .notRenamed)
      | _ => some (s, .failed)
  | .writeRecord r, s, w => some (if w.landed then s.write r else s, w.ok)
  | .claim i, s, w =>
    some (s.saveQueue w i (some (claimed i.generationID (s.queue i.path)).2),
      if w.ok then some (claimed i.generationID (s.queue i.path)).1 else none)
  | .release i, s, w =>
    match released i.generationID (s.queue i.path) with
    | .error e => some (s, .error e)
    | .ok q => some (s.saveQueue w i q, if w.ok then .ok () else .error .system)
  | .reserve _ _, s, w =>
    match w with
    | .done => some (s, .granted)
    | .refused available required => some (s, .short available required)
    | _ => some (s, .failed)
  | .unreserve _, s, w => some (s, w.ok)
  | .lock g, s, w =>
    -- The lock file lies in the directory of the generation.
    if (s.journal g).isNone || !w.ok then some (s, false)
    else if (s.window g).isSome then none
    else some ({ s with window := update s.window g (some pid) }, true)
  | .unlock g, s, _ => some ({ s with window := update s.window g none }, ())
  | .ready, s, w => some (s, w.ok)
  | .openPayload g, s, w =>
    if w.ok then some (s.writePayload g (s.content g), some (s.content g).length) else some (s, none)
  | .truncate g size, s, w =>
    some (if w.ok then s.writePayload g ((s.content g).take size.toNat) else s, w.ok)
  | .copy g offset bytes, s, w =>
    match w with
    | .done => some (s.copy pid g offset bytes, true)
    | .cut n => some (s.writePayload g (overwrite (s.content g) offset.toNat (bytes.take n)), false)
    | _ => some (s, false)
  | .sync _, s, w => some (s, w.ok)
  | .readPayload g, s, w => some (s, if w.ok then s.payload g else none)
  | .youngest path, s, w => some (s, if w.ok then some (s.repository path).revisions.length else none)
  | .revisionProperty path revision, s, w => some (s, if w.ok then (s.repository path).property revision else none)
  | .transactions path, s, w => some (s, if w.ok then some ((s.repository path).transactions.map Prod.fst) else none)
  | .transactionProperty path t, s, w =>
    some (s, if w.ok then ((s.repository path).transactions.find? (fun e => e.1 = t)).map Prod.snd else none)
  | .removeTransaction path t, s, w =>
    some (if w.landed then s.onRepository path (Repository.remove t) else s, w.ok)
  | .directories path, s, w => some (s, if w.ok then some (s.repository path).directories else none)
  | .beginPut path g, s, w =>
    if w.ok then some (s.onRepository path (Repository.begin (some g)), some (s.repository path).counter) else some (s, none)
  | .commitPut path t i mkdirs, s, w =>
    if (s.repository path).isOpen t (some i.generationID) && w.landed then some (s.commitPut path t i mkdirs, w.ok)
    else some (s, false)

def die : Store :=
  { s with window := fun g => if s.window g = some pid then none else s.window g }

inductive Outside
  | tick
  | begin (path : Str)
  | commit (path : Str) (transaction : ℕ) (mkdirs : List Str)
  deriving DecidableEq, Repr

def outside : Outside → Store → Store
  | .tick, s => { s with clock := s.clock + 1 }
  | .begin path, s => s.onRepository path (Repository.begin none)
  | .commit path t mkdirs, s =>
    if (s.repository path).isOpen t none then s.onRepository path (Repository.commit t ⟨none, none⟩ mkdirs) else s

def world (env : Env) : World Call Reply Store Fate Outside where
  answer pid c s w := answer pid env c s w
  die pid s := die pid s
  outside := outside

end

section

abbrev Prog := Task Call Reply WhaleError

open Task

variable (env : Env) (path g : Str) (record : Record) (client : Str) (identity : Identity)

def check (x : Except Str Unit) : Prog Unit := ofExcept (x.mapError .text)

def settle (ok : Bool) : Prog Unit := if ok then pure () else fail .system

def expect {α : Type} : Option α → Prog α
  | some a => pure a
  | none => fail .system

def load : Prog (Option Record) := do
  ofExcept (require (canonicalUUID g) (.text "generation_id must be a canonical UUID"))
  match ← expect (← ask (Call.readRecord g)) with
  | none => pure none
  | some r => do
    check (validateRecord r)
    ofExcept (require (r.identity.generationID = g) (.text "invalid Whale journal: generation path mismatch"))
    pure (some r)

variable (direction : Direction)

def adoptCreated : Prog Record := do
  match ← attempt (load identity.generationID) with
  | .ok (some current) => ofExcept (checkIdentity identity direction current)
  | _ => fail .system

def createNew : Prog Record := do
  let now ← ask Call.now
  let record : Record := ⟨identity, direction, initialState direction, 0, 0, false, 0, now⟩
  check (validateRecord record)
  match ← ask (Call.createRecord record) with
  | .made => pure record
  | .notRenamed => adoptCreated identity direction
  | .failed => fail .system

def create : Prog Record := do
  check identity.validate
  match ← load identity.generationID with
  | some current => ofExcept (checkIdentity identity direction current)
  | none => createNew identity direction

def present (r : Option Record) : Except WhaleError Record :=
  match r with
  | some r => .ok r
  | none => .error (.text "Whale generation does not exist")

def save (next : Record) : Prog Unit := do
  let current ← load next.identity.generationID
  let current ← ofExcept (present current)
  ofExcept (checkAdvance current next)
  check (validateRecord next)
  settle (← ask (Call.writeRecord next))

def requireRecord : Prog Record := do
  check identity.validate
  let record ← load identity.generationID
  let record ← ofExcept (present record)
  ofExcept (checkIdentity identity .put record)

def authorize (repo : Str) (write : Bool) : Prog Str := do
  match ← ask (Call.resolve client repo) with
  | some access => if write && access.access ≠ "rw" then fail .accessDenied else pure access.repositoryPath
  | none => fail .accessDenied

def reserve (size : ℤ) : Prog Unit := do
  match ← ask (Call.reserve g size) with
  | .granted => pure ()
  | .short available required => fail (.insufficientSpace available required)
  | .failed => fail .system

def withFileLock {α : Type} (g : Str) (body : Prog α) : Prog α := do
  settle (← ask (Call.lock g))
  let result ← attempt body
  ask (Call.unlock g)
  ofExcept result

structure PutResult where
  generationID : Str
  offset : ℤ
  state : State
  revision : ℤ
  deriving DecidableEq, Repr

def result (r : Record) : PutResult := ⟨r.identity.generationID, r.bytesHave, r.state, r.revision⟩

def appendWindow (offset count : ℤ) (payload : List UInt8) : Prog Unit := do
  let size ← expect (← ask (Call.openPayload g))
  ofExcept (require (offset ≤ size) (.text "Whale partial is missing or shorter than durable offset"))
  onlyIf (offset < size) (do settle (← ask (Call.truncate g offset)))
  settle (← ask (Call.copy g offset (payload.take count.toNat)))
  ofExcept (require (count ≤ payload.length) (.text "Whale window ended"))
  settle (← ask (Call.sync g))

def beginValidation : Prog Record :=
  if record.state = .receiving then do
    save { record with state := .validating }
    pure { record with state := .validating }
  else pure record

def prepareCommit : Prog Record := do
  let record ← beginValidation record
  let content ← expect (← ask (Call.readPayload record.identity.generationID))
  if (content.length : ℤ) ≠ record.identity.expectedSize ∨ env.sha256 content ≠ record.identity.sha256 then do
    save { record with state := .rejected }
    let _ ← ask (Call.unreserve record.identity.generationID)
    let _ ← ask (Call.release record.identity)
    fail .digestMismatch
  else do
    save { record with state := .committing }
    pure { record with state := .committing }

def cleanup : Prog Unit := do
  let reservation ← ask (Call.unreserve identity.generationID)
  let queue ← ask (Call.release identity)
  settle reservation
  ofExcept queue

def revisionsFrom (first last : ℤ) : List ℤ := (List.range (last + 1 - first).toNat).map (fun i : ℕ => first + i)

def findIn (revision : ℤ) : Prog (Option ℤ) := do
  let value ← expect (← ask (Call.revisionProperty path revision))
  pure (if value = some g then some revision else none)

def findGeneration (first : ℤ) (g : Str) : Prog (Option ℤ) := do
  let youngest ← expect (← ask (Call.youngest path))
  search (findIn path g) (revisionsFrom first youngest)

def removeIfAbandoned (t : ℕ) : Prog Unit := do
  match ← ask (Call.transactionProperty path t) with
  | some value => onlyIf (value = some g) (do settle (← ask (Call.removeTransaction path t)))
  | none => do
    let names ← expect (← ask (Call.transactions path))
    if t ∈ names then fail .system else pure ()

def removeAbandonedGenerationTransactions : Prog Unit := do
  let names ← expect (← ask (Call.transactions path))
  each (removeIfAbandoned path g) names

def missingDirectories (storagePath : Str) (existing : List Str) : List Str :=
  let parts := split storagePath
  ((List.range parts.length).tail.map (fun i => join (parts.take i) ++ ['/'])).filter (fun dir => dir ∉ existing)

def recordBase : Prog Record :=
  if record.commitBaseKnown then pure record
  else do
    let base ← expect (← ask (Call.youngest path))
    save { record with commitBaseRevision := base, commitBaseKnown := true }
    pure { record with commitBaseRevision := base, commitBaseKnown := true }

def commitGeneration : Prog ℤ := do
  removeAbandonedGenerationTransactions path record.identity.generationID
  let existing ← expect (← ask (Call.directories path))
  let t ← expect (← ask (Call.beginPut path record.identity.generationID))
  settle (← ask (Call.commitPut path t record.identity (missingDirectories record.identity.storagePath existing)))
  match ← findGeneration path (record.commitBaseRevision + 1) record.identity.generationID with
  | some revision => pure revision
  | none => fail (.text "Whale commit succeeded without recoverable generation revprop")

def findOrCommit : Prog ℤ := do
  match ← findGeneration path (record.commitBaseRevision + 1) record.identity.generationID with
  | some revision => pure revision
  | none => commitGeneration path record

def publishWhale : Prog (Record × ℤ) := do
  ofExcept (require (record.state = .committing) (.text "Whale SVN publisher is incomplete"))
  let record ← recordBase path record
  let revision ← findOrCommit path record
  pure (record, revision)

def receive (request : Request) (payload : List UInt8) : Prog PutResult := do
  let record ← requireRecord request.identity
  ofExcept (require (record.state = .receiving && record.bytesHave = request.offset) .offsetConflict)
  reserve record.identity.generationID record.identity.expectedSize
  settle (← ask Call.ready)
  let _ ← load record.identity.generationID
  appendWindow record.identity.generationID record.bytesHave request.payloadSize payload
  let record := { record with bytesHave := record.bytesHave + request.payloadSize }
  save record
  if record.bytesHave = record.identity.expectedSize then do
    let record ← prepareCommit env record
    pure (result record)
  else pure (result record)

def serveWindow (request : Request) (payload : List UInt8) : Prog PutResult := do
  ofExcept (require (request.operation = .putWindow) (.text "not a Whale PUT window"))
  check request.validate
  let _ ← authorize client request.identity.logicalRepoID true
  let record ← create request.identity .put
  ofExcept (require (record.state = .receiving) .offsetConflict)
  let position ← expect (← ask (Call.claim request.identity))
  ofExcept (require (position = 0) (.busy position))
  withFileLock request.identity.generationID (receive env request payload)

def committable : Prog Record :=
  if record.state = .receiving ∨ record.state = .validating then do
    ofExcept (require (record.bytesHave = record.identity.expectedSize) (.text "Whale PUT is incomplete"))
    prepareCommit env record
  else pure record

def publish : Prog PutResult := do
  reserve record.identity.generationID record.identity.expectedSize
  let _ ← load record.identity.generationID
  let record ← committable env record
  ofExcept (require (record.state = .committing) (.text "Whale PUT is not committable"))
  let (record, revision) ← publishWhale path record
  save { record with revision := revision, state := .published }
  cleanup record.identity
  pure (result { record with revision := revision, state := .published })

def commitLocked : Prog PutResult := do
  let path ← authorize client identity.logicalRepoID true
  let record ← requireRecord identity
  if record.state = .published then do
    cleanup record.identity
    pure (result record)
  else if record.state.terminal then fail (.text "Whale PUT is terminal")
  else publish env path record

def commit : Prog PutResult := do
  check identity.validate
  withFileLock identity.generationID (commitLocked env client identity)

def status : Prog PutResult := do
  let _ ← authorize client identity.logicalRepoID false
  let record ← requireRecord identity
  pure (result record)

inductive Demand
  | window (client : Str) (request : Request) (payload : List UInt8)
  | commit (client : Str) (identity : Identity)
  | status (client : Str) (identity : Identity)

def program : Demand → Prog PutResult
  | .window client request payload => serveWindow env client request payload
  | .commit client identity => commit env client identity
  | .status client identity => status client identity

end

end FileES.Whale
