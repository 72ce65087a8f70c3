import FileES.Whale.Worker

/-! The worker processes that serve Whale downloads from a shared cache: a directory and a lock file for each transfer. -/

namespace FileES.WhaleCache

open Go Lib.Fallible Lib.Processes
open Whale (Identity Request Operation State WhaleError RepositoryAccess)

structure Env where
  sha256 : List UInt8 → Str
  access : Str → Str → Option RepositoryAccess
  discover : Str → Str → Str → ℤ → Option (Identity × ℤ)
  matchesRevision : Str → Identity → ℤ → Bool
  content : Str → Identity → ℤ → Option (List UInt8)
  lifetime : ℕ

structure GetRecord where
  (clientID transferID confirmationToken : Str)
  identity : Identity
  revision : ℤ
  expiresAt : ℕ
  deriving DecidableEq, Repr

def GetRecord.matches (r : GetRecord) (client : Str) (request : Request) : Bool :=
  r.clientID = client && r.transferID = request.transferID && r.confirmationToken = request.confirmationToken &&
    r.identity = request.identity && r.revision = request.revision

section

/-- A process locks the inode that it has opened. `missing` is history: the transfer found without a record. -/
structure Store where
  lockFile : Str → Option ℕ
  inodes : ℕ
  opened : ℕ → Option (Str × ℕ)
  locked : ℕ → Option ℕ
  directories : List Str
  record : Str → Option GetRecord
  payload : Str → Option (List UInt8)
  clock : ℕ
  missing : ℕ → Option Str

inductive Fate
  | done
  | failed
  | unsynced
  | recordGone
  | payloadGone
  deriving DecidableEq, Repr

def Fate.ok : Fate → Bool
  | .done => true
  | _ => false

def Fate.landed : Fate → Bool
  | .done | .unsynced => true
  | _ => false

inductive Call
  | resolve (client repo : Str)
  | makeRoot
  | list
  | now
  | inspect (id : Str)
  | readRecord (id : Str)
  | makeDirectory (id : Str)
  | reserve (id : Str) (size : ℤ)
  | unreserve (id : Str)
  | writeRecord (id : Str) (r : GetRecord)
  | statPayload (id : Str)
  | quote (path : Str) (i : Identity) (revision : ℤ)
  | discover (path repo logicalPath : Str) (revision : ℤ)
  | fetch (path : Str) (i : Identity) (revision : ℤ)
  | storePayload (id : Str) (content : List UInt8)
  | openPayload (id : Str)
  | stream (id : Str) (offset size : ℤ)
  | removeTransfer (id : Str) (pruning : Bool)
  | openLock (id : Str)
  | flock
  | unlock
  | unlink (id : Str)

abbrev Reply : Call → Type
  | .resolve _ _ => Option RepositoryAccess
  | .makeRoot => Bool
  | .list => Option (List Str)
  | .now => ℕ
  | .inspect _ => Option (Option GetRecord)
  | .readRecord _ => Option (Option GetRecord)
  | .makeDirectory _ => Bool
  | .reserve _ _ => Option ℕ
  | .unreserve _ => Bool
  | .writeRecord _ _ => Bool
  | .statPayload _ => Option Bool
  | .quote _ _ _ => Bool
  | .discover _ _ _ _ => Option (Identity × ℤ)
  | .fetch _ _ _ => Option (List UInt8)
  | .storePayload _ _ => Bool
  | .openPayload _ => Option ℤ
  | .stream _ _ _ => Bool
  | .removeTransfer _ _ => Bool
  | .openLock _ => Bool
  | .flock => Unit
  | .unlock => Unit
  | .unlink _ => Bool

open Function (update)

variable (pid : ℕ) (s : Store)

def Store.openLock (id : Str) : Store :=
  match s.lockFile id with
  | some n => { s with opened := update s.opened pid (some (id, n)) }
  | none =>
    { s with
      lockFile := update s.lockFile id (some s.inodes)
      inodes := s.inodes + 1
      opened := update s.opened pid (some (id, s.inodes)) }

def Store.close : Store :=
  { s with
    opened := update s.opened pid none
    locked := fun n => if s.locked n = some pid then none else s.locked n
    missing := update s.missing pid none }

def Store.remove (id : Str) : Fate → Store
  | .done | .unsynced =>
    { s with
      directories := s.directories.filter (· ≠ id)
      record := update s.record id none
      payload := update s.payload id none }
  | .recordGone => { s with record := update s.record id none }
  | .payloadGone => { s with payload := update s.payload id none }
  | .failed => s

def flock (s : Store) : Option (Store × Unit) :=
  match s.opened pid with
  | none => none
  | some (_, n) =>
    match s.locked n with
    | some _ => none
    | none => some ({ s with locked := update s.locked n (some pid) }, ())

def answer (env : Env) : (c : Call) → Store → Fate → Option (Store × Reply c)
  | .resolve client repo, s, w => some (s, if w.ok then env.access client repo else none)
  | .makeRoot, s, w => some (s, w.ok)
  | .list, s, w => some (s, if w.ok then some s.directories else none)
  | .now, s, _ => some (s, s.clock)
  | .inspect id, s, w =>
    if w.ok then
      some ({ s with missing := update s.missing pid (if (s.record id).isNone then some id else none) }, some (s.record id))
    else some (s, none)
  | .readRecord id, s, w => some (s, if w.ok then some (s.record id) else none)
  | .makeDirectory id, s, w =>
    some (if w.ok then { s with directories := if id ∈ s.directories then s.directories else s.directories ++ [id] } else s, w.ok)
  | .reserve _ _, s, w => some (s, if w.ok then some (s.clock + env.lifetime) else none)
  | .unreserve _, s, w => some (s, w.ok)
  | .writeRecord id r, s, w => some (if w.landed then { s with record := update s.record id (some r) } else s, w.ok)
  | .statPayload id, s, w => some (s, if w.ok then some (s.payload id).isSome else none)
  | .quote path i revision, s, w => some (s, w.ok && env.matchesRevision path i revision)
  | .discover path repo logicalPath revision, s, w =>
    some (s, if w.ok then env.discover path repo logicalPath revision else none)
  | .fetch path i revision, s, w => some (s, if w.ok then env.content path i revision else none)
  | .storePayload id content, s, w =>
    some (if w.landed then { s with payload := update s.payload id (some content) } else s, w.ok)
  | .openPayload id, s, w => some (s, if w.ok then (s.payload id).map (fun b => (b.length : ℤ)) else none)
  | .stream _ _ _, s, w => some (s, w.ok)
  | .removeTransfer id _, s, w => some (s.remove id w, w.ok)
  | .openLock id, s, w =>
    if w.ok then some (s.openLock pid id, true) else some ({ s with missing := update s.missing pid none }, false)
  | .flock, s, _ => flock pid s
  | .unlock, s, _ => some (s.close pid, ())
  | .unlink id, s, w => some (if w.landed then { s with lockFile := update s.lockFile id none } else s, w.ok)

def world (env : Env) : World Call Reply Store Fate Unit where
  answer pid c s w := answer pid env c s w
  die pid s := s.close pid
  outside _ s := { s with clock := s.clock + 1 }

end

section

abbrev Prog := Task Call Reply WhaleError

open Task

variable (id : Str) (env : Env) (client path : Str) (request : Request)

def check (x : Except Str Unit) : Prog Unit := ofExcept (x.mapError .text)

def settle (ok : Bool) : Prog Unit := if ok then pure () else fail .system

def expect {α : Type} : Option α → Prog α
  | some a => pure a
  | none => fail .system

def withFileLock {α : Type} (id : Str) (body : Prog α) : Prog α := do
  settle (← ask (Call.openLock id))
  ask Call.flock
  let result ← attempt body
  ask Call.unlock
  ofExcept result

def remove (pruning : Bool) : Prog Unit := do
  let removed ← ask (Call.removeTransfer id pruning)
  let released ← ask (Call.unreserve id)
  settle (removed && released)

def pruneMissing : Prog Unit := do
  withFileLock id (remove id true)
  let _ ← ask (Call.unlink id)
  pure ()

def removeExpired : Prog Unit := do
  match ← expect (← ask (Call.readRecord id)) with
  | none => fail .system
  | some r => do
    let now ← ask Call.now
    if now < r.expiresAt then pure () else remove id true

def pruneRecorded (now : ℕ) (r : GetRecord) : Prog Unit :=
  if now < r.expiresAt then pure ()
  else do
    withFileLock r.transferID (removeExpired r.transferID)
    let _ ← ask (Call.unlink r.transferID)
    pure ()

def pruneEntry (now : ℕ) (id : Str) : Prog Unit := do
  match ← expect (← ask (Call.inspect id)) with
  | none => pruneMissing id
  | some r => pruneRecorded now r

def pruneExpired : Prog Unit := do
  let entries ← expect (← ask Call.list)
  let now ← ask Call.now
  each (pruneEntry now) entries

def authorize (repo : Str) : Prog Str := do
  match ← ask (Call.resolve client repo) with
  | some a => if a.access = "r" ∨ a.access = "rw" then pure a.repositoryPath else fail .accessDenied
  | none => fail .accessDenied

def loadOrCreate : Prog GetRecord := do
  match ← expect (← ask (Call.readRecord request.transferID)) with
  | some r => if r.matches client request then pure r else fail .generationConflict
  | none => do
    settle (← ask (Call.makeDirectory request.transferID))
    pure ⟨client, request.transferID, request.confirmationToken, request.identity, request.revision, 0⟩

def materialize : Prog Unit := do
  let content ← expect (← ask (Call.fetch path request.identity request.revision))
  ofExcept (require ((content.length : ℤ) = request.identity.expectedSize && env.sha256 content = request.identity.sha256)
    .digestMismatch)
  settle (← ask (Call.storePayload request.transferID content))

def provide : Prog Unit := do
  let there ← expect (← ask (Call.statPayload request.transferID))
  onlyIf (!there) (do
    settle (← ask (Call.quote path request.identity request.revision))
    materialize env path request)

structure GetResult where
  (generationID transferID : Str)
  offset : ℤ
  state : State
  (revision expectedSize : ℤ)
  sha256 : Str
  payloadSize : ℤ
  expiresAt : ℕ
  deriving DecidableEq, Repr

def serve : Prog GetResult := do
  let record ← loadOrCreate client request
  let expires ← expect (← ask (Call.reserve request.transferID request.identity.expectedSize))
  let record := { record with expiresAt := expires }
  settle (← ask (Call.writeRecord request.transferID record))
  provide env path request
  let size ← expect (← ask (Call.openPayload request.transferID))
  ofExcept (require (size = request.identity.expectedSize) (.text "Whale GET cache is invalid"))
  settle (← ask (Call.stream request.transferID request.offset request.payloadSize))
  pure ⟨request.identity.generationID, request.transferID, request.offset, .materializing, request.revision,
    request.identity.expectedSize, request.identity.sha256, request.payloadSize, record.expiresAt⟩

def serveWindow : Prog GetResult := do
  ofExcept (require (request.operation = .getWindow) (.text "not a Whale GET window"))
  check request.validate
  let path ← authorize client request.identity.logicalRepoID
  settle (← ask Call.makeRoot)
  pruneExpired
  withFileLock request.transferID (serve env client path request)

def giveUp : Prog Unit := do
  match ← expect (← ask (Call.readRecord request.transferID)) with
  | some r => if r.matches client request then remove request.transferID false else fail .generationConflict
  | none => remove request.transferID false

def release (client : Str) (request : Request) : Prog GetResult := do
  ofExcept (require (request.operation = .getRelease) (.text "not a Whale GET release"))
  check request.validate
  let _ ← authorize client request.identity.logicalRepoID
  settle (← ask Call.makeRoot)
  withFileLock request.transferID (giveUp client request)
  let _ ← ask (Call.unlink request.transferID)
  pure ⟨request.identity.generationID, request.transferID, 0, .localFile, request.revision, request.identity.expectedSize,
    request.identity.sha256, 0, 0⟩

def quote (client : Str) (request : Request) : Prog GetResult := do
  ofExcept (require (request.operation = .getQuote) (.text "not a Whale GET quote"))
  check request.validate
  let path ← authorize client request.identity.logicalRepoID
  pruneExpired
  settle (← ask (Call.quote path request.identity request.revision))
  pure ⟨request.identity.generationID, [], 0, .awaitingConfirmation, request.revision, request.identity.expectedSize,
    request.identity.sha256, 0, 0⟩

def discover : Prog GetResult := do
  ofExcept (require (request.operation = .getDiscover) (.text "not a Whale GET discovery"))
  check request.validate
  let path ← authorize client request.identity.logicalRepoID
  pruneExpired
  let found ← expect (← ask (Call.discover path request.identity.logicalRepoID request.identity.logicalPath request.revision))
  pure ⟨found.1.generationID, [], 0, .awaitingConfirmation, found.2, found.1.expectedSize, found.1.sha256, 0, 0⟩

inductive Demand
  | window (client : Str) (request : Request)
  | release (client : Str) (request : Request)
  | quote (client : Str) (request : Request)
  | discover (client : Str) (request : Request)

def program : Demand → Prog GetResult
  | .window client request => serveWindow env client request
  | .release client request => release client request
  | .quote client request => quote client request
  | .discover client request => discover client request

end

end FileES.WhaleCache
