import FileES.Go.Path
import FileES.Lib.Durable
import FileES.Lib.Effects
import FileES.Lib.Maps
import Mathlib.Data.List.Sort

/-! The edit-passport manager: passports in memory, their store on disk, and the calls to the lock backend. -/

namespace FileES.Passports

open Go Lib.Maps Lib.Durable Lib.Effects

inductive Stage
  | prepare
  | locking
  | checking
  | canceling
  | settling
  deriving DecidableEq, Repr

inductive Mode
  | acquire
  | migrate
  | renew
  deriving DecidableEq, Repr

inductive State
  | active
  | pending
  | releasing
  | lost
  | expired
  deriving DecidableEq, Repr

structure Metadata where
  (passportID instanceUID previousToken realmID : Str)
  (issuedAt expiresAt hardExpiresAt : ℕ)
  deriving DecidableEq, Repr

structure LockIntent where
  id : ℕ
  acquisition : Bool
  stage : Stage
  mode : Mode
  metadata : Metadata
  ticket : Bool
  deriving DecidableEq, Repr

structure Passport where
  (passportID instanceUID realmID fencingToken : Str)
  (issuedAt lastHeartbeatAt expiresAt hardExpiresAt : ℕ)
  closeAfter : Option ℕ
  state : State
  pending : Option LockIntent
  deriving DecidableEq, Repr

structure Lock where
  token : Str
  comment : Option Metadata
  deriving DecidableEq, Repr

structure Config where
  (ttl heartbeatInterval maxSession closeGrace : ℕ)
  instanceUID : Str
  (ownership fenceAcquisitions : Bool)

inductive Refusal
  | canceled
  | store
  | backend
  | binding
  | uncertain
  | requestConflict
  | aborted
  | stale
  | heldByOther
  | noPassport
  | passportLost
  | noPaths
  deriving DecidableEq, Repr

structure ReleaseReceipt where
  token : Str
  terminal : Bool
  deriving DecidableEq, Repr

structure Answer where
  alive : Bool
  now : ℕ
  save : Write
  (ok aborted gone fresh sameRealm : Bool)
  lock : Option Lock
  receipt : Option ReleaseReceipt
  uuid : Str
  deriving DecidableEq, Repr

inductive Call
  | prepare
  | acquire
  | confirm
  | reconcile
  | cancel
  | settle
  | found
  deriving DecidableEq, Repr

structure Entry where
  call : Call
  id : ℕ
  durable : Option Stage
  epoch : ℕ
  deriving DecidableEq, Repr

structure Manager where
  running : Bool
  (passports store synced : Map Path Passport)
  epoch : ℕ
  issued : List Path
  trace : List Entry

variable (cfg : Config) (now : ℕ) (paths : List Path) (path : Path) (p : Passport) (i : LockIntent)

def Manager.empty : Manager := ⟨false, ∅, ∅, ∅, 0, [], []⟩

abbrev M := Prog Manager Answer Refusal

def stageIn (passports : Map Path Passport) (path : Path) (id : ℕ) : Option Stage :=
  match (passports.lookup path).bind Passport.pending with
  | some i => if i.id = id then some i.stage else none
  | none => none

def put : M Unit :=
  update (fun m => { m with passports := m.passports.insert path p })

def delete : M Unit := update (fun m => { m with passports := m.passports.erase path })

def lookup : M (Option Passport) := do
  let m ← read
  pure (m.passports.lookup path)

def record (call : Call) (path : Path) (i : LockIntent) : M Unit :=
  update (fun m => { m with trace := m.trace ++ [⟨call, i.id, stageIn m.synced path i.id, m.epoch⟩] })

def saved (w : Write) (m : Manager) : Manager :=
  { m with store := w.store m.store m.passports, synced := if w.ok then m.passports else m.synced }

def saveLocked : M Unit := do
  let a ← ask
  update (saved a.save)
  if a.save.ok then pure () else fail .store

def ctxErr : M Unit := do
  let a ← ask
  if a.alive then pure () else fail .canceled

def nowUTC : M ℕ := do
  let a ← ask
  pure a.now

def Metadata.over (md : Metadata) (now : ℕ) : Bool := md.expiresAt ≤ now || md.hardExpiresAt ≤ now

def checkLive : M Unit := do
  ctxErr
  let now ← nowUTC
  if i.metadata.over now then fail .uncertain else pure ()

def validLockIntent (bound : Bool) (i : LockIntent) : Bool :=
  bound && (if i.acquisition then cfg.fenceAcquisitions else i.stage ≠ .settling)
    && i.metadata.issuedAt ≠ 0 && i.metadata.issuedAt < i.metadata.expiresAt
    && i.metadata.expiresAt ≤ i.metadata.hardExpiresAt
    && (if i.mode = .acquire then !i.ticket && i.metadata.previousToken = [] else i.ticket)

def validateLockIntent : M Unit := do
  let a ← ask
  if validLockIntent cfg a.ok i then pure () else fail .binding

def retirePending (cause : Refusal) : M Passport := do
  delete path
  let result ← attempt saveLocked
  match result with
  | .error _ => do
    put path p
    fail cause
  | .ok _ => fail cause

def Passport.atStage (stage : Stage) : Passport :=
  { p with pending := some { i with stage := stage } }

def settleLockIntent : M Unit := do
  record .settle path i
  let a ← ask
  if a.ok then pure () else fail .backend

def cancelLockIntent : M Unit := do
  record .cancel path i
  let a ← ask
  if a.ok then pure () else fail .backend

def cancelPending : M Passport :=
  if i.stage = .prepare ∨ i.stage = .canceling then do
    put path (p.atStage i .canceling)
    saveLocked
    onlyIf i.acquisition (settleLockIntent path { i with stage := .canceling })
    cancelLockIntent path { i with stage := .canceling }
    retirePending path (p.atStage i .canceling) .aborted
  else fail .uncertain

def settlePending : M Passport :=
  if i.acquisition then
    if i.stage = .locking ∨ i.stage = .checking ∨ i.stage = .settling then do
      put path (p.atStage i .settling)
      saveLocked
      settleLockIntent path { i with stage := .settling }
      retirePending path (p.atStage i .settling) .aborted
    else fail .binding
  else fail .uncertain

def unresolved (cause : Refusal) : M Passport :=
  if i.acquisition then settlePending path p i else fail cause

def confirmed (token : Str) (now : ℕ) : Passport :=
  { p with pending := none, state := .active, fencingToken := token, lastHeartbeatAt := now }

def activate (token : Str) : M Passport := do
  let now ← nowUTC
  put path (confirmed p token now)
  let result ← attempt saveLocked
  match result with
  | .error e => do
    put path p
    fail e
  | .ok _ => do
    let chmod ← ask
    if cfg.ownership && !chmod.ok then fail .store else pure (confirmed p token now)

def conclude (lock : Option Lock) : M Passport :=
  match lock with
  | none => unresolved path p i .uncertain
  | some lock =>
    if lock.token = [] then unresolved path p i .uncertain
    else do
      let live ← attempt (checkLive i)
      match live with
      | .error e => unresolved path p i e
      | .ok _ => activate cfg path p lock.token

def confirmLockIntent : M Passport := do
  record .confirm path i
  let a ← ask
  if a.ok then conclude cfg path p i a.lock else unresolved path p i .backend

def reconcileCompleted : M Passport := do
  record .reconcile path i
  let a ← ask
  if a.ok then
    if a.gone then retirePending path p .stale else conclude cfg path p i a.lock
  else unresolved path p i .backend

def checkCompleted (acquired : Option Lock) :
    M Passport := do
  saveLocked
  let a ← ask
  if acquired.isSome && a.fresh && a.alive then conclude cfg path p i acquired
  else reconcileCompleted cfg path p i

def acquireLockIntent : M Passport := do
  record .acquire path i
  let a ← ask
  if a.ok then do
    put path (p.atStage i .checking)
    checkCompleted cfg path (p.atStage i .checking) { i with stage := .checking } a.lock
  else fail .backend

def lockPending : M Passport := do
  put path (p.atStage i .locking)
  saveLocked
  checkLive i
  acquireLockIntent cfg path (p.atStage i .locking) { i with stage := .locking }

def preparePending : M Passport := do
  saveLocked
  record .prepare path i
  let a ← ask
  if a.ok then do
    ctxErr
    let live ← attempt (checkLive i)
    match live with
    | .error _ => cancelPending path p i
    | .ok _ => lockPending cfg path p i
  else if i.ticket && a.aborted then retirePending path p .aborted
  else fail .backend

def advancePending : M Passport :=
  match i.stage with
  | .prepare => do
    checkLive i
    preparePending cfg path p i
  | .locking => do
    onlyIf (!i.acquisition) (checkLive i)
    confirmLockIntent cfg path p i
  | .checking => checkCompleted cfg path p i none
  | .canceling => cancelPending path p i
  | .settling => settlePending path p i

def resumePending : M Passport :=
  match p.pending with
  | none => fail .binding
  | some i => do
    validateLockIntent cfg i
    ctxErr
    if i.stage = .settling then settlePending path p i
    else do
      let now ← nowUTC
      if i.stage = .canceling ∨ (i.stage = .prepare ∧ i.metadata.over now) then cancelPending path p i
      else advancePending cfg path p i

def newLockIntent (id : ℕ) (md : Metadata) (mode : Mode) : LockIntent :=
  ⟨id, cfg.fenceAcquisitions, .prepare, mode, md, mode ≠ .acquire⟩

def pendingPassport (closeAfter : Option ℕ) : Passport where
  passportID := i.metadata.passportID
  instanceUID := i.metadata.instanceUID
  realmID := i.metadata.realmID
  fencingToken := []
  issuedAt := i.metadata.issuedAt
  lastHeartbeatAt := 0
  expiresAt := i.metadata.expiresAt
  hardExpiresAt := i.metadata.hardExpiresAt
  closeAfter := closeAfter
  state := .pending
  pending := some i

def issue (m : Manager) : Manager :=
  { m with passports := m.passports.insert path p, issued := m.issued ++ [path] }

def beginPending (md : Metadata) (mode : Mode) (closeAfter : Option ℕ) :
    M Passport := do
  let m ← read
  let i := newLockIntent cfg m.issued.length md mode
  validateLockIntent cfg i
  update (issue path (pendingPassport i closeAfter))
  resumePending cfg path (pendingPassport i closeAfter)

def owns (lock : Option Lock) : Bool :=
  match lock with
  | none => false
  | some lock =>
    lock.token = p.fencingToken && match lock.comment with
      | none => false
      | some md => md.passportID = p.passportID && md.instanceUID = p.instanceUID

def inspect : M (Option Lock) := do
  let a ← ask
  if a.ok then pure a.lock else fail .backend

def rollback {α : Type} (cause : Refusal) : M α := do
  let _ ← attempt saveLocked
  fail cause

def cleanPaths : List Path :=
  (((paths.map (fun p => clean (trimSpace p))).filter (· ≠ ['.'])).dedup).insertionSort (· ≤ ·)

def reusable (p : Option Passport) (md : Metadata) (token : Str) (now : ℕ) : Bool :=
  match p with
  | none => false
  | some p => p.state = .active && p.passportID = md.passportID && p.fencingToken = token && !md.over now

def newMetadata (uuid realmID previousToken : Str) (now : ℕ) : Metadata :=
  ⟨uuid, cfg.instanceUID, previousToken, realmID, now, min (now + cfg.ttl) (now + cfg.maxSession), now + cfg.maxSession⟩

variable (realmID : Str)

def acquireFresh (previousToken : Str) (now : ℕ) (mode : Mode) :
    M Unit := do
  let a ← ask
  let _ ← beginPending cfg path (newMetadata cfg a.uuid realmID previousToken now) mode none
  pure ()

def sameRealm (viewed : Bool) (realmID : Str) (md : Metadata) : Bool :=
  if cfg.ownership && realmID ≠ [] then viewed else realmID ≠ [] && md.realmID = realmID

def acquireHeld (now : ℕ) (lock : Lock) (md : Metadata) :
    M Unit := do
  let a ← ask
  if cfg.ownership && realmID ≠ [] && !a.ok then rollback .backend
  else if !sameRealm cfg a.sameRealm realmID md && (cfg.ownership || now < md.expiresAt) then rollback .heldByOther
  else acquireFresh cfg path realmID lock.token now .migrate

def acquireInspected (now : ℕ) (lock : Option Lock) : M Unit :=
  match lock with
  | none => acquireFresh cfg path realmID [] now .acquire
  | some lock =>
    match lock.comment with
    | none => rollback .heldByOther
    | some md => do
      let found ← lookup path
      if reusable found md lock.token now then pure ()
      else acquireHeld cfg path realmID now lock md

def acquireUnheld (now : ℕ) : M Unit := do
  let result ← attempt inspect
  match result with
  | .error e => rollback e
  | .ok lock => acquireInspected cfg path realmID now lock

def acquirePath (now : ℕ) (path : Path) : M Unit := do
  let found ← lookup path
  match found with
  | none => acquireUnheld cfg path realmID now
  | some p =>
    match p.state with
    | .releasing => fail .uncertain
    | .pending =>
      if p.realmID ≠ realmID then fail .requestConflict
      else do
        let _ ← resumePending cfg path p
        pure ()
    | _ => acquireUnheld cfg path realmID now

def acquire : M Unit :=
  if cleanPaths paths = [] then fail .noPaths
  else do
    let now ← nowUTC
    each (acquirePath cfg realmID now) (cleanPaths paths)
    let result ← attempt saveLocked
    match result with
    | .error e => rollback e
    | .ok _ => pure ()

def Passport.lose : Passport := { p with state := .lost, closeAfter := none }

def forget : M Unit := do
  ctxErr
  delete path
  let result ← attempt saveLocked
  match result with
  | .error e => do
    put path p
    fail e
  | .ok _ => pure ()

def unlockOwned : M Unit := do
  let current ← inspect
  if owns p current then do
    let a ← ask
    if a.ok then forget path p else fail .backend
  else do
    put path { p with state := .lost }
    let _ ← attempt saveLocked
    fail .passportLost

def releaseToken : M Unit := do
  saveLocked
  let a ← ask
  if a.ok then do
    ctxErr
    match a.receipt with
    | none => unlockOwned path p
    | some proof => if proof.token = p.fencingToken && proof.terminal then forget path p else fail .binding
  else fail .backend

def Passport.releasing : Passport :=
  if p.state = .releasing then p else { p with state := .releasing, closeAfter := none }

def releaseWithReceipt : M Unit := do
  put path p.releasing
  releaseToken path p.releasing

def releasePath : M Unit := do
  let found ← lookup path
  match found with
  | none => fail .noPassport
  | some p =>
    match p.state with
    | .pending => fail .uncertain
    | .active => releaseWithReceipt path p
    | .releasing => releaseWithReceipt path p
    | _ => fail .noPassport

def release : M Unit := do
  each releasePath (cleanPaths paths)
  saveLocked

def firstError (first : Option Refusal) : Except Refusal Unit → Option Refusal
  | .ok _ => first
  | .error e => some (first.getD e)

def collect (f : Path → M Unit) : List Path → Option Refusal → M (Option Refusal)
  | [], first => pure first
  | path :: order, first => do
    let result ← attempt (f path)
    collect f order (firstError first result)

def sweep (f : Path → M Unit) (order : List Path) : M Unit := do
  let first ← collect f order none
  let result ← attempt saveLocked
  match firstError first result with
  | none => pure ()
  | some e => fail e

def renewMetadata (now : ℕ) : Metadata :=
  ⟨p.passportID, p.instanceUID, p.fencingToken, p.realmID, p.issuedAt, min (now + cfg.ttl) p.hardExpiresAt,
    p.hardExpiresAt⟩

def heartbeatActive : M Unit := do
  let lock ← inspect
  if owns p lock then
    if now + cfg.heartbeatInterval < p.expiresAt then pure ()
    else do
      let _ ← beginPending cfg path (renewMetadata cfg p now) .renew p.closeAfter
      pure ()
  else do
    put path p.lose
    fail .passportLost

def Passport.closes (now : ℕ) : Bool :=
  (match p.closeAfter with
    | none => false
    | some t => t ≤ now) || p.hardExpiresAt ≤ now

def heartbeatPath : M Unit := do
  let found ← lookup path
  match found with
  | none => pure ()
  | some p =>
    match p.state with
    | .releasing => releaseWithReceipt path p
    | .pending => do
      let _ ← resumePending cfg path p
      pure ()
    | .active => if p.closes now then releaseWithReceipt path p else heartbeatActive cfg now path p
    | _ => pure ()

def heartbeat (order : List Path) : M Unit := do
  let now ← nowUTC
  sweep (heartbeatPath cfg now) order

def releaseAllPath : M Unit := do
  let found ← lookup path
  match found with
  | none => pure ()
  | some p =>
    match p.state with
    | .pending => fail .uncertain
    | .active => releaseWithReceipt path p
    | .releasing => releaseWithReceipt path p
    | _ => pure ()

def releaseAll (order : List Path) : M Unit := sweep releaseAllPath order

def authorizePath : M Unit := do
  let found ← lookup path
  match found with
  | none => fail .noPassport
  | some p =>
    if p.state = .pending then fail .uncertain
    else if p.state ≠ .active ∨ p.expiresAt ≤ now then fail .noPassport
    else do
      let lock ← inspect
      if owns p lock then pure ()
      else do
        put path p.lose
        let _ ← attempt saveLocked
        fail .passportLost

def authorize : M Unit := do
  let now ← nowUTC
  each (authorizePath now) (cleanPaths paths)

variable (change : Passport → Option Passport)

def note (touches : Passport → Bool) (path : Path) : M Unit := do
  let found ← lookup path
  match found with
  | none => pure ()
  | some p =>
    if touches p then
      match change p with
      | none => delete path
      | some q => put path q
    else pure ()

def noteAll (touches : Passport → Bool) (paths : List Path) : M Unit := do
  let m ← read
  each (note change touches) paths
  if paths.any (fun path => (m.passports.lookup path).any touches) then do
    let _ ← attempt saveLocked
    pure ()
  else pure ()

def forgetRemoved : M Unit :=
  noteAll (fun _ => none) (fun p => p.state ≠ .pending) (cleanPaths paths)

def touch : M Unit :=
  noteAll (fun p => some { p with closeAfter := none }) (fun p => p.state = .active && p.closeAfter.isSome) [clean path]

def markPublished : M Unit := do
  let now ← nowUTC
  noteAll (fun p => some { p with closeAfter := some (now + cfg.closeGrace) }) (fun p => p.state = .active)
    (cleanPaths paths)

def loadable (bound : Bool) (p : Passport) : Bool :=
  (p.state ≠ .releasing || (p.instanceUID = cfg.instanceUID && p.pending.isNone)) &&
  match p.pending with
  | some i =>
    p.state = .pending && p.fencingToken = [] && p.passportID = i.metadata.passportID
      && p.instanceUID = i.metadata.instanceUID && p.instanceUID = cfg.instanceUID && p.realmID = i.metadata.realmID
      && p.issuedAt = i.metadata.issuedAt && p.expiresAt = i.metadata.expiresAt
      && p.hardExpiresAt = i.metadata.hardExpiresAt && validLockIntent cfg bound i
  | none => p.state ≠ .pending && p.passportID ≠ [] && p.fencingToken ≠ []

def foundEntries (m : Manager) : List Entry :=
  m.store.entries.filterMap (fun e =>
    match e.2.pending with
    | some i => if i.stage = .locking then some ⟨.found, i.id, stageIn m.synced e.1 i.id, m.epoch⟩ else none
    | none => none)

def start (bound : Bool) (m : Manager) : Manager :=
  if m.store.entries.all (fun e => loadable cfg bound e.2) then
    { m with running := true, passports := m.store, trace := m.trace ++ foundEntries m }
  else m

def kill (power : Bool) (m : Manager) : Manager :=
  { m with running := false, passports := ∅, store := if power then m.synced else m.store,
           epoch := if power then m.epoch + 1 else m.epoch }

inductive Request
  | acquire (paths : List Path) (realmID : Str)
  | release (paths : List Path)
  | heartbeat (order : List Path)
  | releaseAll (order : List Path)
  | authorize (paths : List Path)
  | forgetRemoved (paths : List Path)
  | touch (path : Path)
  | markPublished (paths : List Path)

def Request.prog : Request → M Unit
  | .acquire paths realmID => Passports.acquire cfg paths realmID
  | .release paths => Passports.release paths
  | .heartbeat order => Passports.heartbeat cfg order
  | .releaseAll order => Passports.releaseAll order
  | .authorize paths => Passports.authorize paths
  | .forgetRemoved paths => Passports.forgetRemoved paths
  | .touch path => Passports.touch path
  | .markPublished paths => Passports.markPublished cfg paths

inductive Event
  | request (r : Request) (script : List Answer)
  | start (bound : Bool)
  | kill (power : Bool)

def serve (m : M Unit) (s : Manager) (script : List Answer) : Manager :=
  match m s script with
  | (.error .crash, s, _) => kill false s
  | (_, s, _) => s

def step (m : Manager) : Event → Manager
  | .request r script => if m.running then serve (r.prog cfg) m script else m
  | .start bound => if m.running then m else start cfg bound m
  | .kill power => kill power m

end FileES.Passports
