import FileES.Go.Path
import FileES.Go.UUID
import FileES.Lib.Durable
import FileES.Lib.Maps

/-! The journal of passport acquisitions on the server: the worker that arms and closes them, the `pre-lock` hook that
admits them, and the SVN processes that take the locks. -/

namespace FileES.RepoWorker

open Go Lib.Maps Lib.Durable

structure Comment where
  (acquisitionID passportID instanceUID previousToken realmID : Str)
  (issuedAt expiresAt hardExpiresAt : ℕ)
  deriving DecidableEq, Repr

inductive ExecutionState
  | armed
  | started
  | closing
  | closed
  deriving DecidableEq, Repr

structure Execution where
  (repoID repositoryUUID clientID realmID : Str)
  path : Path
  comment : Comment
  state : ExecutionState
  executorPID : ℕ
  observedToken : Option ℕ
  expiresAt : ℕ
  deriving DecidableEq, Repr

structure SvnLock where
  token : ℕ
  owner : Str
  comment : Option Comment
  deriving DecidableEq, Repr

abbrev Key := Str × Str

structure Permit where
  pid : ℕ
  repo : Str
  path : Path
  owner : Str
  comment : Comment
  deriving DecidableEq, Repr

def Permit.key (p : Permit) : Key := (p.repo, p.comment.acquisitionID)

inductive Point
  | mark
  | orphan
  | inspect
  | observe (lock : Option SvnLock)
  | live (lock : Option SvnLock)
  | unlock (lock : Option SvnLock)
  | finish
  deriving DecidableEq, Repr

structure Closing where
  key : Key
  record : Execution
  generation : Option Str
  point : Point
  deriving DecidableEq, Repr

structure Server where
  journal : Map Key Execution
  generations : Map Str Str
  locks : Map (Str × Path) SvnLock
  permits : List Permit
  alive : List ℕ
  worker : Option Closing
  tokens : ℕ
  trace : List (Key × ExecutionState)

def Server.empty : Server := ⟨∅, ∅, ∅, [], [], none, 0, []⟩

def executionMetadata (c : Comment) : Bool :=
  canonicalUUID c.acquisitionID && canonicalUUID c.passportID && canonicalUUID c.instanceUID
    && (c.realmID = [] || canonicalUUID c.realmID)
    && c.issuedAt ≠ 0 && c.issuedAt < c.expiresAt && c.expiresAt ≤ c.hardExpiresAt
    && c.hardExpiresAt - c.issuedAt ≤ 86400

def readable (r : Execution) : Bool :=
  executionMetadata r.comment && (r.comment.realmID = [] || r.realmID = r.comment.realmID)
    && r.expiresAt = r.comment.expiresAt && r.executorPID ≠ 1
    && (r.state ≠ .started || 1 < r.executorPID) && (r.state ≠ .armed || r.executorPID = 0)
    && (r.executorPID ≠ 0 || r.observedToken = none)

def readExecution (s : Server) (io : Bool) (key : Key) : Except Unit (Option Execution) :=
  match s.journal.lookup key with
  | none => .ok none
  | some r => if io && readable r then .ok (some r) else .error ()

def Server.write (s : Server) (w : Write) (key : Key) (r : Execution) : Server :=
  if w.landed then { s with journal := s.journal.insert key r } else s

structure Request where
  arm : Bool
  repoID : Str
  path : Path
  comment : Comment
  (clientID realmID : Str)

structure Answer where
  (admitted io : Bool)
  now : ℕ
  (first second : Write)

variable (s : Server) (c : Closing) (q : Request) (r : Execution)

def newExecution (r : Request) (generation : Str) (now : ℕ) : Execution where
  repoID := r.repoID
  repositoryUUID := generation
  clientID := r.clientID
  realmID := r.realmID
  path := r.path
  comment := r.comment
  state := if !r.arm || r.comment.expiresAt ≤ now then .closed else .armed
  executorPID := 0
  observedToken := none
  expiresAt := r.comment.expiresAt

def Request.binds : Bool :=
  r.repoID = q.repoID && r.clientID = q.clientID && r.realmID = q.realmID && r.path = q.path && r.comment = q.comment

def Request.early (now : ℕ) : Bool :=
  q.arm && (now + 60 < q.comment.issuedAt || now + 86400 < q.comment.expiresAt)

def handleRecord (a : Answer) (generation : Str) (key : Key) (r : Execution) : Server :=
  if q.binds r then
    if q.arm then
      if r.state = .armed ∧ r.expiresAt ≤ a.now then s.write a.second key { r with state := .closed } else s
    else { s with worker := some ⟨key, r, some generation, .mark⟩ }
  else s

def handle (a : Answer) : Server :=
  match s.worker, s.generations.lookup q.repoID with
  | none, some generation =>
    if a.admitted && executionMetadata q.comment && (q.comment.realmID = [] || q.comment.realmID = q.realmID) then
      let key := (q.repoID, q.comment.acquisitionID)
      match readExecution s a.io key with
      | .error _ => s
      | .ok (some r) => handleRecord s q a generation key r
      | .ok none =>
        let r := newExecution q generation a.now
        if q.early a.now then s
        else if a.first.ok then handleRecord (s.write a.first key r) q a generation key r
        else s.write a.first key r
    else s
  | _, _ => s

def expirePath (repo : Str) (path : Path) (io : Bool) (now : ℕ) : Server :=
  match s.worker, s.locks.lookup (repo, path) with
  | none, some lock =>
    match lock.comment, s.generations.lookup repo with
    | some c, some generation =>
      if c.acquisitionID ≠ [] ∧ (c.expiresAt ≤ now ∨ c.hardExpiresAt ≤ now) then
        match readExecution s io (repo, c.acquisitionID) with
        | .ok (some r) =>
          if r.clientID = lock.owner ∧ r.path = path ∧ r.comment = c ∧ r.repoID = repo ∧ r.expiresAt ≤ now then
            { s with worker := some ⟨(repo, c.acquisitionID), r, some generation, .mark⟩ }
          else s
        | _ => s
      else s
    | _, _ => s
  | _, _ => s

def reap (key : Key) (io : Bool) (now : ℕ) : Server :=
  match s.worker, readExecution s io key with
  | none, .ok (some r) =>
    if r.repoID = key.1 ∧ r.comment.acquisitionID = key.2 ∧
        r.state ≠ .closed ∧ (r.state = .closing ∨ r.expiresAt ≤ now) then
      { s with worker := some ⟨key, r, s.generations.lookup key.1, .mark⟩ }
    else s
  | _, _ => s

structure Reply where
  ok : Bool
  write : Write

def Server.idle : Server := { s with worker := none }

def Server.goto (point : Point) : Server := { s with worker := some { c with point := point } }

def matching : Option SvnLock → Bool
  | none => false
  | some lock => lock.owner = r.clientID && lock.comment = some r.comment

def Server.saveThen (w : Write) (point : Point) : Server :=
  if w.ok then (s.write w c.key r).goto { c with record := r } point else (s.write w c.key r).idle

def executorDead (pid : ℕ) : Bool := 1 < pid && !s.alive.contains pid

def current (token : ℕ) : Bool :=
  match s.locks.lookup (r.repoID, r.path) with
  | none => false
  | some lock => lock.token = token && lock.owner = r.clientID

def breakLock : Server := { s with locks := s.locks.erase (r.repoID, r.path) }

def unlockIfCurrent (token : ℕ) (w : Write) : Server :=
  if current s c.record token then
    if w.ok then (breakLock s c.record).goto c .finish
    else if w.landed then (breakLock s c.record).idle
    else s.idle
  else s.idle

def closeStep (a : Reply) : Server :=
  match c.point with
  | .mark =>
    if c.record.state = .closed then s.idle
    else s.saveThen c { c.record with state := .closing } a.write
      (if some c.record.repositoryUUID ≠ c.generation then
        if 1 < c.record.executorPID then .orphan else .finish
      else .inspect)
  | .orphan => if executorDead s c.record.executorPID then s.goto c .finish else s.idle
  | .inspect => if a.ok then s.goto c (.observe (s.locks.lookup (c.record.repoID, c.record.path))) else s.idle
  | .observe lock =>
    match lock, c.record.observedToken with
    | some l, none =>
      if matching c.record (some l) ∧ 1 < c.record.executorPID then
        s.saveThen c { c.record with observedToken := some l.token } a.write (.live lock)
      else s.goto c (.live lock)
    | _, _ => s.goto c (.live lock)
  | .live lock =>
    if c.record.observedToken = none ∧ 1 < c.record.executorPID then
      if executorDead s c.record.executorPID then s.goto c (.unlock lock) else s.idle
    else s.goto c (.unlock lock)
  | .unlock lock =>
    match lock, c.record.observedToken with
    | some l, some token =>
      if matching c.record (some l) ∧ token = l.token then unlockIfCurrent s c token a.write else s.goto c .finish
    | _, _ => s.goto c .finish
  | .finish => (s.write a.write c.key { c.record with state := .closed }).idle

structure Hook where
  pid : ℕ
  repo : Str
  path : Path
  owner : Str
  comment : Comment
  now : ℕ
  io : Bool
  write : Write
  accepted : Bool

variable (repo : Str) (h : Hook)

def Hook.key : Key := (h.repo, h.comment.acquisitionID)

def Hook.matches (r : Execution) (generation : Str) : Bool :=
  r.state = .armed && r.repositoryUUID = generation && r.clientID = h.owner && r.path = h.path
    && r.comment = h.comment && r.repoID = h.repo

def Hook.permit : Permit := ⟨h.pid, h.repo, h.path, h.owner, h.comment⟩

def Execution.start (r : Execution) (pid : ℕ) : Execution := { r with state := .started, executorPID := pid }

def Server.admitted (before : ExecutionState) : Server :=
  { s with trace := s.trace ++ [(h.key, before)], permits := if h.accepted then h.permit :: s.permits else s.permits }

def admitPassportExecution : Server :=
  match s.generations.lookup h.repo, readExecution s h.io h.key with
  | some generation, .ok (some r) =>
    if executionMetadata h.comment ∧ 1 < h.pid ∧ h.pid ∈ s.alive ∧ s.worker.map Closing.key ≠ some h.key ∧
        h.matches r generation then
      if r.expiresAt ≤ h.now then s.write h.write h.key { r with state := .closed }
      else if h.write.ok then (s.write h.write h.key (r.start h.pid)).admitted h r.state
      else s.write h.write h.key (r.start h.pid)
    else s
  | _, _ => s

def takeLock (p : Permit) : Server :=
  if p ∈ s.permits then
    let s := { s with permits := s.permits.erase p }
    match s.locks.lookup (p.repo, p.path) with
    | some _ => s
    | none =>
      { s with locks := s.locks.insert (p.repo, p.path) ⟨s.tokens, p.owner, some p.comment⟩, tokens := s.tokens + 1 }
  else s

def plainLock (path : Path) (owner : Str) (comment : Option Comment) : Server :=
  if s.locks.lookup (repo, path) = none ∧ ∀ c ∈ comment, c.acquisitionID = [] then
    { s with locks := s.locks.insert (repo, path) ⟨s.tokens, owner, comment⟩, tokens := s.tokens + 1 }
  else s

def clearRepository (locks : Map (Str × Path) SvnLock) : Map (Str × Path) SvnLock :=
  (locks.keys.filter (fun k => k.1 = repo)).foldl (fun m k => m.erase k) locks

inductive Event
  | handle (q : Request) (a : Answer)
  | expirePath (repo : Str) (path : Path) (io : Bool) (now : ℕ)
  | reap (key : Key) (io : Bool) (now : ℕ)
  | close (a : Reply)
  | restart
  | spawn (pid : ℕ)
  | preLock (h : Hook)
  | takeLock (p : Permit)
  | refuse (p : Permit)
  | exit (pid : ℕ)
  | plainLock (repo : Str) (path : Path) (owner : Str) (comment : Option Comment)
  | unlock (repo : Str) (path : Path)
  | replace (repo : Str) (generation : Option Str)

def replace (generation : Option Str) : Server :=
  match s.worker, generation with
  | some _, _ => s
  | none, some g => { s with generations := s.generations.insert repo g, locks := clearRepository repo s.locks }
  | none, none => { s with generations := s.generations.erase repo, locks := clearRepository repo s.locks }

def step : Event → Server
  | .handle q a => RepoWorker.handle s q a
  | .expirePath repo path io now => RepoWorker.expirePath s repo path io now
  | .reap key io now => RepoWorker.reap s key io now
  | .close a =>
    match s.worker with
    | some c => closeStep s c a
    | none => s
  | .restart => s.idle
  | .spawn pid => { s with alive := pid :: s.alive }
  | .preLock h => admitPassportExecution s h
  | .takeLock p => RepoWorker.takeLock s p
  | .refuse p => { s with permits := s.permits.erase p }
  | .exit pid => { s with alive := s.alive.filter (· ≠ pid), permits := s.permits.filter (·.pid ≠ pid) }
  | .plainLock repo path owner comment => RepoWorker.plainLock s repo path owner comment
  | .unlock repo path => { s with locks := s.locks.erase (repo, path) }
  | .replace repo generation => RepoWorker.replace s repo generation

end FileES.RepoWorker
