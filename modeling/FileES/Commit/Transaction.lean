import FileES.Commit.Intent

/-! The durable commit as a machine: the journal and the queue's cache on disk, the service that works on them
and can die between any two writes, and the server. -/

namespace FileES.Commit

open Go Watcher Lib

def writeIntent (a : Account) (stored : StoredIntent) (i : CommitIntent) : Option StoredIntent :=
  match readIntentFile a stored with
  | .error _ => none
  | .ok old => if old.any (fun o => o.id ≠ i.id && o.phase ≠ .done) then none else some (written a i)

def revisionOf (revisions : List (Option CommitIntent)) (id : String) : Option ℤ :=
  (revisions.findIdx? (fun r => r.any (fun i => i.id = id))).map (fun k : ℕ => (k : ℤ) + 1)

def sameGeneration (cur : StageItem) (it : IntentItem) : Bool :=
  cur.oldRel = it.oldRel && cur.op = it.op && cur.firstSeen = it.firstSeen && cur.lastSeen = it.lastSeen

def retireItem (wc : Path) (d : Disk) (clean : Path → Bool) (staging : Staging) (it : IntentItem) : Staging :=
  match staging.lookup it.rel with
  | none => staging
  | some cur =>
    if !sameGeneration cur it then staging
    else if clean it.rel || (it.op = .deleted && d.absent (joinPath wc it.rel)) then staging.erase it.rel
    else if it.op = .renamed || it.op = .added then
      staging.insert it.rel { cur with
        op := .modified, oldRel := [], moveScheduled := false, renameVerified := false, ver := cur.ver + 1 }
    else if it.op = .deleted && (d.lstat (joinPath wc it.rel)).isOk then
      staging.insert it.rel { cur with op := .added, ver := cur.ver + 1 }
    else staging

def retireItems (wc : Path) (d : Disk) (clean : Path → Bool) (staging : Staging) (its : List IntentItem) : Staging :=
  its.foldl (retireItem wc d clean) staging

def loadCache (cache : Staging) : Staging :=
  Maps.mapVal (fun it => { it with ver := 0, placeholderWaitReported := false }) cache

def restage (staging : Staging) (plan : Plan) : Staging :=
  plan.items.foldl (fun m it => m.insert it.rel it) staging

inductive Control
  | idle
  | prepared (i : CommitIntent)
  | armed (i : CommitIntent)
  | waiting (i : CommitIntent) (sent : Bool)
  | answered (j : CommitIntent)
  | finishing (j : CommitIntent)
  | retired (j : CommitIntent)
  | closing (j : CommitIntent)
  deriving DecidableEq, Repr

structure Machine where
  journal : StoredIntent := .absent
  cache : Staging := ∅
  staging : Staging := ∅
  control : Control := .idle
  issued : List CommitIntent := []
  calls : List CommitIntent := []
  inFlight : List CommitIntent := []
  revisions : List (Option CommitIntent) := []
  clock : Time := 0

inductive Action (a : Account)
  | queue (now : Time) (staging : Staging)
  | save
  | crash
  | foreign
  | land (id : String)
  | abort (id : String)
  | flush (P : Pass) (t : Attempt a)
  | write
  | call (sent : Bool)
  | refused
  | replied
  | recover
  | retire (d : Disk) (clean : Path → Bool)
  | checkpoint
  | giveUp

variable (a : Account)

variable (s : Machine)

def Machine.record (i : CommitIntent) (next : Control) : Machine :=
  match writeIntent a s.journal i with
  | some stored => { s with journal := stored, control := next }
  | none => { s with control := .idle }

def Machine.land (id : String) : Machine :=
  match s.inFlight.find? (fun i => i.id = id) with
  | some i => { s with inFlight := s.inFlight.erase i, revisions := s.revisions ++ [some i] }
  | none => s

def Machine.flush (P : Pass) (t : Attempt a) : Machine :=
  match s.control, tryCommitLocked P s.staging with
  | .idle, .ok (some plan) =>
    let staging := restage s.staging plan
    match newIntent a { t with stored := s.journal, head := t.head.map (fun _ => s.revisions.length) } plan with
    | .ok i => { s with staging := staging, cache := staging, control := .prepared i, issued := i :: s.issued }
    | .error _ => { s with staging := staging }
  | _, _ => s

def Machine.write : Machine :=
  match s.control with
  | .prepared i => s.record a i (.armed i)
  | .answered j => s.record a j (if j.phase = .done then .idle else .finishing j)
  | .finishing j => if j.phase = .empty then s.record a j.finish .idle else s
  | .closing j => s.record a j.finish .idle
  | _ => s

def Machine.call (sent : Bool) : Machine :=
  match s.control with
  | .armed i => { s with
      calls := i :: s.calls, inFlight := if sent then i :: s.inFlight else s.inFlight, control := .waiting i sent }
  | _ => s

def Machine.refused : Machine :=
  match s.control with
  | .waiting i false => { s with control := .answered i.finish }
  | _ => s

def Machine.replied : Machine :=
  match s.control with
  | .waiting i _ =>
    if i ∈ s.inFlight then s
    else match revisionOf s.revisions i.id with
      | none => { s with control := .answered { i with phase := .empty } }
      | some rev =>
        if rev < i.firstRevision then { s with control := .idle } else { s with control := .answered (i.confirm rev) }
  | _ => s

def Machine.recover : Machine :=
  match s.control, readIntentFile a s.journal with
  | .idle, .ok (some i) =>
    match i.phase with
    | .attempting =>
      match revisionOf s.revisions i.id with
      | none => s
      | some rev => if rev < i.firstRevision then s else { s with control := .answered (i.confirm rev) }
    | .confirmed | .empty => { s with control := .finishing i }
    | _ => s
  | _, _ => s

def Machine.retire (d : Disk) (clean : Path → Bool) : Machine :=
  match s.control with
  | .finishing j =>
    if j.phase = .confirmed then
      { s with staging := retireItems a.wc d clean s.staging j.items, control := .retired j }
    else s
  | _ => s

def Machine.checkpoint : Machine :=
  match s.control with
  | .retired j => { s with cache := s.staging, control := .closing j }
  | _ => s

def Machine.step : Action a → Machine
  | .queue now staging => { s with staging := staging, clock := now }
  | .save => { s with cache := s.staging }
  | .crash => { s with staging := loadCache s.cache, control := .idle }
  | .foreign => { s with revisions := s.revisions ++ [none] }
  | .land id => s.land id
  | .abort id => { s with inFlight := s.inFlight.filter (fun i => i.id ≠ id) }
  | .flush P t => s.flush a P t
  | .write => s.write a
  | .call sent => s.call sent
  | .refused => s.refused
  | .replied => s.replied
  | .recover => s.recover a
  | .retire d clean => s.retire a d clean
  | .checkpoint => s.checkpoint
  | .giveUp => { s with control := .idle }

end FileES.Commit
