import FileES.Go.WalkDir
import FileES.Watcher.Scanner

/-! One scan of the working copy: the walk, rename detection and the deletion debounce. -/

namespace FileES.Watcher

open Go Lib

structure EntryInfo where
  isDir : Bool := false
  modTime : ℤ := 0
  size : ℕ := 0
  recallsOnRead : Bool := false
  identity : String := ""
  deriving DecidableEq, Repr

/-- What one scan meets: `md5` is `md5FileBudgeted`, `inTime` the test against the deadline, `ignoreLines` a changed
`user_ignore.cfg`, `workerMD5` the hashes that arrived meanwhile. -/
structure Scan where
  root : Root (Option EntryInfo)
  now : Time
  ignoreLines : Option (List Str) := none
  md5 : Path → ℕ → Option (String × ℕ) := fun _ _ => none
  inTime : Path → Bool := fun _ => true
  workerMD5 : List (Path × Meta) := []
  publicationPending : Bool := false
  available : Bool := true
  busy : Bool := false
  promoted : Bool := true
  checkpointed : Bool := true

def relOf (segs : List Str) : Path :=
  let rel := if segs = [] then ['.'] else join segs
  if hasPrefix rel ['.', '.'] then [] else rel

inductive Verdict
  | skipDir
  | skip
  | visit (rel : Path)
  deriving DecidableEq, Repr

def isTicket (rel : Path) : Bool :=
  rel = ".filees/tickets" || hasPrefix rel ".filees/tickets/"

def verdict (ig : Ignores) (segs : List Str) (d : Dirent (Option EntryInfo)) : Verdict :=
  if d.kind = .symlink then .skip
  else if d.kind = .dir ∧ d.name = ".svn" then .skipDir
  else if d.kind = .dir ∧ hasPrefix d.name "!kolizje" = true then .skipDir
  else
    let rel := relOf segs
    if rel = [] then .skip
    else if rel = ".filees" then .skip
    else if hasPrefix rel ".filees/" && !isTicket rel then if d.kind = .dir then .skipDir else .skip
    else if ig.isIgnored rel then if d.kind = .dir then .skipDir else .skip
    else .visit rel

structure PendingAdd where
  (abs rel : Path)
  isDir : Bool
  info : Meta
  deriving DecidableEq, Repr

structure WalkState where
  curr : Index := ∅
  deleted : Index
  missingSince : Maps.Map Path Time
  newFiles : List PendingAdd := []
  budget : ℕ
  events : List Event := []

def WalkState.emit (st : WalkState) (ev : Event) : WalkState := { st with events := st.events ++ [ev] }

def WalkState.spend (st : WalkState) (read : ℕ) : WalkState := { st with budget := st.budget - read }

def entryType (isDir : Bool) : EntryType := if isDir then .dir else .file

variable (s : Scanner) (V : Scan)

variable (emit : Bool) (st : WalkState) (rel : Path) (m : Meta)

def canHash (size : ℕ) : Bool :=
  s.useMD5 && size ≤ s.md5Cutoff && st.budget > 0 && V.inTime rel

def seen : WalkState :=
  { st with curr := st.curr.insert rel m, deleted := st.deleted.erase rel, missingSince := st.missingSince.erase rel }

def observeNew : WalkState :=
  let hashed := if canHash s V st rel m.size && !m.isDir then V.md5 rel st.budget else none
  let m := match hashed with
    | some (sum, _) => { m with md5 := sum }
    | none => m
  { st with curr := st.curr.insert rel m
            newFiles := st.newFiles ++ [⟨joinPath s.wc rel, rel, m.isDir, m⟩]
            budget := st.budget - (hashed.map Prod.snd).getD 0 }

def observeKnown (old : Meta) : WalkState :=
  let event (op : OpType) : Event :=
    { path := joinPath s.wc rel, rel := rel, type := entryType m.isDir, op := op }
  if (st.missingSince.lookup rel).isSome then
    (seen st rel (if m.isDir then m else { m with md5 := old.md5 })).emit (event .added)
  else if m.isDir then seen st rel m
  else if m.size = old.size ∧ m.mtimeSec = old.mtimeSec then seen st rel { m with md5 := old.md5 }
  else
    match if canHash s V st rel m.size then V.md5 rel st.budget else none with
    | some (sum, read) =>
      let st := (seen st rel { m with md5 := sum }).spend read
      if old.md5 = "" ∨ sum ≠ old.md5 then st.emit (event .modified) else st
    | none => (seen st rel m).emit (event .modified)

def observeBaseline : WalkState :=
  match if canHash s V st rel m.size && !m.isDir then V.md5 rel st.budget else none with
  | some (sum, read) => { st with curr := st.curr.insert rel { m with md5 := sum }, budget := st.budget - read }
  | none => { st with curr := st.curr.insert rel m }

def carryOver : WalkState :=
  match st.deleted.lookup rel with
  | some old => seen st rel old
  | none => st

def gather (info : Option EntryInfo) : WalkState :=
  match info with
  | none => st
  | some info =>
    if !info.isDir && info.recallsOnRead then carryOver st rel
    else
      let m : Meta := { mtimeSec := info.modTime, isDir := info.isDir, size := if info.isDir then 0 else info.size
                        identity := if !info.isDir && s.requireRenameIdentity then info.identity else "" }
      if !emit then observeBaseline s V st rel m
      else match st.deleted.lookup rel with
        | none => observeNew s V st rel m
        | some old => observeKnown s V st rel m old

def walkFn : Visitor WalkState (Option EntryInfo) where
  visit st segs d :=
    match verdict s.ignores segs d with
    | .skipDir => (st, true)
    | .skip => (st, false)
    | .visit rel => (gather s V emit st rel d.info, false)
  failed st _ := (st, false)

def candidates (deleted : Index) (field : Meta → String) (key : String) : List Path :=
  (deleted.entries.filter (fun e => !e.2.isDir && field e.2 ≠ "" && field e.2 = key)).map Sigma.fst

def countNew (newFiles : List PendingAdd) (field : Meta → String) (key : String) : ℕ :=
  newFiles.countP (fun nf => !nf.isDir && field nf.info = key)

def detectRename (start : Index) (newFiles : List PendingAdd) (st : WalkState) (nf : PendingAdd) : WalkState :=
  let field := if s.requireRenameIdentity then Meta.identity else Meta.md5
  let event (op : OpType) : Event := { path := nf.abs, rel := nf.rel, type := entryType nf.isDir, op := op }
  if nf.isDir then st.emit (event .added)
  else
    let olds := candidates start field (field nf.info)
    match olds, countNew newFiles field (field nf.info) with
    | [oldRel], 1 =>
      WalkState.emit { st with deleted := st.deleted.erase oldRel, missingSince := st.missingSince.erase oldRel }
        { event .renamed with oldRel := oldRel, identityVerified := s.requireRenameIdentity }
    | _, _ =>
      let uncertain := s.requireRenameIdentity && (!olds.isEmpty ||
        st.deleted.entries.any (fun e => !e.2.isDir && (e.2.identity = "" || nf.info.identity = "")) ||
        (candidates start Meta.md5 nf.info.md5).any (fun oldRel =>
          nf.info.identity = "" || ((st.deleted.lookup oldRel).getD {}).identity = ""))
      st.emit (event (if uncertain then .renameUncertain else .added))

def settleMissing (e : Sigma fun _ : Path => Meta) : WalkState :=
  match st.missingSince.lookup e.1 with
  | none => { st with missingSince := st.missingSince.insert e.1 V.now, curr := st.curr.insert e.1 e.2 }
  | some first =>
    if (V.now : ℤ) - first ≥ s.debounceD then
      WalkState.emit { st with missingSince := st.missingSince.erase e.1 }
        { path := joinPath s.wc e.1, rel := e.1, type := entryType e.2.isDir, op := .deleted }
    else { st with curr := st.curr.insert e.1 e.2 }

def walkTree : WalkState :=
  walkDir (walkFn s V emit) V.root
    { deleted := s.cur, missingSince := s.missingSince, budget := s.md5BudgetBytes }

def scanTreeEmit : WalkState :=
  let st := walkTree s V emit
  if !emit then { st with missingSince := ∅ }
  else
    let st := st.newFiles.foldl (detectRename s st.deleted st.newFiles) st
    st.deleted.entries.foldl (settleMissing s V) st

def scanTicketsEmit : List Event :=
  match (V.root.children.sub ".filees").bind (fun d => d.2.sub "tickets") with
  | none => []
  | some (err, tickets) =>
    (tickets.visits (fun _ _ => false) [".filees", "tickets"] err).filterMap (fun v =>
      if v.2.kind ≠ .dir && (s.cur.lookup (join v.1)).isNone then
        some { path := joinPath s.wc (join v.1), rel := join v.1, op := .added }
      else none)

def applyWorkerMD5 (m : Index) (e : Path × Meta) : Index :=
  match m.lookup e.1 with
  | some cur => if cur.mtimeSec = e.2.mtimeSec ∧ cur.size = e.2.size then m.insert e.1 { cur with md5 := e.2.md5 } else m
  | none => m

def checkpointEntry (observed : Index) (base : Index) (e : Sigma fun _ : Path => Meta) : Index :=
  match observed.lookup e.1 with
  | none => base
  | some m =>
    if e.2.identity ≠ "" || m.identity = "" || e.2.isDir || m.isDir || e.2.md5 = "" || e.2.md5 ≠ m.md5 ||
        e.2.size ≠ m.size || e.2.mtimeSec ≠ m.mtimeSec then base
    else base.insert e.1 { e.2 with identity := m.identity }

def checkpointIdentities (observed : Index) : Index :=
  if s.requireRenameIdentity && V.checkpointed then s.base.entries.foldl (checkpointEntry observed) s.base else s.base

def reloadIgnores : Scanner :=
  match V.ignoreLines with
  | some lines => { s with ignores := s.ignores.reload lines }
  | none => s

def scanCycle : Scanner × List Event :=
  let s := { s with sequence := s.sequence + 1 }
  if V.publicationPending || !V.available then (s, [])
  else
    let stamp (ev : Event) : Event := { ev with session := s.session, sequence := s.sequence }
    match s.mode with
    | .baselining =>
      let s := reloadIgnores s V
      let st := scanTreeEmit s V false
      let s := { s with missingSince := st.missingSince }
      (if V.promoted then { s with cur := st.curr, base := st.curr, mode := .active } else s, [])
    | .active =>
      if V.busy then (s, (scanTicketsEmit s V).map stamp)
      else
        let s := reloadIgnores s V
        let st := scanTreeEmit s V true
        let cur := V.workerMD5.foldl applyWorkerMD5 st.curr
        ({ s with missingSince := st.missingSince, cur := cur, base := checkpointIdentities s V cur },
          st.events.map stamp)

end FileES.Watcher
