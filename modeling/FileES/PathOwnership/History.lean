import FileES.Go.Rooted
import FileES.Lib.Fallible
import FileES.Lib.Maps

/-! The replay of a repository's log that tells which object stands under each path. -/

namespace FileES.PathOwnership

open Go Lib.Fallible Lib.Maps

inductive Action
  | A
  | M
  | D
  | R
  | other (text : Str)
  deriving DecidableEq, Repr

inductive Kind
  | file
  | dir
  | other (text : Str)
  deriving DecidableEq, Repr

structure Change where
  path : Path
  action : Action
  kind : Kind
  copyFrom : Path
  copyRevision : ℤ
  deriving DecidableEq, Repr

structure Revision where
  number : ℤ
  author : Str
  changes : List Change
  deriving DecidableEq, Repr

structure Object where
  id : Str
  createdRevision : ℤ
  firstCommitter : Str
  kind : Kind
  deriving DecidableEq, Repr

structure Entry where
  path : Path
  object : Object
  deriving DecidableEq, Repr

structure Snapshot where
  revision : ℤ
  entries : List Entry
  deriving DecidableEq, Repr

abbrev Tree := Map Path Object

structure Hash where
  sum : Str → Str
  ne_nil : ∀ s, sum s ≠ []

variable (H : Hash) (repo : Str) (before : Tree) (history : Map ℤ Tree) (revisions : List Revision) (rev : Revision)

def canonical (value : Path) (allowRoot : Bool) : Bool :=
  hasPrefix value ['/'] && clean value = value && !containsAny value ['\x00', '\r', '\n', '\\']
    && (allowRoot || value ≠ ['/'])

def under (value parent : Path) : Bool := value = parent || parent = ['/'] || hasPrefix value (parent ++ ['/'])

def formatInt : ℤ → Str
  | .ofNat n => Nat.toDigits 10 n
  | .negSucc n => '-' :: Nat.toDigits 10 (n + 1)

def objectID (revision : ℤ) (p : Path) : Str :=
  H.sum (repo ++ '\x00' :: formatInt revision ++ '\x00' :: p)

def newObject (revision : ℤ) (author : Str) (p : Path) (kind : Kind) : Object :=
  ⟨objectID H repo revision p, revision, author, kind⟩

variable (changes : List Change) (c : Change) (tree : Tree) (p : Path)

def Change.removes : Bool := c.action = .D || c.action = .R

def Change.adds : Bool := c.action = .A || c.action = .R

def checkChange (number : ℤ) (c : Change) : Except Str Unit := do
  require (canonical c.path true && (c.action = .A || c.action = .M || c.action = .D || c.action = .R))
    "invalid SVN ownership change"
  require (c.copyFrom = [] || (canonical c.copyFrom true && 0 ≤ c.copyRevision && c.copyRevision < number && c.adds))
    "invalid copy ancestry"

def checkRevision (i : ℕ) (rev : Revision) : Except Str Unit := do
  require (rev.number = (i : ℤ) + 1) "non-contiguous ownership history"
  let _ ← rev.changes.mapM (checkChange rev.number)

def checkRevisions (i : ℕ) : List Revision → Except Str Unit
  | [] => .ok ()
  | rev :: rest => do
    checkRevision i rev
    checkRevisions (i + 1) rest

def lastUse (r : ℤ) : Option ℤ :=
  (revisions.reverse.find? (fun rev => rev.changes.any (fun c => c.copyFrom ≠ [] && c.copyRevision = r))).map Revision.number

def needed (r : ℤ) : Bool := (lastUse revisions r).isSome

structure State where
  tree : Tree
  history : Map ℤ Tree
  retainedNodes : ℤ

def rootTree : Tree := AList.singleton ['/'] (newObject H repo 0 [] ['/'] .dir)

def State.start : State := ⟨rootTree H repo, AList.singleton 0 (rootTree H repo), 1⟩

def remove (c : Change) : Tree := if c.removes then discard (fun p => under p c.path) tree else tree

def deleted : Bool := rev.changes.any (fun c => c.removes && under p c.path)

def idAt : Str := ((tree.lookup p).map Object.id).getD []

def sourceOf : Tree := (history.lookup c.copyRevision).getD ∅

def uses (source : Change → Tree) (changes : List Change) (p : Path) (id : Str) : ℕ :=
  changes.countP (fun c => c.copyFrom ≠ [] && under p c.copyFrom && idAt (source c) p = id)

def destination : Path :=
  if c.copyFrom = ['/'] then joinPath c.path p else c.path ++ trimPrefix p c.copyFrom

def continuation (old : Object) : Bool := deleted rev p && idAt before p = old.id

def copied (old : Object) : Object :=
  if continuation before rev p old then old else newObject H repo rev.number rev.author (destination c p) old.kind

def copyNode (node : Path × Object) : Except Str Tree := do
  if under node.1 c.copyFrom then
    require (!continuation before rev node.1 node.2 || uses (sourceOf history) changes node.1 node.2.id = 1)
      "ambiguous object continuation"
    pure (tree.insert (destination c node.1) (copied H repo before rev c node.1 node.2))
  else pure tree

def nodes : List (Path × Object) := tree.entries.map (fun e => (e.1, e.2))

def addNode : Except Str Tree :=
  if c.copyFrom = [] then do
    require (c.kind = .file || c.kind = .dir) "unknown added node kind"
    pure (tree.insert c.path (newObject H repo rev.number rev.author c.path c.kind))
  else
    match history.lookup c.copyRevision with
    | none => .error "copy revision unavailable"
    | some source =>
      if (source.lookup c.copyFrom).isSome then
        (nodes source).foldlM (copyNode H repo before history rev changes c) tree
      else .error "copy source unavailable"

def applyChange (c : Change) : Except Str Tree :=
  if c.adds then addNode H repo before history rev changes c (remove tree c) else .ok (remove tree c)

def sorted : List Change := changes.insertionSort (fun a b => a.path ≤ b.path)

def retain (s : State) : Except Str State :=
  if needed revisions rev.number then do
    require (s.retainedNodes + s.tree.entries.length ≤ 500000) "ownership ancestry cache exceeds node budget"
    pure { s with
      history := s.history.insert rev.number s.tree
      retainedNodes := s.retainedNodes + s.tree.entries.length }
  else .ok s

def release (s : State) (c : Change) : State :=
  if c.copyFrom ≠ [] ∧ lastUse revisions c.copyRevision = some rev.number then
    { s with
      history := s.history.erase c.copyRevision
      retainedNodes := s.retainedNodes - (sourceOf s.history c).entries.length }
  else s

def applyRevision (s : State) (rev : Revision) :
    Except Str State := do
  let tree ← (sorted rev.changes).foldlM (applyChange H repo s.tree s.history rev (sorted rev.changes))
    (rev.changes.foldl remove s.tree)
  let s ← retain revisions rev { s with tree := tree }
  pure ((sorted rev.changes).foldl (release revisions rev) s)

def ordered : List Revision := revisions.insertionSort (fun a b => a.number ≤ b.number)

def replayAll : List Revision → Except Str State :=
  List.foldlM (applyRevision H repo revisions) (State.start H repo)

def entries : List Entry :=
  (((nodes tree).filter (fun n => n.2.kind = .file)).map (fun n => (⟨trimPrefix n.1 ['/'], n.2⟩ : Entry))).insertionSort
    (fun a b => a.path ≤ b.path)

def replay (head : ℤ) (revisions : List Revision) : Except Str Snapshot := do
  require (repo ≠ [] && 0 ≤ head) "invalid ownership history scope"
  require ((revisions.length : ℤ) = head) "incomplete ownership history"
  checkRevisions 0 (ordered revisions)
  let s ← replayAll H repo (ordered revisions) (ordered revisions)
  pure ⟨head, entries s.tree⟩

end FileES.PathOwnership
