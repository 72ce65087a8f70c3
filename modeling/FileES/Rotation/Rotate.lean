import FileES.Rotation.Swap

/-! The change of generations: commits are blocked by a hook while the next generation is built beside the repository. -/

namespace FileES.Rotation

open Go Lib.Calls Lib.Effects Lib.Fallible Lib.Maps

def preCommit : Str := "pre-commit"

def hookAsideSuffix : Str := ".pre-rotate"

def asideHook : Str := preCommit ++ hookAsideSuffix

def blockHookBody : Str :=
  "#!/bin/sh\necho \"FileES: repository rotation in progress; commits are blocked\" >&2\nexit 1\n"

def blockHook (content : Str) : Hook := .file content 493

def moveHook (source target : Str) (hooks : Hooks) : Hooks :=
  match hooks.lookup source with
  | none => hooks
  | some h => (hooks.erase source).insert target h

def Disk.onHooks (f : Hooks → Hooks) (d : Disk) : Disk :=
  match d.hot with
  | some (.plain g) => { d with hot := some (.plain { g with hooks := f g.hooks }) }
  | _ => d

def hotGeneration (d : Disk) : Except Str Generation :=
  match d.hot with
  | some (.plain g) => .ok g
  | _ => .error "does not look like an SVN repository"

def writeBlockHook (torn : ℕ) : Op Unit :=
  each (fun content => save (Disk.onHooks (fun hooks => hooks.insert preCommit (blockHook content))) "blocking hook is not written")
    [[], blockHookBody.take torn, blockHookBody]

def parkHook : Hooks → Hooks := moveHook preCommit asideHook

def unparkHook : Hooks → Hooks := moveHook asideHook preCommit

def installBlockHook (torn : ℕ) : Op Bool := do
  let d ← read
  let g ← ofExcept (hotGeneration d)
  match g.hooks.lookup preCommit with
  | none => do
    writeBlockHook torn
    pure false
  | some _ => do
    ofExcept (require (g.hooks.lookup asideHook).isNone "already exists (crashed rotation?); resolve manually")
    save (Disk.onHooks parkHook) "hook is not moved aside"
    let written ← attempt (writeBlockHook torn)
    match written with
    | .ok _ => pure true
    | .error e => do
      tryTo (Disk.onHooks unparkHook)
      fail e

def removeBlockHook (moved : Bool) : Op Unit := do
  save (Disk.onHooks (fun hooks => hooks.erase preCommit)) "blocking hook is not removed"
  onlyIf moved (save (Disk.onHooks unparkHook) "hook is not moved back")

def copyName (name : Str) : Str := if name = asideHook then preCommit else name

def copyHook (dst : Hooks) (e : Str × Hook) : Except Str Hooks :=
  match e.2 with
  | .other => .ok dst
  | .symlink target =>
    if e.1 = preCommit then .ok dst
    else do
      require (dst.lookup (copyName e.1)).isNone "file exists"
      pure (dst.insert (copyName e.1) (.symlink target))
  | .file content mode => if e.1 = preCommit then .ok dst else .ok (dst.insert (copyName e.1) (.file content mode))

def copyHooks (src dst : Hooks) : Except Str Hooks := (src.entries.map (fun e => (e.1, e.2))).foldlM copyHook dst

structure Built where
  generation : Generation
  templates : ∀ name, (generation.hooks.lookup name).isSome → hasSuffix name ".tmpl"

inductive Kind
  | rotate (dumpDepth : ℕ)
  | load (prepare : Conf → Meta → Except Str Conf)

structure Attempt where
  shuffle : Shuffle
  kind : Kind
  (reason tag rotatedAt work : Str)
  (locked breakLocks : Bool)
  torn : ℕ
  built : Built

variable (env : Env) (a : Attempt) (old : Generation)

def Attempt.base : Generation :=
  match a.kind with
  | .rotate _ => { a.built.generation with conf := old.conf ∪ a.built.generation.conf }
  | .load _ => a.built.generation

def Attempt.sameTree : Bool :=
  match a.kind with
  | .rotate _ => old.tree = a.built.generation.tree
  | .load _ => true

def dumpLow (head depth : ℕ) : ℕ := max (head + 1 - depth) 1

def dumpRangeText (low head : ℕ) : Str := 'r' :: (toString low).toList ++ ":r" ++ (toString head).toList

def dumpName (tag : Str) (low head : ℕ) : Str :=
  tag ++ ".r" ++ (toString low).toList ++ "-r" ++ (toString head).toList ++ ".dump.gz"

def Attempt.artifacts : Map Str (Node Str) × Str :=
  match a.kind with
  | .rotate (depth + 1) =>
    let low := dumpLow old.head (depth + 1)
    (((∅ : Map Str (Node Str)).insert (manifestName a.tag) (.plain old.log)).insert (dumpName a.tag low old.head)
      (.plain (env.rangeDump old low old.head)), dumpRangeText low old.head)
  | _ => ((∅ : Map Str (Node Str)).insert (manifestName a.tag) (.plain old.log), [])

def Attempt.info : Meta :=
  ⟨a.tag, a.rotatedAt, old.uuid, a.built.generation.uuid, old.head, a.reason, joinPath env.archive (a.tag ++ ".svn"),
    (a.artifacts env old).2⟩

def Attempt.configure (m : Meta) (g : Generation) : Except Str Generation :=
  match a.kind with
  | .rotate _ => .ok g
  | .load prepare => do
    let conf ← prepare g.conf m
    pure { g with conf := conf }

def digests (files : Map Str (Node Str)) : Map Str Str :=
  filterMap (fun _ n => match n with
    | .plain content => some (env.sha256 content)
    | .other => none) files

def Attempt.record : SwapRecord :=
  ⟨swapSchema, env.repo, a.work, a.info env old, digests env (a.artifacts env old).1⟩

def stage (d : Disk) : Except Str (SwapRecord × Work) := do
  let old ← hotGeneration d
  require (!a.locked || a.breakLocks) "active locks present"
  let hooks ← copyHooks old.hooks (a.base old).hooks
  require (a.sameTree old) "tree mismatch; aborting before switch"
  require (old.uuid ≠ [] && a.built.generation.uuid ≠ []) "empty uuid"
  require (d.archived.lookup (a.info env old).archiveDir).isNone "archive target already exists"
  let new ← a.configure (a.info env old) { a.base old with hooks := hooks }
  (a.record env old).validate env
  pure (a.record env old, ⟨some (.plain new), (a.artifacts env old).1⟩)

def Disk.prepare (d : Disk) (r : SwapRecord) (w : Work) : Disk :=
  { d with work := some (.plain w), journal := some (.plain r) }

def prepareSwap : Op SwapRecord := do
  command "new generation is not built"
  let d ← read
  let staged ← ofExcept (stage env a d)
  command "staging directory is not synced"
  save (fun d => d.prepare staged.1 staged.2) "swap journal is not published"
  command "archive is not synced"
  pure staged.1

def Attempt.nothingToDo (old : Generation) : Bool :=
  match a.kind with
  | .rotate _ => old.head = 0
  | .load _ => false

def blocked : Op Meta := do
  let moved ← installBlockHook a.torn
  let prepared ← attempt (prepareSwap env a)
  match prepared with
  | .ok r => do
    finish env a.shuffle r
    pure r.info
  | .error e => do
    let d ← read
    onlyIf d.journal.isNone (removeBlockHook moved)
    fail e

def Attempt.recoveryReason : Str :=
  match a.kind with
  | .rotate _ => []
  | .load _ => a.reason

def changeUnlessEmpty : Op (Option Meta) := do
  let d ← read
  let old ← ofExcept (hotGeneration d)
  if a.nothingToDo old then pure none
  else do
    let m ← blocked env a
    pure (some m)

def changeGeneration : Op (Option Meta) := do
  let recovered ← recoverRepo env a.shuffle a.recoveryReason
  match recovered with
  | some m => pure (some m)
  | none => do
    command "archive is not usable"
    let again ← recoverSwap env a.shuffle a.recoveryReason
    match again with
    | some m => pure (some m)
    | none => changeUnlessEmpty env a

end FileES.Rotation
