import FileES.Go.Path
import FileES.Go.Text
import FileES.Lib.Calls
import FileES.Lib.Fallible
import FileES.Lib.Maps

/-! The prepared replacement of a repository by its next generation, and its recovery. -/

namespace FileES.Rotation

open Go Lib.Calls Lib.Durable Lib.Effects Lib.Fallible Lib.Maps

inductive Node (α : Type)
  | plain (a : α)
  | other
  deriving DecidableEq

inductive Hook
  | file (content : Str) (mode : ℕ)
  | symlink (target : Str)
  | other
  deriving DecidableEq, Repr

abbrev Hooks := Map Str Hook

abbrev Conf := Map Str Str

structure Generation where
  uuid : Str
  head : ℕ
  (tree log : Str)
  hooks : Hooks
  conf : Conf
  marker : Option (Node Str)

structure Meta where
  (tag rotatedAt oldUUID newUUID : Str)
  oldHead : ℕ
  (reason archiveDir dumpRange : Str)
  deriving DecidableEq, Repr

structure SwapRecord where
  (schema repo work : Str)
  info : Meta
  artifacts : Map Str Str

structure Work where
  staged : Option (Node Generation)
  files : Map Str (Node Str)

structure Disk where
  hot : Option (Node Generation)
  archived : Map Str (Node Generation)
  files : Map Str (Node Str)
  work : Option (Node Work)
  journal : Option (Node SwapRecord)

structure Env where
  (repo archive : Str)
  sha256 : Str → Str
  metaJSON : Meta → Str
  rangeDump : Generation → ℕ → ℕ → Str

abbrev Op := Prog Disk Write Str

structure Shuffle where
  order : ℕ → List (Str × Str) → List (Str × Str)
  perm : ∀ k l, (order k l).Perm l
  names : List Str → List Str
  names_perm : ∀ l, (names l).Perm l

def Disk.staged (d : Disk) : Option (Node Generation) :=
  match d.work with
  | some (.plain w) => w.staged
  | _ => none

def Disk.workFile (d : Disk) (name : Str) : Option (Node Str) :=
  match d.work with
  | some (.plain w) => w.files.lookup name
  | _ => none

def swapSchema : Str := "filees.svn-swap/v1"

def manifestName (tag : Str) : Str := tag ++ ".log.xml"

def isDigest (d : Str) : Bool := isHex d && (bytes d).length = 64

def checkArtifactName (tag : Str) (a : Str × Str) : Except Str Unit := do
  require (base a.1 = a.1 && (a.1 = manifestName tag || (hasPrefix a.1 (tag ++ ".r") && hasSuffix a.1 ".dump.gz")))
    "invalid swap artifact name"
  require (isDigest a.2) "invalid swap artifact hash"

def SwapRecord.list (r : SwapRecord) : List (Str × Str) := r.artifacts.entries.map (fun e => (e.1, e.2))

def SwapRecord.validate (env : Env) (r : SwapRecord) : Except Str Unit := do
  require (r.schema = swapSchema && r.repo = clean env.repo && dir r.work = clean env.archive &&
      (hasPrefix (base r.work) ".load-work-" || hasPrefix (base r.work) ".rotate-work-") &&
      r.info.tag ≠ [] && r.info.tag ≠ "." && r.info.tag ≠ ".." && base r.info.tag = r.info.tag &&
      r.info.archiveDir = joinPath env.archive (r.info.tag ++ ".svn") && r.info.oldUUID ≠ [] && r.info.newUUID ≠ [] &&
      r.info.newUUID ≠ r.info.oldUUID && 1 ≤ r.list.length && r.list.length ≤ 2)
    "invalid swap journal identity"
  require (r.artifacts.lookup (manifestName r.info.tag)).isSome "swap journal lacks manifest"
  let _ ← r.list.mapM (checkArtifactName r.info.tag)
  pure ()

def archiveProtection : Str := ".filees-archive-protection"

def Generation.guarded (g : Generation) : Bool := (g.hooks.lookup archiveProtection).isSome

def isGuarded : Option (Node Generation) → Bool
  | some (.plain g) => g.guarded
  | _ => false

def refuseArchiveGeneration (places : List (Option (Node Generation))) : Except Str Unit :=
  require (!places.any isGuarded) "archive generation replacement is not permitted"

def uuidIfPresent : Option (Node Generation) → Except Str Str
  | none => .ok []
  | some .other => .error "generation is not a plain directory"
  | some (.plain g) => do
    require (g.uuid ≠ []) "empty uuid"
    pure g.uuid

def checkArtifactSource (env : Env) (d : Disk) (a : Str × Str) : Except Str Unit :=
  match (d.workFile a.1).or (d.files.lookup a.1) with
  | none => .error "swap artifact is missing"
  | some .other => .error "artifact is not a regular file"
  | some (.plain content) => require (env.sha256 content = a.2) "swap artifact hash mismatch"

def Meta.identities (m : Meta) (hot old staged : Str) : Bool :=
  (hot = m.oldUUID && old = [] && staged = m.newUUID) || (hot = [] && old = m.oldUUID && staged = m.newUUID) ||
    (hot = m.newUUID && old = m.oldUUID && staged = [])

def checkSwap (env : Env) (sh : Shuffle) (r : SwapRecord) (d : Disk) : Except Str Str := do
  refuseArchiveGeneration [d.hot, d.archived.lookup r.info.archiveDir, d.staged]
  let hot ← uuidIfPresent d.hot
  let old ← uuidIfPresent (d.archived.lookup r.info.archiveDir)
  require (match d.work with
    | some .other => false
    | _ => true) "swap staging directory is not plain"
  let staged ← uuidIfPresent d.staged
  require (r.info.identities hot old staged) "swap generation identities conflict; no recovery mutation performed"
  let _ ← (sh.order 0 r.list).mapM (checkArtifactSource env d)
  pure hot

variable (m : Meta) (env : Env) (sh : Shuffle) (d : Disk) (name : Str)

def syncSwapDirs : Op Unit := do
  command "repository directory is not synced"
  command "archive is not synced"
  command "staging directory is not synced"

def Disk.archiveHot (path : Str) : Disk :=
  match d.hot with
  | none => d
  | some g => { d with hot := none, archived := d.archived.insert path g }

def Disk.setStaged (g : Option (Node Generation)) : Disk :=
  match d.work with
  | some (.plain w) => { d with work := some (.plain { w with staged := g }) }
  | _ => d

def Disk.installStaged : Disk :=
  match d.staged with
  | none => d
  | some g => { d.setStaged none with hot := some g }

def Disk.putFile (n : Node Str) : Disk := { d with files := d.files.insert name n }

def checkArtifact (want : Str) : Option (Node Str) → Except Str Unit
  | none => .error "artifact does not exist"
  | some .other => .error "artifact is not a regular file"
  | some (.plain content) => require (env.sha256 content = want) "archive artifact changed"

def provideArtifact (d : Disk) : Op Unit :=
  match d.files.lookup name with
  | some _ => pure ()
  | none =>
    match d.workFile name with
    | none => fail "artifact does not exist"
    | some n => save (fun d => d.putFile name n) "artifact is not linked"

def linkArtifact (a : Str × Str) : Op Unit := do
  let d ← read
  provideArtifact a.1 d
  let d ← read
  ofExcept (checkArtifact env a.2 (d.files.lookup a.1))

def publishBytes (look : Disk → Option (Node Str)) (put : Disk → Disk) (raw : Str) : Op Unit := do
  let d ← read
  match look d with
  | some .other => fail "artifact target is not a regular file"
  | some (.plain got) => ofExcept (require (got = raw) "existing artifact differs")
  | none => do
    command "temporary file is not written"
    save put "artifact is not linked"

def metaName : Str := m.tag ++ ".meta.json"

def frozenText : Str :=
  "Frozen FileES repository generation.\nTag: " ++ m.tag ++ "\nUUID: " ++ m.oldUUID ++ "\nHead: r" ++
    (toString m.oldHead).toList ++ "\nCommits are permanently blocked by hooks/pre-commit.\n"

def markerOf : Option (Node Generation) → Option (Node Str)
  | some (.plain g) => g.marker
  | _ => none

def Disk.putMarker (path : Str) (n : Node Str) : Disk :=
  match d.archived.lookup path with
  | some (.plain g) => { d with archived := d.archived.insert path (.plain { g with marker := some n }) }
  | _ => d

def publishMeta (m : Meta) : Op Unit :=
  publishBytes (fun d => d.files.lookup (metaName m)) (fun d => d.putFile (metaName m) (.plain (env.metaJSON m))) (env.metaJSON m)

def publishMarker : Op Unit :=
  publishBytes (fun d => markerOf (d.archived.lookup m.archiveDir)) (fun d => d.putMarker m.archiveDir (.plain (frozenText m)))
    (frozenText m)

def Disk.dropWorkFile : Disk :=
  match d.work with
  | some (.plain w) => { d with work := some (.plain { w with files := w.files.erase name }) }
  | _ => d

def Disk.workEmpty : Bool :=
  match d.work with
  | some (.plain w) => w.staged.isNone && w.files.entries.isEmpty
  | _ => true

def emptyWork : Op Unit :=
  match d.work with
  | some (.plain w) => do
    tryTo (fun d => d.setStaged none)
    each (fun name => tryTo (fun d => d.dropWorkFile name)) (sh.names w.files.keys)
  | _ => pure ()

def removeAll : Op Unit := do
  let d ← read
  emptyWork sh d
  let d ← read
  ofExcept (require d.workEmpty "staging directory is not empty")
  save (fun d => { d with work := none }) "staging directory is not removed"

def archiveSwap (r : SwapRecord) : Op Unit := do
  each (linkArtifact env) (sh.order 1 r.list)
  command "archive is not synced"
  publishMeta env r.info
  publishMarker r.info
  command "archived generation is not synced"
  command "archive is not synced"
  removeAll sh
  save (fun d => { d with journal := none }) "swap journal is not removed"
  command "archive is not synced"

def finish (r : SwapRecord) : Op Unit := do
  let d ← read
  let hot ← ofExcept (checkSwap env sh r d)
  onlyIf (hot = r.info.oldUUID) (do
    save (fun d => d.archiveHot r.info.archiveDir) "old generation is not archived"
    syncSwapDirs)
  onlyIf (hot ≠ r.info.newUUID) (do
    save (fun d => d.installStaged) "new generation is not installed"
    syncSwapDirs)
  archiveSwap env sh r

def recoverSwap (reason : Str) : Op (Option Meta) := do
  let d ← read
  match d.journal with
  | none => pure none
  | some .other => fail "invalid swap journal file"
  | some (.plain r) => do
    ofExcept (r.validate env)
    ofExcept (require (reason = [] || r.info.reason = reason) "prepared swap belongs to another operation")
    finish env sh r
    pure (some r.info)

def recoverRepo (reason : Str) : Op (Option Meta) := do
  ofExcept (require (isAbs env.repo && isAbs env.archive && clean env.repo ≠ clean env.archive) "invalid recovery paths")
  let d ← read
  ofExcept (refuseArchiveGeneration [d.hot])
  if d.journal.isNone then pure none
  else do
    command "another rotation appears to be running"
    recoverSwap env sh reason

end FileES.Rotation
