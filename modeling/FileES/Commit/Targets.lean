import FileES.Commit.Batch

/-! The filters of `tryCommitLocked`: from a batch to the paths of one commit. -/

namespace FileES.Commit

open Go Client Watcher Policy Lib

def statusMap (rows : List StatusEntry) : Maps.Map Path StatusItem :=
  rows.foldl (fun m e => if e.item = .none then m else m.insert (replaceAll e.path '\\' '/') e.item) ∅

variable (P : Pass)

def Pass.st (p : Path) : Option StatusItem := (statusMap P.rows).lookup p

def unknown (status : Option StatusItem) : Bool := status = none || status = some .unversioned

def onDisk (d : Disk) (wc p : Path) : Bool := (d.lstat (joinPath wc p)).isOk

def hasUnversionedAncestor (p : Path) : Bool :=
  let rel := trim '/' p
  (parentsFrom rel.length rel).any (fun q => P.st q = some .unversioned)

def dirsFrom (stop : Path → Bool) : ℕ → Path → List Path
  | 0, _ => []
  | fuel + 1, d => if stop d then [] else d :: dirsFrom stop fuel (dir d)

def placeholderAncestor (rel : Path) : Bool :=
  (dirsFrom (fun d => d = ['.'] || d = ['/'] || d = []) rel.length (dir rel)).any
    (fun d => P.isPlaceholder (joinPath P.wc d))

inductive Held
  | nativeDisabled
  | uncertain
  | refused
  | lacksIdentity (oldRel rel : Path)
  | moveRecovery (oldRel rel : Path)
  | unsupportedSource (oldRel rel : Path) (status : Option StatusItem)
  | destinationGone (rel : Path)
  deriving DecidableEq, Repr

inductive RenameFate
  | added
  | recovered
  | valid
  | degraded
  deriving DecidableEq, Repr

def nativeFate (it : StageItem) : Except Held RenameFate :=
  if !it.renameVerified then .error (.lacksIdentity it.oldRel it.rel)
  else if !it.moveScheduled && unknown (P.st it.oldRel) && P.st it.rel = some .unversioned then .ok .added
  else if P.st it.oldRel ≠ some .missing ∧ P.st it.oldRel ≠ some .deleted then
    if unknown (P.st it.oldRel) && (P.st it.rel = some .normal || P.st it.rel = some .modified) then
      match P.verifyCommittedMove it.oldRel it.rel with
      | none => .error (.moveRecovery it.oldRel it.rel)
      | some true => .ok .recovered
      | some false => .error (.unsupportedSource it.oldRel it.rel (P.st it.oldRel))
    else .error (.unsupportedSource it.oldRel it.rel (P.st it.oldRel))
  else if !onDisk P.disk P.wc it.rel then .error (.destinationGone it.rel)
  else .ok .valid

def renameFate (it : StageItem) : Except Held RenameFate :=
  if P.native then nativeFate P it
  else match P.st it.oldRel with
    | some .normal | some .modified | some .missing | some .deleted => .ok .valid
    | _ => .ok .degraded

structure Entry where
  item : StageItem
  fate : Option RenameFate := none
  deriving DecidableEq, Repr

variable (P : Pass) (es : List Entry) (it : StageItem)

def rewriteRename : RenameFate → StageItem
  | .added => { it with op := .added, oldRel := [], renameVerified := false }
  | .recovered => { it with op := .modified, oldRel := [], moveScheduled := false }
  | .valid | .degraded => it

def settleRename : Except Held Entry :=
  if it.op = .renamed then (renameFate P it).map (fun fate => ⟨rewriteRename it fate, some fate⟩) else .ok ⟨it, none⟩

inductive PlaceholderAction
  | addIt
  | drop
  | wait
  deriving DecidableEq, Repr

def placeholderAdd (anchored placeholder notOnDisk : Bool) : PlaceholderAction :=
  if anchored && placeholder then .drop else if !anchored && notOnDisk then .wait else .addIt

inductive AddFate
  | cancelled
  | skipped
  | dropped
  | waiting
  | deferred
  | svnAdd
  | alreadyAdded
  | modified
  | reconciled
  deriving DecidableEq, Repr

def addFate (p : Path) : AddFate :=
  let abs := joinPath P.wc p
  match P.disk.stat abs with
  | .error .notExist => .cancelled
  | .error .other => .skipped
  | .ok info =>
    let recalls := P.recallsOnRead info
    match placeholderAdd P.anchored ((P.isPlaceholder abs || recalls) && !(P.anchored && P.localState abs))
        (P.notOnDisk abs || recalls) with
    | .drop => .dropped
    | .wait => .waiting
    | .addIt =>
      if P.st p = none && hasUnversionedAncestor P p && P.anchored && placeholderAncestor P p then .deferred
      else if P.st p = some .unversioned || (P.st p = none && hasUnversionedAncestor P p) then .svnAdd
      else if P.st p = some .added then .alreadyAdded
      else if P.st p = some .modified then .modified
      else if P.st p = some .normal && P.clean p then .reconciled
      else .deferred

def explainedBySibling (P : Pass) (parent base : Str) : List Str → Bool
  | [] => false
  | name :: names =>
    if name = base || !P.foldsTo name base then explainedBySibling P parent base names
    else
      let sibling := if parent = [] then name else joinPath (trimSuffix parent ['/']) name
      match P.siblingRows sibling with
      | none => false
      | some rows =>
        if unknown ((statusMap rows).lookup sibling) then explainedBySibling P parent base names else true

def absenceExplainedByPlatform (rel : Path) (status : Option StatusItem) : Bool :=
  if status ≠ some .missing then false
  else if !(P.disk.stat (joinPath P.wc rel)).isOk then false
  else
    let parent := ((beforeLast '/' rel).map (fun d => d ++ ['/'])).getD []
    match P.readDir (joinPath P.wc parent) with
    | none => false
    | some names => explainedBySibling P parent (lastSegment rel) names

inductive DelFate
  | svnDelete
  | alreadyStaged
  | explained
  | dropped
  deriving DecidableEq, Repr

def delFate (p : Path) : DelFate :=
  match P.st p with
  | some .missing | some .normal | some .modified =>
    if absenceExplainedByPlatform P p (P.st p) then .explained else .svnDelete
  | some .deleted => .alreadyStaged
  | _ => .dropped

def rels (sel : Entry → Bool) : List Path := (es.filter sel).map (fun e => e.item.rel)

def queued (op : OpType) (e : Entry) : Bool := e.fate = none && e.item.op = op

def queuedModified : List Path :=
  rels es (queued .modified) ++ rels es (fun e => e.fate = some .recovered)

def queuedAdds : List Path :=
  rels es (queued .added) ++ rels es (fun e => e.fate = some .added || e.fate = some .degraded) ++
    (queuedModified es).filter (fun p => P.st p = some .unversioned)

def addsWith (fate : AddFate) : List Path :=
  (queuedAdds P es).filter (fun p => addFate P p = fate)

def addPaths : List Path :=
  ((addsWith P es .svnAdd).eraseDups ++ addsWith P es .alreadyAdded).eraseDups

def modifiedPaths : List Path :=
  ((queuedModified es).filter (fun p => P.st p ≠ some .unversioned) ++ addsWith P es .modified).filter
    (fun p => !(P.st p = some .normal && P.clean p))

def delPaths : List Path :=
  let dels := rels es (queued .deleted)
  dels.filter (fun p => delFate P p = .svnDelete) ++ dels.filter (fun p => delFate P p = .alreadyStaged)

def publishable (ps : List Path) : List Path :=
  (ps.filter (onDisk P.late P.wc)).filter (fun p => !isBuiltinIgnored p)

def publishableRenames : List StageItem :=
  ((es.filter (fun e => e.fate = some .valid)).map Entry.item).filter (fun it => onDisk P.late P.wc it.rel)

def commitPaths : List Path :=
  let adds := publishable P (addPaths P es)
  let renames := publishableRenames P es
  (adds ++ publishable P (modifiedPaths P es) ++ delPaths P es ++
    renames.flatMap (fun it => [it.oldRel, it.rel]) ++
    (adds.flatMap parentPaths).eraseDups ++ (renames.flatMap (fun it => parentPaths it.rel)).eraseDups).eraseDups

def rewriteOp : StageItem :=
  let it := if it.op = .modified && P.st it.rel = some .unversioned then { it with op := .added } else it
  if (addsWith P es .modified).contains it.rel then { it with op := .modified } else it

structure Plan where
  items : List StageItem
  commitPaths : List Path
  deriving DecidableEq, Repr

def planBatch (batch : List StageItem) : Except Held Plan := do
  let es ← batch.mapM (settleRename P)
  pure ⟨es.map (fun e => rewriteOp P es e.item), commitPaths P es⟩

def sizeTierWaits (pending : List StageItem) : Bool :=
  let total := (pending.map (fun it => if it.op = .deleted then 0 else statSize P.disk it.abs)).sum
  let required := effectiveInterval P.rules.sizeTiers total
  !P.force && !P.rules.sizeTiers.isEmpty && required > 0 &&
    (match P.lastCommit with | none => false | some at' => elapsed P.now at' < required)

def tryCommitLocked (staging : Staging) : Except Held (Option Plan) :=
  if (items staging).any (fun it => (it.renameVerified || it.moveScheduled) && !P.native) then .error .nativeDisabled
  else if (items staging).any (fun it => it.op = .renameUncertain) then .error .uncertain
  else if pending P staging = [] then .ok none
  else if sizeTierWaits P (pending P staging) then .ok none
  else if !P.checks then .error .refused
  else do
    let plan ← planBatch P (batch P staging)
    if plan.commitPaths = [] then pure none else if !P.gates then .error .refused else pure (some plan)

end FileES.Commit
