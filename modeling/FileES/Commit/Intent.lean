import FileES.Commit.Targets
import FileES.Watcher.Publication

/-! The intent journal: the record of one publication, how it is read back, and what `commitDurable` writes. -/

namespace FileES.Commit

open Go Watcher

inductive Phase
  | attempting
  | confirmed
  | empty
  | done
  | other
  deriving DecidableEq, Repr

structure IntentItem where
  (rel oldRel : Path)
  op : OpType
  isDir : Bool
  (firstSeen lastSeen : Time)
  deriving DecidableEq, Repr

structure CommitIntent where
  (schema id repoURL repoID : String)
  wc : Path
  phase : Phase
  firstRevision : ℤ
  revision : ℤ := 0
  comment : String := ""
  paths : List Path
  items : List IntentItem
  observation : Option PublicationSnapshot := none
  deriving DecidableEq, Repr

def transactionSchema : String := "filees.commit-intent/v1"

inductive StoredIntent
  | absent
  | unreadable
  | irregular
  | regular (size : ℕ) (content : Option CommitIntent)
  deriving DecidableEq, Repr

inductive IntentError
  | io
  | file
  | json
  | identity
  | phase
  | unfinishedIdentity
  | revision
  | targets
  | item
  | observation
  deriving DecidableEq, Repr

def IntentError.text : IntentError → String
  | .io => "input/output error"
  | .file => "invalid commit intent file"
  | .json => "commit intent: invalid JSON"
  | .identity => "commit intent identity mismatch"
  | .phase => "invalid commit intent phase"
  | .unfinishedIdentity => "unfinished commit intent identity mismatch"
  | .revision => "invalid commit receipt revision"
  | .targets => "invalid commit intent targets"
  | .item => "invalid commit intent item"
  | .observation => "publication observation targets mismatch"

structure Account where
  (repoURL repoID : String)
  wc : Path
  encodedSize : CommitIntent → ℕ
  uuidParse : String → Bool

variable (paths : List Path) (a : Account) (i : CommitIntent)

def maxIntentBytes : ℕ := 64 * 1024 * 1024

def intentPathCovered (targets : List Path) (p : Path) : Bool :=
  safeIntentPath p &&
    (dirsFrom (fun c => c = ['.'] || c = []) p.length p).any (fun c => targets.contains c)

def intentItemOk (it : IntentItem) : Bool :=
  intentPathCovered paths it.rel && (it.oldRel = [] || intentPathCovered paths it.oldRel) &&
    it.op ≠ .renameUncertain

def observationOk (o : PublicationSnapshot) : Bool :=
  o.entries.length = paths.length && o.entries.all (fun e => paths.contains e.path) &&
    (o.entries.map PublicationEntry.path).Nodup

def checkIntent : Except IntentError Unit :=
  if i.schema ≠ transactionSchema ∨ a.uuidParse i.id = false ∨ i.firstRevision < 1 ∨ i.paths.length = 0 ∨
      i.paths.length > 65536 then .error .identity
  else if i.phase = .other then .error .phase
  else if i.phase ≠ .done ∧ (i.repoURL ≠ a.repoURL ∨ i.repoID ≠ a.repoID ∨ i.wc ≠ clean a.wc) then
    .error .unfinishedIdentity
  else if i.revision < 0 ∨ (i.phase = .confirmed ∧ i.revision < i.firstRevision) then .error .revision
  else if !(i.paths.all safeIntentPath && i.paths.Nodup) then .error .targets
  else if !i.items.all (intentItemOk i.paths) then .error .item
  else if !i.observation.all (observationOk i.paths) then .error .observation
  else .ok ()

def readIntentFile : StoredIntent → Except IntentError (Option CommitIntent)
  | .absent => .ok none
  | .unreadable => .error .io
  | .irregular => .error .file
  | .regular size content =>
    if size > maxIntentBytes then .error .file
    else match content with
      | none => .error .json
      | some i => (checkIntent a i).map (fun _ => some i)

def written : StoredIntent := .regular (a.encodedSize i) (some i)

inductive Reply
  | notSent (idle : Bool)
  | failed (found : Option ℤ)
  | replied (rev : ℤ)
  deriving DecidableEq, Repr

structure Attempt (a : Account) where
  stored : StoredIntent := .absent
  idle : Bool := true
  head : Option ℤ
  newID : String
  newID_parses : a.uuidParse newID = true
  comment : String := ""
  scanner : Option Scanner := none
  saved : Bool := true
  reply : Reply
  finished : Bool := true

inductive DurableError
  | journal (e : IntentError)
  | unfinished
  | busyWriter
  | baseline
  | targetCount
  | target
  | capture (text : String)
  | save
  deriving DecidableEq, Repr

def targetsOk : Bool :=
  paths.all safeIntentPath && paths.Nodup && (paths.map (fun p => byteLen p + 1)).sum ≤ 16 * 1024 * 1024

def intentItem (it : StageItem) : IntentItem :=
  ⟨it.rel, it.oldRel, it.op, it.isDir, it.firstSeen, it.lastSeen⟩

def intentItems (plan : Plan) : List IntentItem :=
  (plan.items.filter (fun it => plan.commitPaths.contains it.rel)).map intentItem

def capture (scanner : Option Scanner) (paths : List Path) : Except String (Option PublicationSnapshot) :=
  match scanner with
  | none => .ok none
  | some s => (capturePublication s paths).map some

def newIntent (t : Attempt a) (plan : Plan) : Except DurableError CommitIntent := do
  let old ← (readIntentFile a t.stored).mapError .journal
  if old.any (fun i => i.phase ≠ .done) then .error .unfinished
  else if !t.idle then .error .busyWriter
  else match t.head with
    | none => .error .baseline
    | some head =>
      if head < 0 then .error .baseline
      else if plan.commitPaths.length = 0 ∨ plan.commitPaths.length > 65536 then .error .targetCount
      else if !targetsOk plan.commitPaths then .error .target
      else do
        let observation ← (capture t.scanner plan.commitPaths).mapError .capture
        if !t.saved then .error .save
        else .ok { schema := transactionSchema, id := t.newID, repoURL := a.repoURL, repoID := a.repoID,
                   wc := clean a.wc, phase := .attempting, firstRevision := head + 1, comment := t.comment,
                   paths := plan.commitPaths, items := intentItems plan, observation := observation }

def readable : Bool := (readIntentFile a (written a i)).isOk

def CommitIntent.confirm (rev : ℤ) : CommitIntent := { i with phase := .confirmed, revision := rev }

def CommitIntent.finish : CommitIntent := { i with phase := .done }

def handedAfter (finished : Bool) : Reply → List CommitIntent
  | .notSent idle => if idle then [i.finish] else []
  | .failed none => []
  | .failed (some rev) =>
    if !readable a i || rev < i.firstRevision then []
    else if finished then [i.confirm rev, (i.confirm rev).finish] else [i.confirm rev]
  | .replied rev =>
    if rev = 0 then { i with phase := .empty } :: if readable a i then [i.finish] else []
    else if rev < i.firstRevision then []
    else if readable a i && finished then [i.confirm rev, (i.confirm rev).finish] else [i.confirm rev]

def commitDurable (t : Attempt a) (plan : Plan) : Except DurableError (List CommitIntent) := do
  let i ← newIntent a t plan
  pure (i :: handedAfter a i t.finished t.reply)

variable {p : Path} {targets : List Path}

lemma mem_dirsFrom {fuel : ℕ} {q : Path} (hp : ∀ seg ∈ split p, Plain seg) (hf : p.length ≤ fuel) :
    q ∈ dirsFrom (fun c => c = ['.'] || c = []) fuel p ↔ treeContains q p = true := by
  induction fuel generalizing p with
  | zero =>
    have hnil : p = [] := List.length_eq_zero_iff.mp (Nat.le_zero.mp hf)
    exact ((hp [] (by simp [hnil])).1 rfl).elim
  | succ fuel ih =>
    have hgo : ((p = ['.'] : Bool) || (p = [] : Bool)) = false := by
      simp only [Bool.or_eq_false_iff, decide_eq_false_iff_not]
      constructor
      · rintro rfl
        exact (hp ['.'] (by decide)).2.1 rfl
      · rintro rfl
        exact (hp [] (by decide)).1 rfl
    rw [dirsFrom, hgo, if_neg Bool.false_ne_true, List.mem_cons, treeContains_iff]
    apply or_congr_right
    cases hb : beforeLast '/' p with
    | none =>
      have hself : p ∈ split p := by simp [beforeLast_eq_none hb]
      have hn : '/' ∉ p := notMem_of_mem_split hself
      have hstop : q ∉ dirsFrom (fun c => c = ['.'] || c = []) fuel (dir p) := by
        cases fuel <;> simp [dirsFrom, dir, hb]
      refine iff_of_false hstop ?_
      intro hq
      exact hn (hq.subset (by simp))
    | some d =>
      obtain ⟨hpe, hn⟩ := eq_of_beforeLast hb
      have hlen := beforeLast_length hb
      have hd : ∀ seg ∈ split d, Plain seg := by
        intro seg hs
        exact hp seg (by rw [split_of_beforeLast hb]; simp [hs])
      rw [dir_of_plain hp hb, ih hd (by omega), treeContains_iff, hpe, slash_prefix_iff hn]

lemma intentPathCovered_iff :
    intentPathCovered targets p = true ↔ safeIntentPath p = true ∧ ∃ q ∈ targets, treeContains q p = true := by
  simp only [intentPathCovered, Bool.and_eq_true, List.any_eq_true, List.contains_iff_mem]
  refine and_congr_right ?_
  intro hp
  constructor
  · rintro ⟨q, hq, ht⟩
    exact ⟨q, ht, (mem_dirsFrom (plain_of_safe hp) le_rfl).mp hq⟩
  · rintro ⟨q, ht, hq⟩
    exact ⟨q, (mem_dirsFrom (plain_of_safe hp) le_rfl).mpr hq, ht⟩

lemma intentPathCovered_of_mem (hp : safeIntentPath p = true) (hm : p ∈ targets) :
    intentPathCovered targets p = true :=
  intentPathCovered_iff.mpr ⟨hp, p, hm, treeContains_iff.mpr (.inl rfl)⟩

end FileES.Commit
