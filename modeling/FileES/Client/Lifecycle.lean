import FileES.Go.Path
import FileES.Go.UUID
import FileES.Lib.Fallible
import FileES.Lib.Maps

/-! The lifecycle records of the local repositories, and how the unfinished ones of a dropped server are closed. -/

namespace FileES.LocalRepo

open Go Lib.Maps Lib.Fallible

inductive State
  | requestPending
  | repositoryCreated
  | unattached
  | policyPending
  | attaching
  | attached
  | relocating
  | reconciling
  | detaching
  | deleting
  | detached
  | deleted
  | error
  | abandoned
  deriving DecidableEq, Repr

/-- Times count nanoseconds; 0 is the zero time. -/
structure Record where
  (operationID serverID repoID repoURL access : Str)
  purpose : Str := []
  (sparse anchor : Bool := false)
  (displayName localPath : Str)
  pendingLocalPath : Str := []
  relocationQueued : Bool := false
  conversionID : Str := []
  (relocationAdoptExisting relocationMoveExisting : Bool := false)
  detachOperationID : Str := []
  (deleteRepository serverDeleteCompleted : Bool := false)
  retainUntil : Str := []
  recoveryPrepared : Bool := false
  recoveryKitPath : Str := []
  (recoveryDismissed localCleanupCompleted remoteDeletionObserved remoteCleanupStarted : Bool := false)
  localProjectionDismissed : Bool := false
  (preservedCopyStatus preservedAlternatePath reconcileOperationID : Str := [])
  loadDumpApplyIgnorePolicy : Bool := false
  loadDumpKeepLastRevisions : Option ℤ := none
  state : State
  (lastError lastErrorKey : Str := [])
  (createdAt updatedAt : ℤ)
  deriving DecidableEq, Repr

structure Env where
  /-- `time.Parse` of the RFC 3339 layout succeeds. -/
  parsesTime : Str → Bool

variable (env : Env) (now : ℤ) (persisted : Bool) (records : Map Str Record) (r : Record)

def separators : Str := "/\\\x00\r\n\t "

def pathsOverlap (a b : Path) : Bool :=
  let inside := fun root target => match rel (clean root) (clean target) with
    | none => false
    | some r => r = "." || (r ≠ ".." && !hasPrefix r "../")
  trimSpace a ≠ [] && trimSpace b ≠ [] && (inside a b || inside b a)

def backupPath : Path := joinPath (dir r.localPath) ("." ++ base r.localPath ++ "-converting")

def Record.moving : Bool := r.state = .attached || r.state = .relocating

def Record.deletion : Bool := r.state = .deleting || r.state = .deleted

def conversionFaults : List (Bool × Str) :=
  [(!isUUID r.conversionID, "invalid lifecycle conversion ID"),
    (r.remoteDeletionObserved && (r.preservedAlternatePath ≠ backupPath r || r.localCleanupCompleted),
      "withdrawn conversion must retain both recovery paths"),
    (!r.remoteDeletionObserved && (!r.moving || !r.relocationQueued || !r.relocationMoveExisting
      || r.relocationAdoptExisting || r.pendingLocalPath ≠ backupPath r || r.anchor || r.sparse || r.purpose ≠ []),
      "conversion must own its queued relocation fence")]

/-- The tests of the record in the source's order: the first one that holds is the reason of the refusal. -/
def faults : List (Bool × Str) := List.flatten [
  (if r.conversionID = [] then [] else conversionFaults r),
  [(r.purpose ≠ [] && r.purpose ≠ "upload_shelf", "local repository purpose is invalid"),
    (r.purpose = "upload_shelf" && (r.access ≠ "r" || r.repoID = [] || r.repoURL = []),
      "upload shelf must have read-only repository authority"),
    (r.preservedAlternatePath ≠ [] && (!r.remoteDeletionObserved || !isAbs r.preservedAlternatePath),
      "preserved relocation path exists outside remote deletion"),
    (r.preservedCopyStatus ≠ [] && (!r.remoteDeletionObserved || (r.preservedCopyStatus ≠ "clean"
      && r.preservedCopyStatus ≠ "changed" && r.preservedCopyStatus ≠ "unknown")), "invalid preserved working-copy status"),
    (r.remoteCleanupStarted && (!r.remoteDeletionObserved || r.preservedCopyStatus = []),
      "remote cleanup requires a durable local inspection"),
    (r.remoteDeletionObserved && (r.state ≠ .detached || r.deleteRepository
      || (r.localCleanupCompleted && !r.remoteCleanupStarted)),
      "remote deletion receipt requires a preserved detached working copy"),
    (!isUUID r.operationID, "local repository operation ID must be UUID"),
    (trimSpace r.serverID = [] || containsAny r.serverID separators, "local repository server ID is invalid"),
    (!(trimSpace r.localPath = [] && r.deleteRepository && r.deletion)
      && (!isAbs r.localPath || clean r.localPath = "/"), "local repository path must be an absolute non-root path"),
    (r.repoID = [] && r.displayName = [], "repository creation display name is required"),
    (r.repoID ≠ [] && containsAny r.repoID separators, "local repository ID is invalid"),
    ((r.repoURL ≠ [] || r.access ≠ [] || r.state = .attaching)
      && (!hasPrefix r.repoURL "svn+ssh://" || (r.access ≠ "r" && r.access ≠ "rw")),
      "attached repository authority is invalid"),
    (r.state = .repositoryCreated && (r.repoID = [] || r.repoURL = [] || r.access ≠ "rw"),
      "created repository lifecycle is incomplete"),
    (r.relocationQueued && (!r.moving || !r.relocationMoveExisting || r.relocationAdoptExisting),
      "invalid queued relocation")],
  (if r.state = .relocating || r.relocationQueued then
    [(r.relocationAdoptExisting && r.relocationMoveExisting, "repository relocation mode is invalid"),
      (!isAbs r.pendingLocalPath || r.pendingLocalPath = "/", "repository relocation target is invalid"),
      (pathsOverlap r.localPath r.pendingLocalPath
        && !(r.relocationAdoptExisting && clean r.localPath = clean r.pendingLocalPath),
        "repository relocation target is invalid")]
  else [(r.pendingLocalPath ≠ [] || r.relocationAdoptExisting || r.relocationMoveExisting,
      "repository relocation target exists outside relocation")]),
  (if r.state = .reconciling then
    [(!isUUID r.reconcileOperationID, "repository reconcile operation ID must be UUID")]
  else [(r.reconcileOperationID ≠ [] || r.loadDumpApplyIgnorePolicy || r.loadDumpKeepLastRevisions.isSome,
      "repository reconcile metadata exists outside reconcile")]),
  [(r.loadDumpKeepLastRevisions.any (· < 1), "load dump keep_last_revisions must be at least 1")],
  (if r.state = .detaching || r.deletion || r.state = .detached then
    [(!isUUID r.detachOperationID, "repository detach operation ID must be UUID"),
      (r.deletion ≠ r.deleteRepository, "repository deletion state is inconsistent")]
  else [(r.detachOperationID ≠ [] || r.deleteRepository, "repository detach metadata exists outside detach")]),
  (if r.serverDeleteCompleted then
    [(!r.deleteRepository || !r.deletion, "server deletion receipt exists outside repository deletion"),
      (!env.parsesTime r.retainUntil, "repository deletion retention deadline is invalid")]
  else [(r.retainUntil ≠ [] || r.recoveryPrepared || r.recoveryKitPath ≠ [] || r.recoveryDismissed,
      "repository recovery metadata exists before server deletion")]),
  [(r.recoveryDismissed && (!r.recoveryPrepared || r.recoveryKitPath = []),
      "repository recovery dismissal exists without a local capability"),
    (r.recoveryPrepared && r.recoveryKitPath ≠ [] && !isAbs r.recoveryKitPath,
      "repository recovery kit path must be absolute"),
    (r.localProjectionDismissed && (!r.remoteDeletionObserved || !r.localCleanupCompleted),
      "local projection dismissal requires completed remote cleanup"),
    (r.localCleanupCompleted && !r.remoteDeletionObserved
      && (!r.serverDeleteCompleted || !r.deleteRepository || !r.deletion),
      "local deletion cleanup receipt exists outside repository deletion"),
    (r.state = .deleted && (!r.serverDeleteCompleted || !r.recoveryPrepared || !r.localCleanupCompleted),
      "completed repository deletion is missing a durable boundary"),
    (r.createdAt = 0 || r.updatedAt < r.createdAt, "local repository lifecycle timestamps are invalid")]]

def validate : Except Str Unit :=
  match (faults env r).find? (·.1) with
  | some fault => .error fault.2
  | none => .ok ()

def terminal (state : State) : Bool :=
  state = .error || state = .detached || state = .deleted || state = .abandoned

def remoteCleanupOverlaps (path : Path) : Bool :=
  path ≠ [] && r.remoteDeletionObserved && !r.localCleanupCompleted
    && (pathsOverlap r.localPath path || (r.preservedAlternatePath ≠ [] && pathsOverlap r.preservedAlternatePath path))

/-- A failed call leaves the records as they are; `persisted` says that the file was written. -/
def update (operationID : Str) (mutate : Record → Except Str Record) : Except Str (Record × Map Str Record) := do
  match records.lookup operationID with
  | none => .error "file does not exist"
  | some before =>
    if before.remoteDeletionObserved then .error "repository was withdrawn by server authority" else
    let r ← mutate before
    if !terminal r.state && records.entries.any (fun e => e.2.operationID ≠ r.operationID
        && (remoteCleanupOverlaps e.2 r.localPath || remoteCleanupOverlaps e.2 r.pendingLocalPath)) then
      .error "local folder still has pending metadata cleanup"
    else if r = before then .ok (r, records) else
    let r := { r with updatedAt := now }
    validate env r
    if persisted then .ok (r, records.insert operationID r) else .error "local repository lifecycle not written"

def startQueuedRelocation (expected : Record) :=
  update env now persisted records expected.operationID (fun r =>
    if r.conversionID ≠ [] || !r.relocationQueued || r.state ≠ .attached || r.serverID ≠ expected.serverID
        || r.repoID ≠ expected.repoID || r.repoURL ≠ expected.repoURL || r.localPath ≠ expected.localPath
        || r.pendingLocalPath ≠ expected.pendingLocalPath || r.access ≠ expected.access then
      .error "queued relocation attachment changed"
    else .ok { r with state := .relocating })

/-- The states that are neither finished nor left to the ordinary local detach. -/
def State.closable : State → Bool
  | .attached | .detaching | .deleting | .detached | .deleted => false
  | _ => true

def Record.dropped : Record :=
  { r with
    state := .abandoned, lastError := [], lastErrorKey := [], pendingLocalPath := [], relocationAdoptExisting := false,
    relocationMoveExisting := false, reconcileOperationID := [], loadDumpApplyIgnorePolicy := false,
    loadDumpKeepLastRevisions := none }

def Record.abandon : Except Str Record :=
  if r.state = .abandoned then .ok r
  else if !r.state.closable then
    .error "only an unfinished create, attach or move can be abandoned with its server"
  else .ok r.dropped

def abandonForDroppedServer (operationID : Str) :=
  update env now persisted records operationID Record.abandon

variable {env : Env} {now : ℤ} {r : Record}

lemma validate_ok : validate env r = .ok () ↔ ∀ fault ∈ faults env r, fault.1 = false := by
  rw [validate]
  cases h : (faults env r).find? (·.1) with
  | none => simpa using h
  | some fault =>
    refine ⟨nofun, fun hf => ?_⟩
    have hfault := hf fault (List.mem_of_find?_eq_some h)
    have := List.find?_some h
    simp [hfault] at this

section

variable (hv : validate env r = .ok ()) (hs : r.state.closable = true)
include hv hs

lemma not_observed : r.remoteDeletionObserved = false := by
  have hall := validate_ok.mp hv
  simp only [faults, List.flatten_cons, List.forall_mem_append, List.forall_mem_cons] at hall
  have hstate : decide (r.state ≠ .detached) = true := by cases h : r.state <;> simp [h, State.closable] at hs ⊢
  have ho := hall.2.1.2.2.2.2.2.1
  rwa [hstate, Bool.true_or, Bool.true_or, Bool.and_true] at ho

/-- What the closed record keeps was valid before; a queued relocation stays behind. -/
lemma dropped_valid :
    validate env { r.dropped with updatedAt := now } = .ok () ↔ r.relocationQueued = false ∧ r.createdAt ≤ now := by
  have hstate : r.deletion = false ∧
      ¬ (decide (r.state = .detaching) || false || decide (r.state = .detached)) = true := by
    rw [Record.deletion]
    cases h : r.state <;> simp [h, State.closable] at hs ⊢
  have ho := not_observed hv hs
  have hall := validate_ok.mp hv
  simp only [faults, List.flatten_cons, List.flatten_nil, List.append_nil, List.forall_mem_append, List.forall_mem_cons,
    hstate.1] at hall
  obtain ⟨hconv, ⟨h1, h2, h3, h4, h5, _, h7, h8, h9, h10, h11, h12, _⟩, _, _, _, hdetach, hserver, h15, h16, h17, h18,
    _, h20, _⟩ := hall
  rw [if_neg hstate.2] at hdetach
  have hconversion : r.relocationQueued = false → r.conversionID = [] := by
    intro hq
    by_contra hc
    rw [if_neg hc, conversionFaults] at hconv
    simp only [List.forall_mem_cons, ho, hq, Bool.not_false, Bool.true_and, Bool.or_true, Bool.true_or] at hconv
    exact nomatch hconv.2.2.1
  have hdelete : r.detachOperationID = [] ∧ r.deleteRepository = false := by simpa using hdetach _ List.mem_cons_self
  have hcompleted : ¬ r.serverDeleteCompleted = true := by
    intro h
    rw [if_pos h, hdelete.2] at hserver
    exact nomatch hserver _ List.mem_cons_self
  rw [if_neg hcompleted] at hserver
  rw [Bool.not_eq_true] at hcompleted
  rw [validate_ok]
  simp only [faults, Record.dropped, Record.moving, Record.deletion, hdelete, ho, hcompleted, List.flatten_cons,
    List.flatten_nil, List.append_nil, List.forall_mem_append, List.forall_mem_cons, reduceCtorEq, decide_false,
    Bool.or_self, Bool.false_eq_true, if_false] at h3 h4 h5 h9 h17 h18 ⊢
  refine ⟨fun h => ?_, fun ⟨hq, hnow⟩ => ?_⟩
  · have hq := h.2.1.2.2.2.2.2.2.2.2.2.2.2.2.2.1
    have htime := h.2.2.2.2.2.2.2.2.2.2.2.2.1
    rw [Bool.not_false, Bool.true_or, Bool.and_true] at hq
    rw [Bool.or_eq_false_iff, decide_eq_false_iff_not, decide_eq_false_iff_not, not_lt] at htime
    exact ⟨hq, htime.2⟩
  · rw [hq, hconversion hq]
    refine ⟨nofun, ⟨h1, h2, h3, h4, h5, rfl, h7, h8, h9, h10, h11, ?_, rfl, rfl, nofun⟩, by simp, by simp, by simp, by simp,
      ⟨hserver _ List.mem_cons_self, nofun⟩, h15, h16, h17, h18, rfl, ?_, nofun⟩
    · rw [Bool.or_false]
      rw [Bool.and_eq_false_iff, Bool.or_eq_false_iff] at h12
      rw [Bool.and_eq_false_iff]
      exact h12.imp_left And.left
    · rw [Bool.or_eq_false_iff] at h20 ⊢
      exact ⟨h20.1, by simpa using hnow⟩

end

/-- A change to a terminal state meets no other record's cleanup, only its own validation. -/
lemma update_terminal {records : Map Str Record} {operationID : Str} {mutate : Record → Except Str Record} {r' : Record}
    (hr : records.lookup operationID = some r) (ho : r.remoteDeletionObserved = false) (hm : mutate r = .ok r')
    (ht : terminal r'.state = true) :
    (∃ result, update env now true records operationID mutate = .ok result) ↔
      r' = r ∨ validate env { r' with updatedAt := now } = .ok () := by
  simp only [update, hr, ho, hm, Bool.false_eq_true, if_false, if_true, bind_ok, Except.ok.injEq, exists_eq_left', ht,
    Bool.not_true, Bool.false_and]
  by_cases h : r' = r
  · simp only [h, true_or, iff_true]
    exact ⟨_, rfl⟩
  · simp only [h, false_or, if_false, bind_ok]
    exact ⟨fun ⟨_, _, hv, _⟩ => hv, fun hv => ⟨_, (), hv, rfl⟩⟩

theorem dropped_server_closable_iff (env : Env) (now : ℤ) (records : Map Str Record) (operationID : Str) (r : Record)
    (hr : records.lookup operationID = some r) (hv : validate env r = .ok ()) (hs : r.state.closable = true) :
    (∃ result, abandonForDroppedServer env now true records operationID = .ok result) ↔
      r.state = .abandoned ∨ r.relocationQueued = false ∧ r.createdAt ≤ now := by
  have ho := not_observed hv hs
  rw [abandonForDroppedServer]
  by_cases ha : r.state = .abandoned
  · have hm : r.abandon = .ok r := if_pos ha
    rw [update_terminal hr ho hm (by rw [ha]; rfl)]
    exact ⟨fun _ => .inl ha, fun _ => .inl rfl⟩
  · have hm : r.abandon = .ok r.dropped := by
      rw [Record.abandon, if_neg ha, hs]
      rfl
    rw [update_terminal hr ho hm rfl, dropped_valid hv hs]
    exact or_congr_left ⟨fun h => h ▸ rfl, fun h => absurd h ha⟩

def exampleQueued : Record where
  operationID := "11111111-1111-4111-8111-111111111111"
  serverID := "home"
  repoID := "plans"
  repoURL := "svn+ssh://home/plans"
  access := "rw"
  displayName := "plans"
  localPath := "/wc/plans"
  pendingLocalPath := "/wc/moved"
  relocationQueued := true
  relocationMoveExisting := true
  state := .attached
  createdAt := 1
  updatedAt := 2

def exampleEnv : Env := ⟨fun _ => true⟩

def stored (r : Record) : Map Str Record := AList.singleton r.operationID r

def exampleMoving : Record := { exampleQueued with relocationQueued := false, state := .relocating }

theorem dropped_server_closable_relocating : ∃ result, abandonForDroppedServer exampleEnv 3 true
    (stored exampleMoving) exampleMoving.operationID = .ok result := by
  refine (dropped_server_closable_iff exampleEnv 3 (stored exampleMoving) exampleMoving.operationID exampleMoving
    rfl ?_ rfl).mpr (.inr ⟨rfl, by decide⟩)
  decide +kernel

def exampleStarted : Record := { exampleQueued with state := .relocating, updatedAt := 3 }

/-- A queued relocation has started; the server is dropped, and the record cannot be closed. -/
theorem started_relocation_not_closable :
    startQueuedRelocation exampleEnv 3 true (stored exampleQueued) exampleQueued = .ok
      (exampleStarted, stored exampleStarted) ∧
    abandonForDroppedServer exampleEnv 4 true (stored exampleStarted) exampleQueued.operationID =
      .error "invalid queued relocation".toList := by
  refine ⟨?_, ?_⟩
  · rfl
  · rfl

end FileES.LocalRepo
