import FileES.Commit.Intent
import FileES.Commit.RenameChains

/-! Resolving uncertain renames: the plan that the person is shown, and its application to the queue. -/

namespace FileES.Commit

open Go Client Watcher Lib Lib.Fallible Lib.Maps Lib.Runs CacheEntry List Option

inductive PropStatus
  | unset
  | none
  | normal
  | other
  deriving DecidableEq, Repr

structure PropRow extends StatusEntry where
  props : PropStatus := .none
  deriving DecidableEq, Repr

structure Inspection where
  available : Bool := true
  transaction : Except IntentError (Option CommitIntent) := .ok none
  disk : Disk
  statuses : Option (List PropRow)
  alive : Bool := true

inductive Refusal
  | noUncertainty
  | refused (text : String)
  deriving DecidableEq, Repr

def intentDeleteAdd : String := "delete_add"

def cacheEntry (it : StageItem) : CacheEntry where
  resolutionID := it.resolutionID
  rel := it.rel
  abs := it.abs
  oldRel := it.oldRel
  renameVerified := it.renameVerified
  moveScheduled := it.moveScheduled
  isDir := it.isDir
  op := it.op
  firstSeen := it.firstSeen
  lastSeen := it.lastSeen

def intentEntries (staging : Staging) : List CacheEntry :=
  ((items staging).map cacheEntry).insertionSort (fun a b => a.rel ≤ b.rel)

def CacheEntry.carriesMove (e : CacheEntry) : Bool :=
  e.moveScheduled || e.renameVerified || e.oldRel ≠ [] || e.op = .renamed

def CacheEntry.isSelected (e : CacheEntry) : Bool := e.op = .renameUncertain || e.op = .deleted

def selectIntents : List CacheEntry → Except Refusal (List CacheEntry)
  | [] => .ok []
  | e :: entries =>
    if e.carriesMove then .error (.refused "scheduled or verified move cannot be reinterpreted")
    else if !e.isSelected then selectIntents entries
    else if e.isDir then .error (.refused "directory intent requires separate resolution")
    else (selectIntents entries).map (fun selected => e :: selected)

def statusRow (wc : Path) (status : Maps.Map Path StatusItem) (row : PropRow) :
    Except Refusal (Maps.Map Path StatusItem) :=
  match if isAbs row.path then rel wc row.path else some row.path with
  | none => .error (.refused "cannot make status path relative")
  | some p =>
    if row.props = .other then .error (.refused "property changes prevent intent resolution")
    else if (status.lookup (clean p)).isSome then .error (.refused "duplicate SVN status path")
    else .ok (status.insert (clean p) row.item)

def safePath (E : Inspection) (s : Service) (e : CacheEntry) : Except Refusal Path :=
  (intentSafePath E.disk s.wc e).mapError .refused

def inspectPath (E : Inspection) (s : Service) (status : Maps.Map Path StatusItem) (e : CacheEntry) :
    Except Refusal IntentPath :=
  if !E.alive then .error (.refused "context canceled")
  else do
    let abs ← safePath E s e
    if e.op = .deleted then
      if !E.disk.absent abs || status.lookup e.rel ≠ some .missing then
        .error (.refused ("deletion no longer missing: " ++ String.ofList e.rel))
      else .ok { path := e.rel, operation := .delete }
    else if status.lookup e.rel ≠ some .unversioned then
      .error (.refused ("addition already scheduled or changed: " ++ String.ofList e.rel))
    else match E.disk.hash abs with
      | none => .error (.refused "file changed while inspecting intent")
      | some (size, sha256) => .ok { path := e.rel, operation := .add, size := size, sha256 := sha256 }

variable (digest : List CacheEntry → List IntentPath → String)

variable (E : Inspection) (now : Time) (planID : String) (s : Service)

def inspectIntents : Except Refusal (List IntentPath × String) :=
  if !E.available || s.wc = [] || s.repoID = "" || s.cachePath = [] then
    .error (.refused "intent resolution unavailable")
  else match E.transaction with
    | .error _ => .error (.refused "unresolved commit transaction; resolve recovery first")
    | .ok transaction =>
      if transaction.any (fun i => i.phase ≠ .done) then
        .error (.refused "unresolved commit transaction; resolve recovery first")
      else if !(intentEntries s.staging).any (fun e => e.op = .renameUncertain) then .error .noUncertainty
      else do
        let selected ← selectIntents (intentEntries s.staging)
        if !selected.any (fun e => e.op = .renameUncertain) || selected.length > 128 then
          .error (.refused "plan exceeds 128 paths")
        else do
          let _ ← selected.mapM (safePath E s)
          match E.statuses with
          | none => .error (.refused "svn status failed")
          | some rows => do
            let status ← rows.foldlM (statusRow s.wc) ∅
            let paths ← selected.mapM (inspectPath E s status)
            pure (paths, digest (intentEntries s.staging) paths)

def newPlan (paths : List IntentPath) (s : Service) : IntentPlan where
  planID := planID
  repoID := s.repoID
  choice := intentDeleteAdd
  expiresAt := now + 600
  paths := paths

def planIntents : Except Refusal (IntentPlan × Service) :=
  match inspectIntents digest E s with
  | .error .noUncertainty => .ok ({ repoID := s.repoID, choice := intentDeleteAdd }, { s with intentPlan := none })
  | .error e => .error e
  | .ok (paths, fingerprint) =>
    .ok (newPlan now planID paths s, { s with
      intentPlan := some ⟨newPlan now planID paths s, fingerprint, now + 600⟩ })

def resolveItem (it : StageItem) : StageItem :=
  if it.op = .renameUncertain then { it with op := .added, resolutionID := planID, ver := it.ver + 1 } else it

def lastReceipts (receipts : List IntentReceipt) : List IntentReceipt := receipts.drop (receipts.length - 64)

def accept (fingerprint : String) (paths : List IntentPath) (s : Service) : Service :=
  { s with
    staging := Maps.mapVal (resolveItem planID) s.staging
    intentReceipts := lastReceipts (s.intentReceipts ++
      [{ planID := planID, repoID := s.repoID, acceptedAt := now, fingerprint := fingerprint, paths := paths }])
    intentPlan := none }

def applyIntents (mutating saved : Bool) (now : Time) (planID choice : String) (s : Service) :
    Except Refusal Service :=
  if mutating then .error (.refused "local mutation pending")
  else if choice ≠ intentDeleteAdd || planID = "" then .error (.refused "unsupported intent decision")
  else if s.intentReceipts.any (fun r => r.planID = planID && r.repoID = s.repoID) then .ok s
  else match s.intentPlan with
    | none => .error (.refused "intent plan expired or unavailable; request a new plan")
    | some state =>
      if state.plan.planID ≠ planID || now > state.expires then
        .error (.refused "intent plan expired or unavailable; request a new plan")
      else do
        let (paths, fingerprint) ← inspectIntents digest E s
        if fingerprint ≠ state.fingerprint then
          .error (.refused "files or pending operations changed; request a new plan")
        else if !E.alive then .error (.refused "context canceled")
        else if !saved then .error (.refused "working copy unavailable")
        else .ok (accept now planID fingerprint paths s)

def Unscheduled (staging : Staging) : Prop :=
  ∀ k it, staging.lookup k = some it →
    it.moveScheduled = false ∧ (it.isMove = false → it.oldRel = [] ∧ it.renameVerified = false)

variable {staging staging' : Staging} {k wc : Path} {it : StageItem} {now : Time} {ev : Event} {s : Service}
  {e : CacheEntry} {E E' : Inspection} {planID : String} {paths : List IntentPath}

lemma Unscheduled.insert (h : Unscheduled staging) (hs : it.moveScheduled = false)
    (hm : it.isMove = false → it.oldRel = [] ∧ it.renameVerified = false) :
    Unscheduled (staging.insert k it) := by
  intro j other hl
  rcases lookup_insert_eq_some.mp hl with ⟨_, rfl⟩ | ⟨_, hl⟩
  · exact ⟨hs, hm⟩
  · exact h j other hl

lemma Unscheduled.erase (h : Unscheduled staging) : Unscheduled (staging.erase k) :=
  fun j other hl => h j other (lookup_erase_eq_some.mp hl).2

lemma Unscheduled.queueRemoval {old : Path} (h : Unscheduled staging) :
    Unscheduled (stageRemoval wc now staging old) := by
  rw [stageRemoval]
  split
  · exact h
  · exact h.insert rfl (fun _ => ⟨rfl, rfl⟩)

def SourcesMoves (ev : Event) : Prop :=
  ev.op ≠ .renamed → ev.op ≠ .renameUncertain → ev.oldRel = [] ∧ ev.identityVerified = false

lemma Collapse.unscheduled {native : Bool} {ev' : Event} (h : Collapse native staging ev staging' ev')
    (hw : ev.WellFormed) (hu : Unscheduled staging) : Unscheduled staging' ∧ SourcesMoves ev' := by
  cases h with
  | other | first => exact ⟨hu, fun hr _ => hw hr⟩
  | uncertain => exact ⟨hu, fun _ hr => (hr rfl).elim⟩
  | hop _ hop => exact ⟨hu.erase, fun hr _ => (hr hop).elim⟩
  | take => exact ⟨hu.erase, fun hr _ => hw hr⟩

lemma mergeOp_unscheduled (hs : it.moveScheduled = false)
    (hm : it.isMove = false → it.oldRel = [] ∧ it.renameVerified = false)
    (hkeep : it.isMove = true → ev.op ≠ .added ∧ ev.op ≠ .deleted) : (mergeOp it ev).moveScheduled = false ∧
      ((mergeOp it ev).isMove = false → (mergeOp it ev).oldRel = [] ∧ (mergeOp it ev).renameVerified = false) := by
  have hplain : ev.op = .added ∨ ev.op = .deleted → it.renameVerified = false := by
    intro ho
    by_cases hmove : it.isMove = true
    · rcases ho with ho | ho
      · exact ((hkeep hmove).1 ho).elim
      · exact ((hkeep hmove).2 ho).elim
    · exact (hm (by simpa using hmove)).2
  cases hop : ev.op with
  | renameUncertain => simp [mergeOp, hop, hs, StageItem.isMove]
  | renamed => simp [mergeOp, hop, hs, StageItem.isMove]
  | deleted => simp [mergeOp, hop, hs, hplain (.inr hop)]
  | added => simp [mergeOp, hop, hs, hplain (.inl hop)]
  | modified => cases hit : it.op <;> simp_all [mergeOp, StageItem.isMove]

lemma Outcome.unscheduled (h : Outcome true wc now staging ev staging')
    (hw : staging.lookup ev.rel = none → SourcesMoves ev) (hu : Unscheduled staging) : Unscheduled staging' := by
  cases h with
  | fresh hl =>
    refine hu.insert rfl ?_
    intro hm
    rw [StageItem.isMove, Bool.or_eq_false_iff] at hm
    exact hw hl (of_decide_eq_false hm.1) (of_decide_eq_false hm.2)
  | folded hl _ _ hf =>
    obtain ⟨_, _, _, rfl⟩ := fold_eq_some hf
    exact hu.erase.queueRemoval
  | held hl => exact hu.insert (hu _ _ hl).1 (fun hm => by simp [StageItem.isMove, holdUncertain] at hm)
  | updated hl hkeep =>
    obtain ⟨hs, hm⟩ := mergeOp_unscheduled (hu _ _ hl).1 (hu _ _ hl).2 (hkeep rfl)
    exact hu.insert hs hm

lemma merge_unscheduled {a : Arrival} (hn : s.nativeMover = true) (hw : a.ev.WellFormed)
    (hu : Unscheduled s.staging) : Unscheduled (merge s a).staging := by
  obtain ⟨staging, ev₁, ev₂, hc, hr, ho⟩ := addEventLocked_outcome a.disk a.now s a.ev
  rw [hn] at ho hc
  obtain ⟨hu', hw'⟩ := hc.unscheduled hw hu
  refine ho.unscheduled ?_ hu'
  intro hl
  rcases hr with rfl | ⟨_, rfl, it, hit, _⟩
  · exact hw'
  · simp [hit] at hl

lemma run_unscheduled (hn : s.nativeMover = true) (hu : Unscheduled s.staging) {as : List Arrival}
    (hw : ∀ a ∈ as, a.ev.WellFormed) : Unscheduled (run merge s as).staging := by
  induction as generalizing s with
  | nil => exact hu
  | cons a as ih =>
    refine ih ?_ (merge_unscheduled hn (hw a (by simp)) hu) (fun b hb => hw b (by simp [hb]))
    rw [merge, addEventLocked_nativeMover, hn]

lemma selectIntents_eq_ok {entries selected : List CacheEntry} : selectIntents entries = .ok selected ↔
      (∀ e ∈ entries, e.carriesMove = false ∧ (e.isSelected = true → e.isDir = false)) ∧
        selected = entries.filter isSelected := by
  induction entries generalizing selected with
  | nil =>
    constructor
    · intro h
      cases h
      simp
    · rintro ⟨_, rfl⟩
      rfl
  | cons e entries ih =>
    rw [selectIntents, forall_mem_cons]
    cases hmove : e.carriesMove with
    | true => simp
    | false =>
      cases hsel : e.isSelected with
      | false => simp [ih, hsel]
      | true =>
        cases hdir : e.isDir with
        | true => simp
        | false =>
          simp only [Bool.false_eq_true, if_false, Bool.not_true, map_eq_ok, ih, true_and, imp_self,
            filter_cons_of_pos hsel]
          constructor
          · rintro ⟨_, ⟨hall, rfl⟩, rfl⟩
            exact ⟨hall, rfl⟩
          · rintro ⟨hall, rfl⟩
            exact ⟨_, ⟨hall, rfl⟩, rfl⟩

lemma mem_intentEntries : e ∈ intentEntries staging ↔ ∃ k it, staging.lookup k = some it ∧ cacheEntry it = e := by
  rw [intentEntries, List.mem_insertionSort, List.mem_map]
  simp only [mem_items]
  constructor
  · rintro ⟨it, ⟨k, hk⟩, rfl⟩
    exact ⟨k, it, hk, rfl⟩
  · rintro ⟨k, it, hk, rfl⟩
    exact ⟨it, ⟨k, hk⟩, rfl⟩

def StageItem.isSelected (it : StageItem) : Bool := it.op = .renameUncertain || it.op = .deleted

lemma selected_length (staging : Staging) : ((intentEntries staging).filter isSelected).length =
      ((items staging).filter StageItem.isSelected).length := by
  have hperm := perm_insertionSort (fun a b : CacheEntry => a.rel ≤ b.rel) ((items staging).map cacheEntry)
  rw [intentEntries, (hperm.filter _).length_eq, List.filter_map, List.length_map]
  rfl

/-- No staged rename, no uncertain entry with a source or its proof, and at most 128 files to decide. -/
def Resolvable (staging : Staging) : Prop :=
  (∀ k it, staging.lookup k = some it → it.op ≠ .renamed ∧
    (it.op = .renameUncertain → it.oldRel = [] ∧ it.renameVerified = false) ∧
    (it.isSelected = true → it.isDir = false)) ∧
    ((items staging).filter StageItem.isSelected).length ≤ 128

lemma carriesMove_eq_false (hu : Unscheduled staging) (hl : staging.lookup k = some it) :
    (cacheEntry it).carriesMove = false ↔
      it.op ≠ .renamed ∧ (it.op = .renameUncertain → it.oldRel = [] ∧ it.renameVerified = false) := by
  obtain ⟨hs, hm⟩ := hu k it hl
  simp only [carriesMove, cacheEntry, hs, Bool.or_eq_false_iff, decide_eq_false_iff_not, not_not, true_and]
  cases hop : it.op with
  | renamed => simp
  | renameUncertain =>
    simp only [reduceCtorEq, not_false_eq_true, and_true, ne_eq, true_and, forall_const]
    exact and_comm
  | added | modified | deleted =>
    have hplain := hm (by simp [StageItem.isMove, hop])
    simp [hplain]

lemma resolvable_iff (hu : Unscheduled staging) : Resolvable staging ↔
      selectIntents (intentEntries staging) = .ok ((intentEntries staging).filter isSelected) ∧
        ((intentEntries staging).filter isSelected).length ≤ 128 := by
  rw [Resolvable, selectIntents_eq_ok, selected_length, and_iff_left rfl]
  apply and_congr_left'
  constructor
  · intro h e he
    obtain ⟨k, it, hl, rfl⟩ := mem_intentEntries.mp he
    obtain ⟨hr, hunc, hdir⟩ := h k it hl
    exact ⟨(carriesMove_eq_false hu hl).mpr ⟨hr, hunc⟩, hdir⟩
  · intro h k it hl
    obtain ⟨hmove, hdir⟩ := h _ (mem_intentEntries.mpr ⟨k, it, hl, rfl⟩)
    obtain ⟨hr, hunc⟩ := (carriesMove_eq_false hu hl).mp hmove
    exact ⟨hr, hunc, hdir⟩

/-- Removed files are gone and missing for SVN, files to add are readable and unversioned, without symbolic links on
the way. -/
structure Facts (E : Inspection) (s : Service) : Prop where
  available : E.available = true
  service : s.wc ≠ [] ∧ s.repoID ≠ "" ∧ s.cachePath ≠ []
  settled : ∃ t, E.transaction = .ok t ∧ t.any (fun i => i.phase ≠ .done) = false
  alive : E.alive = true
  safe : ∀ k it, s.staging.lookup k = some it → it.isSelected = true →
    ∃ abs, intentSafePath E.disk s.wc (cacheEntry it) = .ok abs
  status : ∃ rows status, E.statuses = some rows ∧ rows.foldlM (statusRow s.wc) ∅ = .ok status ∧
    ∀ k it, s.staging.lookup k = some it →
      (it.op = .deleted → status.lookup it.rel = some .missing) ∧
        (it.op = .renameUncertain → status.lookup it.rel = some .unversioned)
  disk : ∀ k it, s.staging.lookup k = some it →
    (it.op = .deleted → E.disk.absent (joinPath s.wc it.rel) = true) ∧
      (it.op = .renameUncertain → (E.disk.hash (joinPath s.wc it.rel)).isSome = true)

def intentPathOf (E : Inspection) (s : Service) (e : CacheEntry) : IntentPath :=
  if e.op = .deleted then { path := e.rel, operation := .delete }
  else
    let hash := (E.disk.hash (joinPath s.wc e.rel)).getD (0, "")
    { path := e.rel, operation := .add, size := hash.1, sha256 := hash.2 }

lemma intentSafePath_eq {d : Disk} {abs : Path} (h : intentSafePath d wc e = .ok abs) : abs = joinPath wc e.rel := by
  rw [intentSafePath] at h
  split at h
  · cases h
  · split at h
    · cases h
    · dsimp only at h
      split at h
      · cases h
      · obtain ⟨_, _, rfl⟩ := map_eq_ok.mp h
        rfl

section Inspect

variable (hF : Facts E s)
include hF

lemma Facts.safePath (he : e ∈ (intentEntries s.staging).filter isSelected) :
    safePath E s e = .ok (joinPath s.wc e.rel) := by
  obtain ⟨hm, hsel⟩ := mem_filter.mp he
  obtain ⟨k, it, hl, rfl⟩ := mem_intentEntries.mp hm
  obtain ⟨abs, habs⟩ := hF.safe k it hl hsel
  rw [FileES.Commit.safePath, mapError_eq_ok, habs, intentSafePath_eq habs]

lemma Facts.inspectPath {status : Maps.Map Path StatusItem} (hstatus : ∀ k it, s.staging.lookup k = some it →
      (it.op = .deleted → status.lookup it.rel = some .missing) ∧
        (it.op = .renameUncertain → status.lookup it.rel = some .unversioned))
    (he : e ∈ (intentEntries s.staging).filter isSelected) :
    inspectPath E s status e = .ok (intentPathOf E s e) := by
  have hsafe := hF.safePath he
  obtain ⟨hm, hsel⟩ := mem_filter.mp he
  obtain ⟨k, it, hl, rfl⟩ := mem_intentEntries.mp hm
  simp only [FileES.Commit.inspectPath, hF.alive, Bool.not_true, Bool.false_eq_true, if_false, hsafe]
  change (if it.op = .deleted then _ else _) = Except.ok _
  by_cases hd : it.op = .deleted
  · have habsent := (hF.disk k it hl).1 hd
    have hmissing := (hstatus k it hl).1 hd
    simp [hd, cacheEntry, habsent, hmissing, intentPathOf]
  · have hunc : it.op = .renameUncertain := by
      rcases (Bool.or_eq_true _ _).mp hsel with h | h
      · exact of_decide_eq_true h
      · exact (hd (of_decide_eq_true h)).elim
    have hnew := (hstatus k it hl).2 hunc
    obtain ⟨hash, hhash⟩ := isSome_iff_exists.mp ((hF.disk k it hl).2 hunc)
    simp [hunc, cacheEntry, hnew, hhash, intentPathOf]

lemma inspectIntents_eq_ok (hu : Unscheduled s.staging)
    (hunc : ∃ k it, s.staging.lookup k = some it ∧ it.op = .renameUncertain) {r : List IntentPath × String} :
    inspectIntents digest E s = .ok r ↔ Resolvable s.staging ∧
      r = (((intentEntries s.staging).filter isSelected).map (intentPathOf E s), digest (intentEntries s.staging)
          (((intentEntries s.staging).filter isSelected).map (intentPathOf E s))) := by
  obtain ⟨t, ht, hdone⟩ := hF.settled
  obtain ⟨rows, status, hrows, hfold, hstatus⟩ := hF.status
  obtain ⟨k, it, hl, hop⟩ := hunc
  have hmem : cacheEntry it ∈ intentEntries s.staging := mem_intentEntries.mpr ⟨k, it, hl, rfl⟩
  have hany : (intentEntries s.staging).any (fun e => e.op = .renameUncertain) = true :=
    any_eq_true.mpr ⟨_, hmem, decide_eq_true hop⟩
  have hanySel : ((intentEntries s.staging).filter isSelected).any (fun e => e.op = .renameUncertain) =
      true := by
    refine any_eq_true.mpr ⟨_, mem_filter.mpr ⟨hmem, ?_⟩, decide_eq_true hop⟩
    exact (Bool.or_eq_true _ _).mpr (.inl (decide_eq_true hop))
  have hguard : (!E.available || decide (s.wc = []) || decide (s.repoID = "") || decide (s.cachePath = [])) = false := by
    simp [hF.available, hF.service]
  rw [inspectIntents, hguard, if_neg Bool.false_ne_true, ht]
  simp only [hdone, Bool.false_eq_true, if_false, hany, Bool.not_true, bind_ok]
  constructor
  · rintro ⟨selected, hsel, h⟩
    obtain rfl := (selectIntents_eq_ok.mp hsel).2
    rw [hanySel] at h
    split at h
    · cases h
    · rename_i hlen
      simp only [Bool.not_true, Bool.false_or, decide_eq_true_eq, not_lt] at hlen
      refine ⟨(resolvable_iff hu).mpr ⟨hsel, hlen⟩, ?_⟩
      obtain ⟨_, _, h⟩ := bind_ok.mp h
      rw [hrows] at h
      obtain ⟨status', hfold', h⟩ := bind_ok.mp h
      obtain rfl : status = status' := Except.ok.inj (hfold.symm.trans hfold')
      rw [mapM_eq_ok_map (fun e he => hF.inspectPath hstatus he)] at h
      cases h
      rfl
  · rintro ⟨hres, rfl⟩
    obtain ⟨hsel, hlen⟩ := (resolvable_iff hu).mp hres
    refine ⟨_, hsel, ?_⟩
    have hfits : (!((intentEntries s.staging).filter isSelected).any (fun e => e.op = .renameUncertain) ||
        decide (((intentEntries s.staging).filter isSelected).length > 128)) = false := by
      simp [hanySel, hlen]
    rw [hfits, if_neg Bool.false_ne_true, mapM_eq_ok_map (fun e he => hF.safePath he), hrows]
    refine bind_ok.mpr ⟨_, rfl, bind_ok.mpr ⟨status, hfold, ?_⟩⟩
    rw [mapM_eq_ok_map (fun e he => hF.inspectPath hstatus he)]
    rfl

end Inspect

def Resolves (E E' : Inspection) (now now' : Time) (planID : String) (s : Service) : Prop :=
  ∃ plan s₁ s₂, planIntents digest E now planID s = .ok (plan, s₁) ∧
    applyIntents digest E' false true now' plan.planID plan.choice s₁ = .ok s₂ ∧
    (∀ k it, s.staging.lookup k = some it → s₂.staging.lookup k = some (resolveItem planID it)) ∧
    ∀ k it, s₂.staging.lookup k = some it → it.op ≠ .renameUncertain

lemma resolveItem_op (planID : String) (it : StageItem) : (resolveItem planID it).op ≠ .renameUncertain := by
  rw [resolveItem]
  split
  · simp
  · assumption

lemma intentPathOf_congr (hsame : ∀ k it, s.staging.lookup k = some it → it.op = .renameUncertain →
      E'.disk.hash (joinPath s.wc it.rel) = E.disk.hash (joinPath s.wc it.rel))
    (he : e ∈ (intentEntries s.staging).filter isSelected) :
    intentPathOf E' s e = intentPathOf E s e := by
  obtain ⟨hm, hsel⟩ := mem_filter.mp he
  obtain ⟨k, it, hl, rfl⟩ := mem_intentEntries.mp hm
  rw [intentPathOf, intentPathOf]
  split
  · rfl
  · rename_i hd
    rcases (Bool.or_eq_true _ _).mp hsel with h | h
    · have hhash := hsame k it hl (of_decide_eq_true h)
      change (_ : IntentPath) = _
      simp only [cacheEntry, hhash]
    · exact (hd (of_decide_eq_true h)).elim

lemma applyIntents_of_inspect {state : IntentPlanState} (hp : s.intentPlan = some state)
    (hs : state.plan.planID = planID) (hid : planID ≠ "") (hfresh : ∀ r ∈ s.intentReceipts, r.planID ≠ planID)
    (ht : now ≤ state.expires) (hi : inspectIntents digest E s = .ok (paths, state.fingerprint))
    (ha : E.alive = true) : applyIntents digest E false true now planID intentDeleteAdd s =
      .ok (accept now planID state.fingerprint paths s) := by
  have hreceipts : s.intentReceipts.any (fun r => r.planID = planID && r.repoID = s.repoID) = false := by
    rw [List.any_eq_false]
    intro r hr
    simp [hfresh r hr]
  have hvalid : (decide (state.plan.planID ≠ planID) || decide (now > state.expires)) = false := by simp [hs, ht]
  have hchoice : (decide (intentDeleteAdd ≠ intentDeleteAdd) || decide (planID = "")) = false := by simp [hid]
  rw [applyIntents, if_neg Bool.false_ne_true, hchoice, if_neg Bool.false_ne_true, hreceipts,
    if_neg Bool.false_ne_true, hp]
  simp only [hvalid, hi, ha, Bool.false_eq_true, if_false, ne_eq, Bool.not_true]
  exact if_neg (not_not.mpr rfl)

lemma resolves_of_inspect {now' : Time} {paths' : List IntentPath} {fingerprint fingerprint' : String}
    (hi : inspectIntents digest E s = .ok (paths, fingerprint))
    (hi' : inspectIntents digest E' s = .ok (paths', fingerprint')) (hf : fingerprint' = fingerprint)
    (ha : E'.alive = true) (ht : now' ≤ now + 600) (hid : planID ≠ "")
    (hfresh : ∀ r ∈ s.intentReceipts, r.planID ≠ planID) : Resolves digest E E' now now' planID s := by
  subst hf
  have hplan : planIntents digest E now planID s =
      .ok (newPlan now planID paths s, { s with
        intentPlan := some ⟨newPlan now planID paths s, fingerprint', now + 600⟩ }) := by
    rw [planIntents, hi]
  refine ⟨_, _, _, hplan, applyIntents_of_inspect digest rfl rfl hid hfresh ht hi' ha, ?_, ?_⟩
  · intro k it hl
    exact lookup_mapVal_eq_some.mpr ⟨it, hl, rfl⟩
  · intro k it hl
    obtain ⟨u, _, rfl⟩ := lookup_mapVal_eq_some.mp hl
    exact resolveItem_op planID u

def resolver : Service where
  repoID := "repo"
  wc := "/wc"
  cachePath := "/wc/.filees/commit_cache/cache.json"
  nativeMover := true

def fileEvent (op : OpType) (name : String) : Arrival where
  disk := bareDisk
  now := 0
  ev := { path := ("/wc/" ++ name).toList, rel := name.toList, op := op }

def movedInspection : Inspection where
  disk :=
    { lstat := fun p => if p = "/wc" then .ok { isDir := true, isRegular := false }
                        else if p = "/wc/b" then .ok { size := 3 } else .error .notExist
      stat := fun _ => .error .notExist
      hash := fun p => if p = "/wc/b" then some (3, "2c26b46b") else none }
  statuses := some [{ path := "a", item := .missing }, { path := "b", item := .unversioned }]

end FileES.Commit
