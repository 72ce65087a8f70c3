import FileES.Commit.Service

/-! Merging one watcher event into the commit queue. -/

namespace FileES.Commit

open Go Watcher Lib.Maps

section

variable (d : Disk) (wc : Path) (now : Time) (s : Service) (staging : Staging) (it : StageItem)

def walkIntentPath (d : Disk) (op : OpType) (current : Path) : List Str → Except String Unit
  | [] =>
    match d.lstat current with
    | .error .notExist => if op = .deleted then .ok () else .error "no such file"
    | .error .other => .error "lstat failed"
    | .ok info => if info.isSymlink then .error "indirect intent path is not supported" else .ok ()
  | part :: parts =>
    match d.lstat current with
    | .error .notExist => .error "no such file"
    | .error .other => .error "lstat failed"
    | .ok info =>
      if info.isSymlink || !info.isDir then .error "indirect intent path is not supported"
      else walkIntentPath d op (joinPath current part) parts

def intentSafePath (e : CacheEntry) : Except String Path :=
  if !safeIntentPath e.rel then .error "unsafe intent path"
  else if (split e.rel).any (fun part => part == "." || part == ".." || reservedSegment part) then
    .error "reserved intent path"
  else
    let abs := joinPath wc e.rel
    if clean e.abs ≠ abs then .error "intent path no longer belongs to working copy"
    else (walkIntentPath d e.op wc (split e.rel)).map (fun _ => abs)

def receiptReplay (r : IntentReceipt) : Option Bool :=
  let restored := r.paths.any (fun p => p.operation = .delete &&
    (let abs := joinPath wc p.path
     match intentSafePath d wc { rel := p.path, abs := abs, op := .deleted } with
     | .error _ => true
     | .ok _ => !d.absent abs))
  if restored then some false
  else (r.paths.find? (fun p => p.path = it.rel && p.operation = .add)).map (fun p =>
    match intentSafePath d wc { rel := it.rel, abs := it.abs, op := .added } with
    | .error _ => false
    | .ok abs => d.hash abs == some (p.size, p.sha256))

variable (ev : Event)

def acceptedIntentReplay : Bool :=
  if it.op ≠ .added || it.resolutionID = "" || it.moveScheduled || it.oldRel ≠ [] || ev.oldRel ≠ [] ||
      ev.identityVerified || ev.type ≠ .file || ev.path ≠ it.abs then false
  else ((s.intentReceipts.filter (fun r => r.planID = it.resolutionID && r.repoID = s.repoID)).findSome?
    (receiptReplay d s.wc it)).getD false

def movedOn (key rel : Path) : Bool :=
  staging.entries.any (fun other => other.1 ≠ key && other.2.oldRel = rel)

def stageRemoval (old : Path) : Staging :=
  match staging.lookup old with
  | some _ => staging
  | none => staging.insert old
      { rel := old, abs := joinPath wc old, op := .deleted, firstSeen := now, lastSeen := now }

def foldRemovedRenameLocked (key : Path) (it : StageItem) :
    Option Staging :=
  if (it.op ≠ .renamed && it.op ≠ .renameUncertain) || it.moveScheduled || it.oldRel = [] || it.isDir then none
  else if movedOn staging key it.rel then none
  else some (stageRemoval wc now (staging.erase key) it.oldRel)

def collapseRename (native : Bool) (staging : Staging) (ev : Event) : Staging × Event :=
  if native && ev.op = .renamed then
    match staging.lookup ev.oldRel with
    | none => (staging, ev)
    | some previous =>
      if previous.moveScheduled || previous.op = .renameUncertain then
        (staging, { ev with op := .renameUncertain })
      else match previous.op with
        | .renamed => (staging.erase ev.oldRel, { ev with
            oldRel := previous.oldRel, identityVerified := previous.renameVerified && ev.identityVerified })
        | _ => (staging.erase ev.oldRel, ev)
  else (staging, ev)

def newItem : StageItem where
  rel := ev.rel
  abs := ev.path
  oldRel := ev.oldRel
  renameVerified := ev.identityVerified
  isDir := ev.type = .dir
  op := ev.op
  firstSeen := now
  lastSeen := now

def mergeOp : StageItem :=
  match ev.op with
  | .renameUncertain => { it with op := .renameUncertain, resolutionID := "" }
  | .deleted => { it with op := .deleted, resolutionID := "", oldRel := [] }
  | .added => { it with op := .added, oldRel := [] }
  | .modified =>
    if it.op ≠ .added && it.op ≠ .deleted && it.op ≠ .renamed && it.op ≠ .renameUncertain then
      { it with op := .modified }
    else it
  | .renamed => { it with
      op := .renamed, resolutionID := "", oldRel := ev.oldRel, renameVerified := ev.identityVerified }

def refresh (it : StageItem) : StageItem :=
  { it with abs := ev.path, isDir := ev.type = .dir, lastSeen := now, ver := it.ver + 1 }

def holdUncertain : StageItem :=
  { it with op := .renameUncertain, lastSeen := now, ver := it.ver + 1 }

def StageItem.isMove : Bool := it.op = .renamed || it.op = .renameUncertain

def mergeExisting (native : Bool) (wc : Path) (now : Time) (staging : Staging) (it : StageItem) (ev : Event) :
    Staging :=
  match if native && ev.op = .deleted then foldRemovedRenameLocked wc now staging ev.rel it else none with
  | some folded => folded
  | none =>
    if native && it.isMove && (ev.op = .added || ev.op = .deleted) then
      staging.insert ev.rel (holdUncertain now it)
    else staging.insert ev.rel (refresh now ev (mergeOp it ev))

def addEventLocked : Service :=
  let (staging, ev) := collapseRename s.nativeMover s.staging ev
  match staging.lookup ev.rel with
  | none => { s with staging := staging.insert ev.rel (newItem now ev) }
  | some it =>
    let ev := if ev.op = .renameUncertain && acceptedIntentReplay d s it ev then { ev with op := .added } else ev
    { s with staging := mergeExisting s.nativeMover s.wc now staging it ev }

structure Arrival where
  disk : Disk
  now : Time
  ev : Event

def merge (a : Arrival) : Service := addEventLocked a.disk a.now s a.ev

def Keyed : Prop := ∀ k it, staging.lookup k = some it → it.rel = k

end

variable {wc key : Path} {now : Time} {staging : Staging} {ev : Event} {native : Bool}

lemma keyed_of_entries (h : ∀ e ∈ staging.entries, e.2.rel = e.1) : Keyed staging :=
  fun k it hk => h ⟨k, it⟩ (mem_entries_iff.mpr hk)

lemma keyed_insert (h : Keyed staging) (it : StageItem) : Keyed (staging.insert it.rel it) := by
  intro k other hl
  rcases lookup_insert_eq_some.mp hl with ⟨rfl, rfl⟩ | ⟨_, hl⟩
  · rfl
  · exact h k other hl

lemma keyed_erase {k : Path} (h : Keyed staging) : Keyed (staging.erase k) := by
  intro j other hl
  exact h j other (lookup_erase_eq_some.mp hl).2

@[simp] lemma mergeOp_rel (it : StageItem) (ev : Event) : (mergeOp it ev).rel = it.rel := by
  rcases ev with ⟨_, _, _, _, _, _, op, _⟩
  cases op with
  | modified => simp only [mergeOp]; split <;> rfl
  | added | deleted | renamed | renameUncertain => rfl

@[simp] lemma addEventLocked_nativeMover (d : Disk) (now : Time) (s : Service) (ev : Event) :
    (addEventLocked d now s ev).nativeMover = s.nativeMover := by
  simp only [addEventLocked]
  split <;> rfl

inductive Collapse (native : Bool) (staging : Staging) (ev : Event) : Staging → Event → Prop
  | other : (native = true → ev.op ≠ .renamed) → Collapse native staging ev staging ev
  | first : native = true → ev.op = .renamed → staging.lookup ev.oldRel = none → Collapse native staging ev staging ev
  | uncertain {previous} : native = true → ev.op = .renamed → staging.lookup ev.oldRel = some previous →
      (previous.moveScheduled = true ∨ previous.op = .renameUncertain) →
      Collapse native staging ev staging { ev with op := .renameUncertain }
  | hop {previous} : native = true → ev.op = .renamed → staging.lookup ev.oldRel = some previous →
      previous.moveScheduled = false → previous.op = .renamed →
      Collapse native staging ev (staging.erase ev.oldRel) { ev with
        oldRel := previous.oldRel, identityVerified := previous.renameVerified && ev.identityVerified }
  | take {previous} : native = true → ev.op = .renamed → staging.lookup ev.oldRel = some previous →
      previous.moveScheduled = false → previous.isMove = false →
      Collapse native staging ev (staging.erase ev.oldRel) ev

lemma collapseRename_spec (native : Bool) (staging : Staging) (ev : Event) :
    Collapse native staging ev (collapseRename native staging ev).1 (collapseRename native staging ev).2 := by
  by_cases hr : native = true ∧ ev.op = .renamed
  · obtain ⟨hn, ho⟩ := hr
    cases hl : staging.lookup ev.oldRel with
    | none =>
      have hc : collapseRename native staging ev = (staging, ev) := by simp [collapseRename, hn, ho, hl]
      rw [hc]
      exact .first hn ho hl
    | some previous =>
      by_cases hu : previous.moveScheduled = true ∨ previous.op = .renameUncertain
      · have hc : collapseRename native staging ev = (staging, { ev with op := .renameUncertain }) := by
          simp [collapseRename, hn, ho, hl, hu]
        rw [hc]
        exact .uncertain hn ho hl hu
      · have hs : previous.moveScheduled = false := by simpa using fun h => hu (.inl h)
        have hm : previous.op ≠ .renameUncertain := fun h => hu (.inr h)
        cases hp : previous.op with
        | renamed =>
          have hc : collapseRename native staging ev = (staging.erase ev.oldRel, { ev with
              oldRel := previous.oldRel, identityVerified := previous.renameVerified && ev.identityVerified }) := by
            simp [collapseRename, hn, ho, hl, hs, hp]
          rw [hc]
          exact .hop hn ho hl hs hp
        | renameUncertain => exact (hm hp).elim
        | added | modified | deleted =>
          have hc : collapseRename native staging ev = (staging.erase ev.oldRel, ev) := by
            simp [collapseRename, hn, ho, hl, hs, hp]
          rw [hc]
          exact .take hn ho hl hs (by simp [StageItem.isMove, hp])
  · have hc : collapseRename native staging ev = (staging, ev) := by
      simpa [collapseRename] using fun hn ho => (hr ⟨hn, ho⟩).elim
    rw [hc]
    exact .other (not_and.mp hr)

lemma movedOn_iff {rel : Path} :
    movedOn staging key rel = true ↔ ∃ k other, staging.lookup k = some other ∧ k ≠ key ∧ other.oldRel = rel := by
  simp only [movedOn, List.any_eq_true, Sigma.exists, mem_entries_iff, Bool.and_eq_true, decide_eq_true_eq]

lemma fold_eq_some {folded : Staging} {it : StageItem}
    (h : foldRemovedRenameLocked wc now staging key it = some folded) :
    it.isMove = true ∧ it.oldRel ≠ [] ∧ (∀ k other, staging.lookup k = some other → k ≠ key → other.oldRel ≠ it.rel) ∧
      folded = stageRemoval wc now (staging.erase key) it.oldRel := by
  rw [foldRemovedRenameLocked] at h
  split at h
  · cases h
  · rename_i hmove
    simp only [Bool.not_eq_true, Bool.or_eq_false_iff, Bool.and_eq_false_iff, decide_eq_false_iff_not,
      not_not] at hmove
    obtain ⟨⟨⟨hop, _⟩, hold⟩, _⟩ := hmove
    split at h
    · cases h
    · rename_i hnone
      refine ⟨by simpa [StageItem.isMove] using hop, hold, ?_, ?_⟩
      · intro k other hk hne heq
        exact hnone (movedOn_iff.mpr ⟨k, other, hk, hne, heq⟩)
      · exact (Option.some.inj h).symm

lemma fold_eq_none {it : StageItem} (h : foldRemovedRenameLocked wc now staging key it = none) (hm : it.isMove = true)
    (hs : it.moveScheduled = false) (hd : it.isDir = false) (ho : it.oldRel ≠ []) :
    ∃ k other, staging.lookup k = some other ∧ k ≠ key ∧ other.oldRel = it.rel := by
  have hmove : ((it.op ≠ .renamed && it.op ≠ .renameUncertain) || it.moveScheduled || it.oldRel = [] || it.isDir)
      = false := by
    simp only [StageItem.isMove, Bool.or_eq_true, decide_eq_true_eq] at hm
    rcases hm with hm | hm <;> simp [hm, hs, hd, ho]
  rw [foldRemovedRenameLocked, hmove] at h
  by_cases hany : movedOn staging key it.rel = true
  · exact movedOn_iff.mp hany
  · simp [hany] at h

inductive Outcome (native : Bool) (wc : Path) (now : Time) (staging : Staging) (ev : Event) : Staging → Prop
  | fresh : staging.lookup ev.rel = none → Outcome native wc now staging ev (staging.insert ev.rel (newItem now ev))
  | folded {it folded} : staging.lookup ev.rel = some it → native = true → ev.op = .deleted →
      foldRemovedRenameLocked wc now staging ev.rel it = some folded → Outcome native wc now staging ev folded
  | held {it} : staging.lookup ev.rel = some it → native = true → it.isMove = true →
      (ev.op = .added ∨ ev.op = .deleted ∧ foldRemovedRenameLocked wc now staging ev.rel it = none) →
      Outcome native wc now staging ev (staging.insert ev.rel (holdUncertain now it))
  | updated {it} : staging.lookup ev.rel = some it →
      (native = true → it.isMove = true → ev.op ≠ .added ∧ ev.op ≠ .deleted) →
      Outcome native wc now staging ev (staging.insert ev.rel (refresh now ev (mergeOp it ev)))

lemma mergeExisting_outcome (native : Bool) (wc : Path) (now : Time) (staging : Staging) (it : StageItem)
    (ev : Event) (hl : staging.lookup ev.rel = some it) :
    Outcome native wc now staging ev (mergeExisting native wc now staging it ev) := by
  rw [mergeExisting]
  split
  · rename_i folded hf
    split at hf
    · rename_i hd
      simp only [Bool.and_eq_true, decide_eq_true_eq] at hd
      exact .folded hl hd.1 hd.2 hf
    · cases hf
  · rename_i hf
    split
    · rename_i hm
      simp only [Bool.and_eq_true, Bool.or_eq_true, decide_eq_true_eq] at hm
      obtain ⟨⟨hn, hm⟩, ho⟩ := hm
      refine .held hl hn hm (ho.imp_right fun hd => ⟨hd, ?_⟩)
      simpa [hn, hd] using hf
    · rename_i hm
      refine .updated hl ?_
      intro hn hmove
      simp only [hn, hmove, Bool.and_self, Bool.true_and, Bool.or_eq_true, decide_eq_true_eq, not_or] at hm
      exact hm

def Replayed (staging : Staging) (ev ev' : Event) : Prop :=
  ev' = ev ∨ ev.op = .renameUncertain ∧ ev' = { ev with op := .added } ∧
    ∃ it, staging.lookup ev.rel = some it ∧ it.op = .added ∧ it.resolutionID ≠ ""

lemma acceptedIntentReplay_item {d : Disk} {s : Service} {it : StageItem}
    (h : acceptedIntentReplay d s it ev = true) : it.op = .added ∧ it.resolutionID ≠ "" := by
  rw [acceptedIntentReplay] at h
  split at h
  · cases h
  · rename_i hc
    simp only [ne_eq, Bool.or_eq_true, decide_eq_true_eq, not_or, not_not] at hc
    exact ⟨hc.1.1.1.1.1.1.1, hc.1.1.1.1.1.1.2⟩

lemma addEventLocked_outcome (d : Disk) (now : Time) (s : Service) (ev : Event) :
    ∃ staging ev₁ ev₂, Collapse s.nativeMover s.staging ev staging ev₁ ∧ Replayed staging ev₁ ev₂ ∧
      Outcome s.nativeMover s.wc now staging ev₂ (addEventLocked d now s ev).staging := by
  have hc := collapseRename_spec s.nativeMover s.staging ev
  rw [addEventLocked]
  generalize collapseRename s.nativeMover s.staging ev = c at hc ⊢
  obtain ⟨staging, ev₁⟩ := c
  dsimp only at hc ⊢
  split
  · rename_i hl
    exact ⟨staging, ev₁, ev₁, hc, .inl rfl, .fresh hl⟩
  · rename_i it hl
    by_cases hr : ev₁.op = .renameUncertain ∧ acceptedIntentReplay d s it ev₁ = true
    · have hi := acceptedIntentReplay_item hr.2
      refine ⟨staging, ev₁, { ev₁ with op := .added }, hc, .inr ⟨hr.1, rfl, it, hl, hi⟩, ?_⟩
      simpa [hr] using mergeExisting_outcome s.nativeMover s.wc now staging it { ev₁ with op := .added } hl
    · refine ⟨staging, ev₁, ev₁, hc, .inl rfl, ?_⟩
      have hf : (decide (ev₁.op = .renameUncertain) && acceptedIntentReplay d s it ev₁) = false := by
        simpa using fun h => (not_and.mp hr) h
      simpa [hf] using mergeExisting_outcome s.nativeMover s.wc now staging it ev₁ hl

lemma keyed_stageRemoval {old : Path} (h : Keyed staging) : Keyed (stageRemoval wc now staging old) := by
  rw [stageRemoval]
  split
  · exact h
  · exact keyed_insert h { rel := old, abs := _, op := .deleted, firstSeen := now, lastSeen := now }

lemma Collapse.keyed {staging' : Staging} {ev' : Event}
    (h : Collapse native staging ev staging' ev') (hk : Keyed staging) : Keyed staging' := by
  cases h with
  | other | first | uncertain => exact hk
  | hop | take => exact keyed_erase hk

lemma Outcome.keyed {staging' : Staging}
    (h : Outcome native wc now staging ev staging') (hk : Keyed staging) : Keyed staging' := by
  cases h with
  | fresh => exact keyed_insert hk (newItem now ev)
  | folded hl _ _ hf =>
    obtain ⟨_, _, _, rfl⟩ := fold_eq_some hf
    exact keyed_stageRemoval (keyed_erase hk)
  | @held it hl =>
    have hr : (holdUncertain now it).rel = ev.rel := hk ev.rel it hl
    exact hr ▸ keyed_insert hk _
  | @updated it hl =>
    have hr : (refresh now ev (mergeOp it ev)).rel = ev.rel := (mergeOp_rel it ev).trans (hk ev.rel it hl)
    exact hr ▸ keyed_insert hk _

lemma merge_keyed (s : Service) (a : Arrival) (h : Keyed s.staging) : Keyed (merge s a).staging := by
  obtain ⟨staging, ev₁, ev₂, hc, _, ho⟩ := addEventLocked_outcome a.disk a.now s a.ev
  exact ho.keyed (hc.keyed h)

end FileES.Commit
