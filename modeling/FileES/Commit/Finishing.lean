import FileES.Commit.ExactlyOnce

/-! Finishing a confirmed commit again after a crash ends with the queue of one uninterrupted pass. -/

namespace FileES.Commit

open Go Lib Lib.Runs Machine StageItem List Option AList

variable {a : Account} {s s' : Machine} {e : Action a} {j : CommitIntent} {wc : Path} {d : Disk} {clean : Path → Bool}
  {q q' : Staging} {it : IntentItem} {its : List IntentItem} {cur : StageItem} {k : Path}

def StageItem.stored (it : StageItem) : StageItem := { it with ver := 0, placeholderWaitReported := false }

/-- What is left in the queue of an entry with the path of a journaled item. -/
def settle (wc : Path) (d : Disk) (clean : Path → Bool) (it : IntentItem) (cur : StageItem) : Option StageItem :=
  if !sameGeneration cur it then some cur
  else if clean it.rel || (it.op = .deleted && d.absent (joinPath wc it.rel)) then none
  else if it.op = .renamed || it.op = .added then
    some { cur with op := .modified, oldRel := [], moveScheduled := false, renameVerified := false, ver := cur.ver + 1 }
  else if it.op = .deleted && (d.lstat (joinPath wc it.rel)).isOk then some { cur with op := .added, ver := cur.ver + 1 }
  else some cur

lemma lookup_retireItem (k : Path) : (retireItem wc d clean q it).lookup k =
    if k = it.rel then (q.lookup k).bind (settle wc d clean it) else q.lookup k := by
  by_cases hk : k = it.rel
  · subst hk
    cases hl : q.lookup it.rel with
    | none => simp [retireItem, hl]
    | some cur =>
      simp only [retireItem, hl, settle, bind_some, if_true]
      split_ifs <;> simp [hl]
  · simp only [retireItem, if_neg hk]
    split
    · rfl
    · split_ifs <;> simp [lookup_insert_ne hk, lookup_erase_ne hk]

lemma lookup_retireItems_of_notMem (h : k ∉ its.map IntentItem.rel) :
    (retireItems wc d clean q its).lookup k = q.lookup k := by
  induction its generalizing q with
  | nil => rfl
  | cons it its ih =>
    simp only [map_cons, mem_cons, not_or] at h
    rw [retireItems, foldl_cons, ← retireItems, ih h.2, lookup_retireItem, if_neg h.1]

lemma lookup_retireItems (hn : (its.map IntentItem.rel).Nodup) (h : it ∈ its) :
    (retireItems wc d clean q its).lookup it.rel = (q.lookup it.rel).bind (settle wc d clean it) := by
  induction its generalizing q with
  | nil => cases h
  | cons x its ih =>
    obtain ⟨hx, hn⟩ := nodup_cons.mp hn
    rw [retireItems, foldl_cons, ← retireItems]
    rcases mem_cons.mp h with rfl | h
    · rw [lookup_retireItems_of_notMem hx, lookup_retireItem, if_pos rfl]
    · have hne : it.rel ≠ x.rel := fun he => hx (he ▸ mem_map_of_mem h)
      rw [ih hn h, lookup_retireItem, if_neg hne]

lemma settle_of_not_sameGeneration (h : sameGeneration cur it = false) : settle wc d clean it cur = some cur := by
  simp [settle, h]

/-- The rewritten entry is of another generation, or it is the entry that was there. -/
lemma settle_settle {cur' : StageItem} (h : settle wc d clean it cur = some cur') :
    settle wc d clean it cur' = some cur' := by
  have h₀ := h
  unfold settle at h
  split_ifs at h with hg hgone hpub hback
  · rwa [← some.inj h] at h₀ ⊢
  · rw [← some.inj h]
    apply settle_of_not_sameGeneration
    rcases (Bool.or_eq_true _ _).mp hpub with ho | ho <;> simp [sameGeneration, of_decide_eq_true ho]
  · rw [← some.inj h]
    apply settle_of_not_sameGeneration
    have ho : it.op = .deleted := of_decide_eq_true ((Bool.and_eq_true _ _).mp hback).1
    simp [sameGeneration, ho]
  · rwa [← some.inj h] at h₀ ⊢

lemma settle_stored : (settle wc d clean it cur.stored).map stored = (settle wc d clean it cur).map stored := by
  have hg : sameGeneration cur.stored it = sameGeneration cur it := rfl
  simp only [settle, hg]
  split_ifs <;> rfl

/-- The queue as it reads after a restart. -/
def kept (q : Staging) (k : Path) : Option StageItem := (q.lookup k).map StageItem.stored

lemma kept_loadCache (q : Staging) : kept (loadCache q) = kept q := by
  funext k
  have hl : (loadCache q).lookup k = (q.lookup k).map stored := by
    ext v
    simp only [loadCache, Maps.lookup_mapVal_eq_some, map_eq_some_iff, stored]
  have hidem : stored ∘ stored = stored := rfl
  simp [kept, hl, hidem]

section

variable (hn : (its.map IntentItem.rel).Nodup)
include hn

lemma kept_retireItems (h : it ∈ its) : kept (retireItems wc d clean q its) it.rel =
      ((kept q it.rel).bind (settle wc d clean it)).map stored := by
  rw [kept, kept, lookup_retireItems hn h]
  cases q.lookup it.rel with
  | none => rfl
  | some cur => exact settle_stored.symm

lemma kept_retireItems_congr (h : kept q = kept q') :
    kept (retireItems wc d clean q its) = kept (retireItems wc d clean q' its) := by
  funext k
  by_cases hk : k ∈ its.map IntentItem.rel
  · obtain ⟨it, hit, rfl⟩ := mem_map.mp hk
    rw [kept_retireItems hn hit, kept_retireItems hn hit, h]
  · simpa only [kept, lookup_retireItems_of_notMem hk] using congrFun h k

lemma kept_retireItems_twice :
    kept (retireItems wc d clean (retireItems wc d clean q its) its) = kept (retireItems wc d clean q its) := by
  funext k
  by_cases hk : k ∈ its.map IntentItem.rel
  · obtain ⟨it, hit, rfl⟩ := mem_map.mp hk
    simp only [kept, lookup_retireItems hn hit]
    cases q.lookup it.rel with
    | none => rfl
    | some cur =>
      cases hs : settle wc d clean it cur with
      | none => simp [hs]
      | some cur' => simp [hs, settle_settle hs]
  · simp only [kept, lookup_retireItems_of_notMem hk]

end

/-- An intent that `commitDurable` made of a pass over the queue, confirmed by the server. -/
def Confirmed (a : Account) (j : CommitIntent) : Prop :=
  ∃ (P : Pass) (q : Staging) (plan : Plan) (t : Attempt a) (i : CommitIntent) (rev : ℤ),
    Keyed q ∧ tryCommitLocked P q = .ok (some plan) ∧ newIntent a t plan = .ok i ∧ j = i.confirm rev

lemma Confirmed.nodup (h : Confirmed a j) : (j.items.map IntentItem.rel).Nodup := by
  obtain ⟨P, q, plan, t, i, rev, hk, hp, hnew, rfl⟩ := h
  have hitems : i.items = intentItems plan := (newIntent_eq_ok hnew).2.2.2.2.2
  have hrel : (intentItems plan).map IntentItem.rel =
      (plan.items.filter (fun it => plan.commitPaths.contains it.rel)).map StageItem.rel := by
    simp [intentItems, intentItem, Function.comp_def]
  rw [CommitIntent.confirm, hitems, hrel]
  exact (filter_sublist.map StageItem.rel).nodup (plan_rels_nodup hp hk)

lemma Confirmed.phase (h : Confirmed a j) : j.phase = .confirmed := by
  obtain ⟨_, _, _, _, _, _, _, _, _, rfl⟩ := h
  rfl

/-- On one disk and one answer of `svn status`: the steps of `finishIntent`, failures, crashes and restarts. -/
def Replays (a : Account) (d : Disk) (clean : Path → Bool) (e : Action a) : Prop :=
  e = .retire d clean ∨ e = .checkpoint ∨ e = .write ∨ e = .giveUp ∨ e = .crash ∨ e = .recover ∨ e = .save

def finishOnce (d : Disk) (clean : Path → Bool) : List (Action a) := [.retire d clean, .checkpoint, .write]

structure Underway (a : Account) (j : CommitIntent) (q r : Path → Option StageItem) (s : Machine) : Prop where
  cache : kept s.cache = q ∨ kept s.cache = r
  staging : kept s.staging = q ∨ kept s.staging = r
  control : s.control = .idle ∨ s.control = .finishing j ∨ s.control = .retired j ∧ kept s.staging = r ∨
    s.control = .closing j ∧ kept s.staging = r ∧ kept s.cache = r
  journal : s.journal = written a j ∨
    s.journal = written a j.finish ∧ s.control = .idle ∧ kept s.staging = r ∧ kept s.cache = r

variable {q₀ r : Path → Option StageItem}

lemma Underway.idle (h : Underway a j q₀ r s) : Underway a j q₀ r { s with control := .idle } :=
  { h with control := .inl rfl, journal := h.journal.imp id (fun hj => ⟨hj.1, rfl, hj.2.2⟩) }

lemma Underway.turn (hp : j.phase = .confirmed) (he : Replays a d clean e)
    (hr : ∀ q, kept q = q₀ ∨ kept q = r → kept (retireItems a.wc d clean q j.items) = r)
    (h : Underway a j q₀ r s) (ht : Turn a s e s') : Underway a j q₀ r s' := by
  have hctl := h.control
  cases ht with
  | stays => exact h
  | gaveUp => exact h.idle
  | saved =>
    refine ⟨h.staging, h.staging, ?_, ?_⟩
    · exact hctl.imp id (Or.imp id (Or.imp id (fun hc => ⟨hc.1, hc.2.1, hc.2.1⟩)))
    · exact h.journal.imp id (fun hj => ⟨hj.1, hj.2.1, hj.2.2.1, hj.2.2.1⟩)
  | crashed =>
    have hload := kept_loadCache s.cache
    refine ⟨h.cache, hload ▸ h.cache, .inl rfl, ?_⟩
    exact h.journal.imp id (fun hj => ⟨hj.1, rfl, hload.trans hj.2.2.2, hj.2.2.2⟩)
  | armed hc | refused hc | called _ hc | emptied hc => simp [hc] at hctl
  | recorded hc => simp [hc] at hctl
  | closed hc =>
    rcases hc with ⟨hc, hphase⟩ | hc
    · obtain rfl : _ = j := by simpa [hc] using hctl
      rw [hp] at hphase
      cases hphase
    · obtain ⟨rfl, hdone⟩ : _ = j ∧ kept s.staging = r ∧ kept s.cache = r := by simpa [hc] using hctl
      exact { h with control := .inl rfl, journal := .inr ⟨rfl, rfl, hdone⟩ }
  | found _ hi =>
    rcases hi with ⟨_, hc⟩ | ⟨hread, hphase⟩
    · simp [hc] at hctl
    · rcases h.journal with hj | hj
      · rw [hj] at hread
        rw [some.inj (eq_of_readIntentFile hread), hp] at hphase
        cases hphase
      · rw [hj.1] at hread
        rw [some.inj (eq_of_readIntentFile hread)] at hphase
        cases hphase
  | resumed hread hphase =>
    rcases h.journal with hj | hj
    · rw [hj] at hread
      rw [some.inj (eq_of_readIntentFile hread)]
      exact { h with control := .inr (.inl rfl), journal := .inl hj }
    · rw [hj.1] at hread
      rw [some.inj (eq_of_readIntentFile hread)] at hphase
      rcases hphase with hphase | hphase <;> cases hphase
  | retired d' clean' hc hphase =>
    have hsame : d' = d ∧ clean' = clean := by simpa [Replays] using he
    obtain ⟨rfl, rfl⟩ := hsame
    obtain rfl : _ = j := by simpa [hc] using hctl
    have hnew := hr s.staging h.staging
    refine ⟨h.cache, .inr hnew, .inr (.inr (.inl ⟨rfl, hnew⟩)), ?_⟩
    exact h.journal.imp id (fun hj => by simp [hc] at hj)
  | checkpointed hc =>
    obtain ⟨rfl, hnew⟩ : _ = j ∧ kept s.staging = r := by simpa [hc] using hctl
    refine ⟨h.staging, h.staging, .inr (.inr (.inr ⟨rfl, hnew, hnew⟩)), ?_⟩
    exact h.journal.imp id (fun hj => by simp [hc] at hj)
  | _ => simp [Replays] at he

lemma Underway.passes (hp : j.phase = .confirmed)
    (hr : ∀ q, kept q = q₀ ∨ kept q = r → kept (retireItems a.wc d clean q j.items) = r) (h : Underway a j q₀ r s)
    {es : List (Action a)} (hes : ∀ e ∈ es, Replays a d clean e) : Underway a j q₀ r (run (step a) s es) := by
  induction es generalizing s with
  | nil => exact h
  | cons e es ih =>
    simp only [forall_mem_cons] at hes
    exact ih (h.turn hp hes.1 hr (turn_step a s e)) hes.2

/-- A restart and one more pass finish the commit, wherever the passes before it were cut. -/
lemma Underway.replayed (hp : j.phase = .confirmed) (hread : readIntentFile a (written a j) = .ok (some j))
    (hr : ∀ q, kept q = q₀ ∨ kept q = r → kept (retireItems a.wc d clean q j.items) = r) (h : Underway a j q₀ r s) :
    (run (step a) s (.crash :: .recover :: finishOnce d clean)).journal = written a j.finish ∧
      kept (run (step a) s (.crash :: .recover :: finishOnce d clean)).staging = r := by
  have hload := kept_loadCache s.cache
  rcases h.journal with hj | ⟨hj, _, _, hc⟩
  · have hnew := hr (loadCache s.cache) (hload ▸ h.cache)
    simp [run, finishOnce, step, recover, retire, checkpoint, write,
      Machine.record, writeIntent, CommitIntent.finish, hj, hread, hp, hnew]
  · have hidle : (s.step a .crash).recover a = s.step a .crash := by
      simp only [step, recover, hj]
      split
      · rename_i hold
        simp [some.inj (eq_of_readIntentFile hold), CommitIntent.finish]
      · rfl
    have hrun : run (step a) s (.crash :: .recover :: finishOnce d clean) = s.step a .crash := by
      change ((((s.step a .crash).recover a).retire a d clean).checkpoint).write a = _
      rw [hidle]
      rfl
    rw [hrun]
    exact ⟨hj, hload.trans hc⟩

/-- However its passes are cut, a confirmed commit whose queue is saved ends with the queue of one uninterrupted
pass, and a pass touches entries of the journaled generation only. -/
theorem finishing_idempotent (a : Account) (s : Machine) (j : CommitIntent) (d : Disk) (clean : Path → Bool)
    (hm : Confirmed a j) (hctl : s.control = .finishing j) (hj : s.journal = written a j)
    (hsaved : kept s.cache = kept s.staging) :
    (∀ es : List (Action a), (∀ e ∈ es, Replays a d clean e) →
      ((run (Machine.step a) s es).journal = written a j.finish → kept (run (Machine.step a) s es).staging =
        kept (run (Machine.step a) s (finishOnce d clean)).staging) ∧
      (readIntentFile a (written a j) = .ok (some j) →
        (run (Machine.step a) s (es ++ .crash :: .recover :: finishOnce d clean)).journal = written a j.finish ∧
        kept (run (Machine.step a) s (es ++ .crash :: .recover :: finishOnce d clean)).staging =
          kept (run (Machine.step a) s (finishOnce d clean)).staging)) ∧
    (∀ q d' clean' k, (retireItems a.wc d' clean' q j.items).lookup k = q.lookup k ∨
      ∃ it ∈ j.items, it.rel = k ∧ ∃ cur, q.lookup k = some cur ∧ sameGeneration cur it) ∧
    (∀ q d' clean', ∀ it ∈ j.items, ∀ cur, q.lookup it.rel = some cur → sameGeneration cur it = false →
      (retireItems a.wc d' clean' q j.items).lookup it.rel = some cur) ∧
    (∀ q d' clean' k, k ∉ j.items.map IntentItem.rel →
      (retireItems a.wc d' clean' q j.items).lookup k = q.lookup k) := by
  have hn := hm.nodup
  have honce : (run (step a) s (finishOnce d clean)).staging = retireItems a.wc d clean s.staging j.items := by
    simp only [run, finishOnce, foldl_cons, foldl_nil, step, retire, hctl, hm.phase, if_true,
      Machine.checkpoint, Machine.write, Machine.record]
    split <;> rfl
  have hr : ∀ q, kept q = kept s.staging ∨ kept q = kept (retireItems a.wc d clean s.staging j.items) →
      kept (retireItems a.wc d clean q j.items) = kept (retireItems a.wc d clean s.staging j.items) := by
    rintro q (hq | hq)
    · exact kept_retireItems_congr hn hq
    · exact (kept_retireItems_congr hn hq).trans (kept_retireItems_twice hn)
  refine ⟨?_, ?_, ?_, fun q d' clean' k hk => lookup_retireItems_of_notMem hk⟩
  · intro es hes
    have hrun : Underway a j (kept s.staging) (kept (retireItems a.wc d clean s.staging j.items))
        (run (step a) s es) := by
      refine Underway.passes hm.phase hr ?_ hes
      exact ⟨.inl hsaved, .inl rfl, .inr (.inl hctl), .inl hj⟩
    rw [honce]
    refine ⟨?_, ?_⟩
    · intro hend
      rcases hrun.journal with hj' | hj'
      · have hphase := congrArg CommitIntent.phase (written_injective (hj'.symm.trans hend))
        rw [hm.phase] at hphase
        cases hphase
      · exact hj'.2.2.1
    · intro hread
      rw [run_append]
      exact hrun.replayed hm.phase hread hr
  · intro q d' clean' k
    by_cases hk : k ∈ j.items.map IntentItem.rel
    · obtain ⟨it, hit, rfl⟩ := mem_map.mp hk
      cases hl : q.lookup it.rel with
      | none => exact .inl (by rw [lookup_retireItems hn hit, hl, bind_none])
      | some cur =>
        by_cases hg : sameGeneration cur it
        · exact .inr ⟨it, hit, rfl, cur, rfl, hg⟩
        · rw [lookup_retireItems hn hit, hl, bind_some]
          exact .inl (settle_of_not_sameGeneration (by simpa using hg))
    · exact .inl (lookup_retireItems_of_notMem hk)
  · intro q d' clean' it hit cur hl hg
    rw [lookup_retireItems hn hit, hl, bind_some]
    exact settle_of_not_sameGeneration hg

def finishingOf (j : CommitIntent) : Machine :=
  { journal := written legacyAccount j, cache := oneQueued .added, staging := oneQueued .added, control := .finishing j }

theorem finishing_resumes_after_crash : ∃ j, Confirmed legacyAccount j ∧
    (run (Machine.step legacyAccount) (finishingOf j) (.retire calmDisk (fun _ => false) :: .checkpoint ::
      .crash :: .recover :: finishOnce calmDisk (fun _ => false))).journal = written legacyAccount j.finish ∧
    kept (run (Machine.step legacyAccount) (finishingOf j) (.retire calmDisk (fun _ => false) :: .checkpoint ::
        .crash :: .recover :: finishOnce calmDisk (fun _ => false))).staging =
      kept (run (Machine.step legacyAccount) (finishingOf j) (finishOnce calmDisk (fun _ => false))).staging := by
  have hmade : ∃ plan i, tryCommitLocked (legacyPass [⟨"a.txt", .unversioned⟩]) (oneQueued .added) =
      .ok (some plan) ∧ newIntent legacyAccount (numbered "t1" (by decide)) plan = .ok i ∧
      readIntentFile legacyAccount (written legacyAccount (i.confirm 1)) = .ok (some (i.confirm 1)) :=
    ⟨_, _, rfl, rfl, rfl⟩
  obtain ⟨plan, i, hp, hnew, hread⟩ := hmade
  have hconf : Confirmed legacyAccount (i.confirm 1) :=
    ⟨_, _, plan, _, i, 1, keyed_of_entries (by decide), hp, hnew, rfl⟩
  have hfin := finishing_idempotent legacyAccount (finishingOf (i.confirm 1)) (i.confirm 1) calmDisk (fun _ => false)
    hconf rfl rfl rfl
  exact ⟨_, hconf, (hfin.1 [.retire calmDisk (fun _ => false), .checkpoint] (by simp [Replays])).2 hread⟩

def unsavedEdit : List (Action legacyAccount) :=
  newFileThen [.call true, .land "t1", .replied, .write, .giveUp, .queue 2 ((oneQueued .added).insert "b.txt"
    { rel := "b.txt", abs := "/wc/b.txt", op := .added, firstSeen := 2, lastSeen := 2 }), .recover]

def finishedQueue (es : List (Action legacyAccount)) : Option Phase × List Path :=
  let s := Machine.after legacyAccount (unsavedEdit ++ es)
  (journalPhase s, s.staging.keys)

theorem unsaved_entry_lost :
    finishedQueue (finishOnce calmDisk (fun _ => true)) = (some .done, ["b.txt".toList]) ∧
    finishedQueue (.retire calmDisk (fun _ => true) :: .crash :: .recover :: finishOnce calmDisk (fun _ => true)) =
      (some .done, []) := by decide

end FileES.Commit
