import FileES.Commit.Intent

/-! Whether the journal that a publication writes can be read back by the same service. -/

namespace FileES.Commit

open Go Client Watcher Policy Lib.Fallible List Option

variable (P : Pass) (it : StageItem)

def Edited : Prop := it.op = .modified ∨ it.op = .renamed ∧ renameFate P it = .ok .recovered

def Arrives : Prop :=
  it.op = .added ∨ it.op = .renamed ∧ (renameFate P it = .ok .added ∨ renameFate P it = .ok .degraded) ∨
    Edited P it ∧ P.st it.rel = some .unversioned

def Publishes (p : Path) : Prop := onDisk P.late P.wc p = true ∧ isBuiltinIgnored p = false

def PublishesAdd : Prop :=
  Arrives P it ∧ (addFate P it.rel = .svnAdd ∨ addFate P it.rel = .alreadyAdded) ∧ Publishes P it.rel

def PublishesEdit : Prop :=
  (Edited P it ∧ P.st it.rel ≠ some .unversioned ∨ Arrives P it ∧ addFate P it.rel = .modified) ∧
    ¬ (P.st it.rel = some .normal ∧ P.clean it.rel = true) ∧ Publishes P it.rel

def PublishesRemoval : Prop :=
  it.op = .deleted ∧ (delFate P it.rel = .svnDelete ∨ delFate P it.rel = .alreadyStaged)

def PublishesMove : Prop :=
  it.op = .renamed ∧ renameFate P it = .ok .valid ∧ onDisk P.late P.wc it.rel = true

def TargetOf (p : Path) : Prop :=
  p = it.rel ∧ (PublishesAdd P it ∨ PublishesEdit P it ∨ PublishesRemoval P it ∨ PublishesMove P it) ∨
    p = it.oldRel ∧ PublishesMove P it ∨
    p ∈ parentPaths it.rel ∧ (PublishesAdd P it ∨ PublishesMove P it)

def Target (P : Pass) (batch : List StageItem) (p : Path) : Prop := ∃ it ∈ batch, TargetOf P it p

variable {P : Pass} {it : StageItem} {e : Entry} {es : List Entry} {plan : Plan} {a : Account} {i j : CommitIntent}

lemma settleRename_eq_ok : settleRename P it = .ok e ↔ it.op ≠ .renamed ∧ e = ⟨it, none⟩ ∨
      it.op = .renamed ∧ ∃ fate, renameFate P it = .ok fate ∧ e = ⟨rewriteRename it fate, some fate⟩ := by
  rw [settleRename]
  split
  · rename_i hr
    cases hf : renameFate P it with
    | error held => simp [hr, Except.map]
    | ok fate => simp [hr, Except.map, eq_comm]
  · rename_i hr
    simp [hr, eq_comm]

@[simp] lemma rewriteRename_rel (it : StageItem) (fate : RenameFate) : (rewriteRename it fate).rel = it.rel := by
  cases fate <;> rfl

lemma mem_rels {sel : Entry → Bool} {p : Path} : p ∈ rels es sel ↔ ∃ e ∈ es, sel e = true ∧ e.item.rel = p := by
  simp only [rels, List.mem_map, List.mem_filter, and_assoc]

section Paths

variable {batch : List StageItem} (hes : batch.mapM (settleRename P) = .ok es)
include hes

variable {p : Path}

lemma mem_rels_queued {op : OpType} (hop : op ≠ .renamed) :
    p ∈ rels es (queued op) ↔ ∃ it ∈ batch, it.rel = p ∧ it.op = op := by
  rw [mem_rels]
  constructor
  · rintro ⟨e, he, hq, rfl⟩
    obtain ⟨it, hit, hs⟩ := (mem_of_mapM_eq_ok hes).mp he
    simp only [queued, Bool.and_eq_true, decide_eq_true_eq] at hq
    rcases settleRename_eq_ok.mp hs with ⟨_, rfl⟩ | ⟨_, fate, _, rfl⟩
    · exact ⟨it, hit, rfl, hq.2⟩
    · cases hq.1
  · rintro ⟨it, hit, rfl, ho⟩
    refine ⟨⟨it, none⟩, ?_, by simp [queued, ho], rfl⟩
    exact (mem_of_mapM_eq_ok hes).mpr ⟨it, hit, settleRename_eq_ok.mpr (.inl ⟨ho ▸ hop, rfl⟩)⟩

lemma mem_rels_fate {fate : RenameFate} : p ∈ rels es (fun e => e.fate = some fate) ↔
      ∃ it ∈ batch, it.rel = p ∧ it.op = .renamed ∧ renameFate P it = .ok fate := by
  rw [mem_rels]
  constructor
  · rintro ⟨e, he, hf, rfl⟩
    obtain ⟨it, hit, hs⟩ := (mem_of_mapM_eq_ok hes).mp he
    rcases settleRename_eq_ok.mp hs with ⟨_, rfl⟩ | ⟨hr, fate', hfate, rfl⟩
    · simp at hf
    · simp only [decide_eq_true_eq, some.injEq] at hf
      exact ⟨it, hit, by simp, hr, hf ▸ hfate⟩
  · rintro ⟨it, hit, rfl, hr, hf⟩
    refine ⟨⟨rewriteRename it fate, some fate⟩, ?_, by simp, by simp⟩
    exact (mem_of_mapM_eq_ok hes).mpr ⟨it, hit, settleRename_eq_ok.mpr (.inr ⟨hr, fate, hf, rfl⟩)⟩

lemma mem_queuedModified : p ∈ queuedModified es ↔ ∃ it ∈ batch, it.rel = p ∧ Edited P it := by
  rw [queuedModified, mem_append, mem_rels_queued hes (by decide), mem_rels_fate hes]
  simp only [Edited, ← exists_or, ← and_or_left]

lemma mem_queuedAdds : p ∈ queuedAdds P es ↔ ∃ it ∈ batch, it.rel = p ∧ Arrives P it := by
  have hfates : p ∈ rels es (fun e => e.fate = some .added || e.fate = some .degraded) ↔
      p ∈ rels es (fun e => e.fate = some .added) ∨ p ∈ rels es (fun e => e.fate = some .degraded) := by
    simp only [mem_rels, Bool.or_eq_true, ← exists_or, ← and_or_left, or_and_right]
  rw [queuedAdds, mem_append, mem_append, mem_filter, mem_rels_queued hes (by decide), hfates,
    mem_rels_fate hes, mem_rels_fate hes, mem_queuedModified hes, decide_eq_true_eq]
  constructor
  · rintro ((⟨it, hit, rfl, h⟩ | ⟨it, hit, rfl, h⟩ | ⟨it, hit, rfl, h⟩) | ⟨⟨it, hit, rfl, h⟩, hu⟩)
    · exact ⟨it, hit, rfl, .inl h⟩
    · exact ⟨it, hit, rfl, .inr (.inl ⟨h.1, .inl h.2⟩)⟩
    · exact ⟨it, hit, rfl, .inr (.inl ⟨h.1, .inr h.2⟩)⟩
    · exact ⟨it, hit, rfl, .inr (.inr ⟨h, hu⟩)⟩
  · rintro ⟨it, hit, rfl, h | ⟨hr, h | h⟩ | ⟨h, hu⟩⟩
    · exact .inl (.inl ⟨it, hit, rfl, h⟩)
    · exact .inl (.inr (.inl ⟨it, hit, rfl, hr, h⟩))
    · exact .inl (.inr (.inr ⟨it, hit, rfl, hr, h⟩))
    · exact .inr ⟨⟨it, hit, rfl, h⟩, hu⟩

lemma mem_addsWith {fate : AddFate} :
    p ∈ addsWith P es fate ↔ ∃ it ∈ batch, it.rel = p ∧ Arrives P it ∧ addFate P p = fate := by
  rw [addsWith, mem_filter, mem_queuedAdds hes, decide_eq_true_eq]
  constructor
  · rintro ⟨⟨it, hit, hp, ha⟩, hf⟩
    exact ⟨it, hit, hp, ha, hf⟩
  · rintro ⟨it, hit, hp, ha, hf⟩
    exact ⟨⟨it, hit, hp, ha⟩, hf⟩

omit hes in
lemma mem_publishable {ps : List Path} : p ∈ publishable P ps ↔ p ∈ ps ∧ Publishes P p := by
  simp only [publishable, mem_filter, Publishes, and_assoc, Bool.not_eq_true']

lemma mem_publishable_addPaths :
    p ∈ publishable P (addPaths P es) ↔ ∃ it ∈ batch, it.rel = p ∧ PublishesAdd P it := by
  rw [mem_publishable, addPaths, mem_eraseDups, mem_append, mem_eraseDups, mem_addsWith hes, mem_addsWith hes]
  constructor
  · rintro ⟨⟨it, hit, rfl, ha, hf⟩ | ⟨it, hit, rfl, ha, hf⟩, hp⟩
    · exact ⟨it, hit, rfl, ha, .inl hf, hp⟩
    · exact ⟨it, hit, rfl, ha, .inr hf, hp⟩
  · rintro ⟨it, hit, rfl, ha, hf, hp⟩
    exact ⟨hf.imp (fun hf => ⟨it, hit, rfl, ha, hf⟩) (fun hf => ⟨it, hit, rfl, ha, hf⟩), hp⟩

lemma mem_publishable_modifiedPaths :
    p ∈ publishable P (modifiedPaths P es) ↔ ∃ it ∈ batch, it.rel = p ∧ PublishesEdit P it := by
  rw [mem_publishable, modifiedPaths, mem_filter, mem_append, mem_filter, mem_queuedModified hes, mem_addsWith hes]
  simp only [ne_eq, decide_not, Bool.not_eq_true', decide_eq_false_iff_not, Bool.and_eq_false_iff]
  have hclean : (¬ P.st p = some .normal ∨ P.clean p = false) ↔ ¬ (P.st p = some .normal ∧ P.clean p = true) := by
    rw [not_and_or, Bool.not_eq_true]
  rw [hclean]
  constructor
  · rintro ⟨⟨⟨⟨it, hit, rfl, he⟩, hu⟩ | ⟨it, hit, rfl, ha, hf⟩, hc⟩, hp⟩
    · exact ⟨it, hit, rfl, .inl ⟨he, hu⟩, hc, hp⟩
    · exact ⟨it, hit, rfl, .inr ⟨ha, hf⟩, hc, hp⟩
  · rintro ⟨it, hit, rfl, ⟨he, hu⟩ | ⟨ha, hf⟩, hc, hp⟩
    · exact ⟨⟨.inl ⟨⟨it, hit, rfl, he⟩, hu⟩, hc⟩, hp⟩
    · exact ⟨⟨.inr ⟨it, hit, rfl, ha, hf⟩, hc⟩, hp⟩

lemma mem_delPaths : p ∈ delPaths P es ↔ ∃ it ∈ batch, it.rel = p ∧ PublishesRemoval P it := by
  simp only [delPaths, mem_append, mem_filter, mem_rels_queued hes (show OpType.deleted ≠ .renamed by decide),
    decide_eq_true_eq]
  constructor
  · rintro (⟨⟨it, hit, rfl, ho⟩, hf⟩ | ⟨⟨it, hit, rfl, ho⟩, hf⟩)
    · exact ⟨it, hit, rfl, ho, .inl hf⟩
    · exact ⟨it, hit, rfl, ho, .inr hf⟩
  · rintro ⟨it, hit, rfl, ho, hf⟩
    exact hf.imp (fun hf => ⟨⟨it, hit, rfl, ho⟩, hf⟩) (fun hf => ⟨⟨it, hit, rfl, ho⟩, hf⟩)

lemma mem_publishableRenames : it ∈ publishableRenames P es ↔ it ∈ batch ∧ PublishesMove P it := by
  simp only [publishableRenames, List.mem_filter, List.mem_map, decide_eq_true_eq]
  constructor
  · rintro ⟨⟨e, ⟨he, hf⟩, rfl⟩, hd⟩
    obtain ⟨it, hit, hs⟩ := (mem_of_mapM_eq_ok hes).mp he
    rcases settleRename_eq_ok.mp hs with ⟨_, rfl⟩ | ⟨hr, fate, hfate, rfl⟩
    · cases hf
    · cases hf
      exact ⟨hit, hr, hfate, hd⟩
  · rintro ⟨hit, hr, hf, hd⟩
    refine ⟨⟨⟨it, some .valid⟩, ⟨?_, rfl⟩, rfl⟩, hd⟩
    exact (mem_of_mapM_eq_ok hes).mpr ⟨it, hit, settleRename_eq_ok.mpr (.inr ⟨hr, .valid, hf, rfl⟩)⟩

lemma mem_commitPaths : p ∈ commitPaths P es ↔ Target P batch p := by
  simp only [commitPaths, mem_eraseDups, mem_append, mem_flatMap, mem_publishable_addPaths hes,
    mem_publishable_modifiedPaths hes, mem_delPaths hes, mem_publishableRenames hes, mem_cons,
    not_mem_nil, or_false]
  constructor
  · rintro (((((⟨it, hit, rfl, h⟩ | ⟨it, hit, rfl, h⟩) | ⟨it, hit, rfl, h⟩) | ⟨it, ⟨hit, h⟩, hp⟩) |
      ⟨q, ⟨it, hit, rfl, h⟩, hp⟩) | ⟨it, ⟨hit, h⟩, hp⟩)
    · exact ⟨it, hit, .inl ⟨rfl, .inl h⟩⟩
    · exact ⟨it, hit, .inl ⟨rfl, .inr (.inl h)⟩⟩
    · exact ⟨it, hit, .inl ⟨rfl, .inr (.inr (.inl h))⟩⟩
    · rcases hp with rfl | rfl
      · exact ⟨it, hit, .inr (.inl ⟨rfl, h⟩)⟩
      · exact ⟨it, hit, .inl ⟨rfl, .inr (.inr (.inr h))⟩⟩
    · exact ⟨it, hit, .inr (.inr ⟨hp, .inl h⟩)⟩
    · exact ⟨it, hit, .inr (.inr ⟨hp, .inr h⟩)⟩
  · rintro ⟨it, hit, ⟨rfl, h | h | h | h⟩ | ⟨rfl, h⟩ | ⟨hp, h | h⟩⟩
    · exact .inl (.inl (.inl (.inl (.inl ⟨it, hit, rfl, h⟩))))
    · exact .inl (.inl (.inl (.inl (.inr ⟨it, hit, rfl, h⟩))))
    · exact .inl (.inl (.inl (.inr ⟨it, hit, rfl, h⟩)))
    · exact .inl (.inl (.inr ⟨it, ⟨hit, h⟩, .inr rfl⟩))
    · exact .inl (.inl (.inr ⟨it, ⟨hit, h⟩, .inl rfl⟩))
    · exact .inl (.inr ⟨it.rel, ⟨it, hit, rfl, h⟩, hp⟩)
    · exact .inr ⟨it, ⟨hit, h⟩, hp⟩

end Paths

def KeepsSource (P : Pass) (it : StageItem) : Prop :=
  it.oldRel ≠ [] ∧ (it.op = .renamed → renameFate P it ≠ .ok .added ∧ renameFate P it ≠ .ok .recovered)

/-- A source that a published entry still names travels with it, as a pair or below a path of the commit. -/
def SourcesCovered (P : Pass) (batch : List StageItem) : Prop :=
  ∀ it ∈ batch, KeepsSource P it → Target P batch it.rel →
    PublishesMove P it ∨ safeIntentPath it.oldRel = true ∧ ∃ q, Target P batch q ∧ treeContains q it.oldRel = true

@[simp] lemma rewriteOp_rel (P : Pass) (es : List Entry) (it : StageItem) : (rewriteOp P es it).rel = it.rel := by
  simp only [rewriteOp]
  split <;> split <;> rfl

@[simp] lemma rewriteOp_oldRel (P : Pass) (es : List Entry) (it : StageItem) :
    (rewriteOp P es it).oldRel = it.oldRel := by
  simp only [rewriteOp]
  split <;> split <;> rfl

lemma rewriteOp_op (P : Pass) (es : List Entry) (h : it.op ≠ .renameUncertain) :
    (rewriteOp P es it).op ≠ .renameUncertain := by
  simp only [rewriteOp]
  split <;> split <;> simp [h]

lemma rewriteRename_op (fate : RenameFate) (h : it.op ≠ .renameUncertain) :
    (rewriteRename it fate).op ≠ .renameUncertain := by
  cases fate with
  | added | recovered => simp [rewriteRename]
  | valid | degraded => exact h

lemma settleRename_item (h : settleRename P it = .ok e) (hu : it.op ≠ .renameUncertain) :
    e.item.rel = it.rel ∧ e.item.op ≠ .renameUncertain ∧ (KeepsSource P it → e.item.oldRel = it.oldRel) ∧
      (e.item.oldRel ≠ [] → KeepsSource P it) := by
  rcases settleRename_eq_ok.mp h with ⟨hr, rfl⟩ | ⟨hr, fate, hf, rfl⟩
  · exact ⟨rfl, hu, fun _ => rfl, fun ho => ⟨ho, fun h => (hr h).elim⟩⟩
  · refine ⟨by simp, rewriteRename_op fate hu, ?_, ?_⟩
    · intro hk
      cases fate with
      | added => exact ((hk.2 hr).1 hf).elim
      | recovered => exact ((hk.2 hr).2 hf).elim
      | valid | degraded => rfl
    · intro ho
      cases fate with
      | added | recovered => exact (ho rfl).elim
      | valid | degraded => exact ⟨ho, fun _ => by simp [hf]⟩

lemma intentItems_ok_iff {batch : List StageItem} (hes : batch.mapM (settleRename P) = .ok es)
    (hu : ∀ it ∈ batch, it.op ≠ .renameUncertain) (hsafe : ∀ p ∈ commitPaths P es, safeIntentPath p = true) :
    (intentItems ⟨es.map (fun e => rewriteOp P es e.item), commitPaths P es⟩).all
        (intentItemOk (commitPaths P es)) = true ↔ SourcesCovered P batch := by
  have hall : (intentItems ⟨es.map (fun e => rewriteOp P es e.item), commitPaths P es⟩).all
      (intentItemOk (commitPaths P es)) = true ↔
      ∀ e ∈ es, e.item.rel ∈ commitPaths P es → e.item.oldRel ≠ [] →
        intentPathCovered (commitPaths P es) e.item.oldRel = true := by
    simp only [intentItems, List.all_eq_true, List.mem_map, List.mem_filter, List.contains_iff_mem]
    constructor
    · intro h e he hp ho
      have hok := h _ ⟨rewriteOp P es e.item, ⟨⟨e, he, rfl⟩, by simpa using hp⟩, rfl⟩
      simp only [intentItemOk, intentItem, rewriteOp_oldRel, Bool.and_eq_true, Bool.or_eq_true,
        decide_eq_true_eq] at hok
      exact hok.1.2.resolve_left ho
    · rintro h _ ⟨_, ⟨⟨e, he, rfl⟩, hp⟩, rfl⟩
      rw [rewriteOp_rel] at hp
      obtain ⟨it, hit, hs⟩ := (mem_of_mapM_eq_ok hes).mp he
      have hop := rewriteOp_op P es (settleRename_item hs (hu it hit)).2.1
      have hrel := intentPathCovered_of_mem (hsafe _ hp) hp
      simp only [intentItemOk, intentItem, rewriteOp_rel, rewriteOp_oldRel, hrel, hop, Bool.true_and,
        Bool.and_eq_true, Bool.or_eq_true, decide_eq_true_eq, ne_eq, not_false_eq_true, and_true]
      exact or_iff_not_imp_left.mpr (h e he hp)
  rw [hall]
  constructor
  · intro h it hit hk ht
    obtain ⟨e, he, hs⟩ := exists_of_mapM_eq_ok hes hit
    obtain ⟨hrel, _, hold, _⟩ := settleRename_item hs (hu it hit)
    have hcov := h e he (hrel ▸ (mem_commitPaths hes).mpr ht) (hold hk ▸ hk.1)
    rw [hold hk] at hcov
    obtain ⟨hs, q, hq, hc⟩ := intentPathCovered_iff.mp hcov
    exact .inr ⟨hs, q, (mem_commitPaths hes).mp hq, hc⟩
  · intro h e he hp ho
    obtain ⟨it, hit, hs⟩ := (mem_of_mapM_eq_ok hes).mp he
    obtain ⟨hrel, _, hold, hkeep⟩ := settleRename_item hs (hu it hit)
    rw [hold (hkeep ho)]
    rcases h it hit (hkeep ho) ((mem_commitPaths hes).mp (hrel ▸ hp)) with hmove | ⟨hs, q, hq, hc⟩
    · have hm : it.oldRel ∈ commitPaths P es := (mem_commitPaths hes).mpr ⟨it, hit, .inr (.inl ⟨rfl, hmove⟩)⟩
      exact intentPathCovered_of_mem (hsafe _ hm) hm
    · exact intentPathCovered_iff.mpr ⟨hs, q, (mem_commitPaths hes).mpr hq, hc⟩

lemma tryCommitLocked_eq_plan {staging : Staging} (h : tryCommitLocked P staging = .ok (some plan)) :
    (∀ it ∈ items staging, it.op ≠ .renameUncertain) ∧ ∃ es, (batch P staging).mapM (settleRename P) = .ok es ∧
        plan = ⟨es.map (fun e => rewriteOp P es e.item), commitPaths P es⟩ := by
  rw [tryCommitLocked] at h
  obtain ⟨_, h⟩ := guard_ok.mp h
  obtain ⟨hu, h⟩ := guard_ok.mp h
  refine ⟨by simpa using hu, ?_⟩
  split at h
  · cases h
  · split at h
    · cases h
    · obtain ⟨_, h⟩ := guard_ok.mp h
      obtain ⟨plan', hplan, h⟩ := bind_ok.mp h
      obtain ⟨es, hes, hp⟩ := bind_ok.mp hplan
      cases hp
      split at h
      · cases h
      · obtain ⟨_, h⟩ := guard_ok.mp h
        cases h
        exact ⟨es, hes, rfl⟩

structure Sound (a : Account) (i : CommitIntent) : Prop where
  schema : i.schema = transactionSchema
  id : a.uuidParse i.id = true
  bound : i.repoURL = a.repoURL ∧ i.repoID = a.repoID ∧ i.wc = clean a.wc
  first : 1 ≤ i.firstRevision
  count : 1 ≤ i.paths.length ∧ i.paths.length ≤ 65536
  safe : ∀ p ∈ i.paths, safeIntentPath p = true
  nodup : i.paths.Nodup
  observed : i.observation.all (observationOk i.paths) = true

lemma observationOk_capture {scanner : Option Scanner} {paths : List Path} {o : Option PublicationSnapshot}
    (hn : paths.Nodup) (h : capture scanner paths = .ok o) : o.all (observationOk paths) = true := by
  cases scanner with
  | none =>
    cases h
    rfl
  | some s =>
    obtain ⟨snapshot, hs, rfl⟩ := map_eq_ok.mp h
    rw [capturePublication] at hs
    split at hs
    · cases hs
      have hid : (paths.map (observe s.cur)).map PublicationEntry.path = paths := by
        rw [List.map_map]
        exact map_id _
      simp only [all_some, observationOk, hid, hn, length_map, decide_true, Bool.true_and, Bool.and_true,
        List.all_map, List.all_eq_true, Function.comp_def, observe, List.contains_iff_mem, imp_self, implies_true]
    · cases hs

lemma newIntent_eq_ok {t : Attempt a} (h : newIntent a t plan = .ok i) :
    (i.id = t.newID ∧ ∃ old, readIntentFile a t.stored = .ok old ∧ ¬ old.any (fun i => i.phase ≠ .done) = true) ∧
    Sound a i ∧ i.phase = .attempting ∧ i.revision = 0 ∧ i.paths = plan.commitPaths ∧ i.items = intentItems plan := by
  obtain ⟨old, hold, h⟩ := bind_ok.mp h
  obtain ⟨hdone, h⟩ := guard_ok.mp h
  obtain ⟨_, h⟩ := guard_ok.mp h
  split at h
  · cases h
  · rename_i head _
    obtain ⟨hhead, h⟩ := guard_ok.mp h
    obtain ⟨hcount, h⟩ := guard_ok.mp h
    obtain ⟨htargets, h⟩ := guard_ok.mp h
    obtain ⟨o, ho, h⟩ := bind_ok.mp h
    obtain ⟨_, h⟩ := guard_ok.mp h
    cases h
    simp only [targetsOk, Bool.not_eq_true', Bool.not_eq_false, Bool.and_eq_true, List.all_eq_true,
      decide_eq_true_eq] at htargets
    have hcap := observationOk_capture htargets.1.2 (mapError_eq_ok.mp ho)
    exact ⟨⟨rfl, old, mapError_eq_ok.mp hold, hdone⟩, ⟨rfl, t.newID_parses, ⟨rfl, rfl, rfl⟩, by simp only; omega,
      by simp only; omega, htargets.1.1, htargets.1.2, hcap⟩, rfl, rfl, rfl, rfl⟩

lemma handed_form {finished : Bool} {reply : Reply} (hp : i.phase = .attempting) (hr : i.revision = 0)
    (hf : 1 ≤ i.firstRevision) (hj : j ∈ i :: handedAfter a i finished reply) :
    ∃ phase rev, j = { i with phase := phase, revision := rev } ∧ phase ≠ .other ∧ 0 ≤ rev ∧
      (phase = .confirmed → i.firstRevision ≤ rev) := by
  have hdone : ∃ phase rev, i.finish = { i with phase := phase, revision := rev } ∧ phase ≠ .other ∧ 0 ≤ rev ∧
      (phase = .confirmed → i.firstRevision ≤ rev) :=
    ⟨.done, i.revision, rfl, by decide, hr.ge, by simp⟩
  have hconfirmed : ∀ rev, i.firstRevision ≤ rev → ∀ k ∈ [i.confirm rev, (i.confirm rev).finish],
      ∃ phase rev, k = { i with phase := phase, revision := rev } ∧ phase ≠ .other ∧ 0 ≤ rev ∧
        (phase = .confirmed → i.firstRevision ≤ rev) := by
    intro rev hrev k hk
    simp only [mem_cons, not_mem_nil, or_false] at hk
    rcases hk with rfl | rfl
    · exact ⟨.confirmed, rev, rfl, by decide, by omega, fun _ => hrev⟩
    · exact ⟨.done, rev, rfl, by decide, by omega, by simp⟩
  rcases mem_cons.mp hj with rfl | hj
  · exact ⟨.attempting, j.revision, by rw [← hp], by decide, hr.ge, by simp⟩
  · cases reply with
    | notSent idle =>
      cases idle with
      | false => cases hj
      | true =>
        rw [mem_singleton.mp hj]
        exact hdone
    | failed found =>
      cases found with
      | none => cases hj
      | some rev =>
        rw [handedAfter] at hj
        split at hj
        · cases hj
        · rename_i hrev
          simp only [Bool.or_eq_true, decide_eq_true_eq, not_or, not_lt] at hrev
          split at hj
          · exact hconfirmed rev hrev.2 j hj
          · exact hconfirmed rev hrev.2 j (by simp [mem_singleton.mp hj])
    | replied rev =>
      rw [handedAfter] at hj
      split at hj
      · rcases mem_cons.mp hj with rfl | hj
        · exact ⟨.empty, i.revision, rfl, by decide, hr.ge, by simp⟩
        · split at hj
          · rw [mem_singleton.mp hj]
            exact hdone
          · cases hj
      · split at hj
        · cases hj
        · rename_i hrev
          split at hj
          · exact hconfirmed rev (not_lt.mp hrev) j hj
          · exact hconfirmed rev (not_lt.mp hrev) j (by simp [mem_singleton.mp hj])

lemma readIntentFile_written (hs : Sound a i) {phase : Phase} {rev : ℤ} (hp : phase ≠ .other) (hr : 0 ≤ rev)
    (hc : phase = .confirmed → i.firstRevision ≤ rev) (hj : j = { i with phase := phase, revision := rev }) :
    readIntentFile a (written a j) = .ok (some j) ↔
      a.encodedSize j ≤ maxIntentBytes ∧ i.items.all (intentItemOk i.paths) = true := by
  have hid : ¬ (j.schema ≠ transactionSchema ∨ a.uuidParse j.id = false ∨ j.firstRevision < 1 ∨
      j.paths.length = 0 ∨ j.paths.length > 65536) := by
    have := hs.first
    have := hs.count
    simp only [hj, hs.schema, hs.id, ne_eq, not_true_eq_false, false_or, not_or, Bool.true_eq_false]
    omega
  have hbound : ¬ (j.phase ≠ .done ∧ (j.repoURL ≠ a.repoURL ∨ j.repoID ≠ a.repoID ∨ j.wc ≠ clean a.wc)) := by
    simp [hj, hs.bound]
  have hrev : ¬ (j.revision < 0 ∨ (j.phase = .confirmed ∧ j.revision < j.firstRevision)) := by
    simp only [hj, not_or, not_and, not_lt]
    exact ⟨hr, hc⟩
  have htargets : (!(j.paths.all safeIntentPath && decide j.paths.Nodup)) = false := by
    simpa [hj, hs.nodup] using hs.safe
  have hobs : j.observation.all (observationOk j.paths) = true := by rw [hj]; exact hs.observed
  have hcheck : checkIntent a j = .ok () ↔ i.items.all (intentItemOk i.paths) = true := by
    rw [checkIntent, if_neg hid, if_neg (by rw [hj]; exact hp), if_neg hbound, if_neg hrev, htargets,
      if_neg Bool.false_ne_true, hobs]
    have hitems : j.items.all (intentItemOk j.paths) = i.items.all (intentItemOk i.paths) := by rw [hj]
    rw [hitems]
    cases i.items.all (intentItemOk i.paths) <;> simp
  rw [written, readIntentFile]
  split
  · rename_i hsize
    simp only [false_iff, reduceCtorEq]
    omega
  · rename_i hsize
    have hread : (checkIntent a j).map (fun _ => some j) = .ok (some j) ↔ checkIntent a j = .ok () := by
      rw [map_eq_ok]
      exact ⟨fun ⟨_, h, _⟩ => h, fun h => ⟨(), h, rfl⟩⟩
    rw [hread, hcheck]
    exact (and_iff_right (not_lt.mp hsize)).symm

/-- Journal records read back exactly when they fit the size limit and the named sources travel with them. -/
theorem journal_readable_iff (a : Account) (t : Attempt a) (P : Pass) (staging : Staging) (plan : Plan)
    (handed : List CommitIntent) (hplan : tryCommitLocked P staging = .ok (some plan))
    (hdurable : commitDurable a t plan = .ok handed) :
    (∀ i ∈ handed, readIntentFile a (written a i) = .ok (some i)) ↔
      (∀ i ∈ handed, a.encodedSize i ≤ maxIntentBytes) ∧ SourcesCovered P (batch P staging) := by
  obtain ⟨hu, es, hes, hpl⟩ := tryCommitLocked_eq_plan hplan
  obtain ⟨i, hi, hh⟩ := bind_ok.mp hdurable
  cases hh
  obtain ⟨_, hs, hphase, hrev, hpaths, hitems⟩ := newIntent_eq_ok hi
  have hcovered : i.items.all (intentItemOk i.paths) = true ↔ SourcesCovered P (batch P staging) := by
    have hsafe := hs.safe
    rw [hpaths, hpl] at hsafe
    rw [hitems, hpaths, hpl]
    exact intentItems_ok_iff hes (fun it hit => hu it (mem_batch hit).1) hsafe
  have hone : ∀ j ∈ i :: handedAfter a i t.finished t.reply, readIntentFile a (written a j) = .ok (some j) ↔
      a.encodedSize j ≤ maxIntentBytes ∧ SourcesCovered P (batch P staging) := by
    intro j hj
    obtain ⟨phase, rev, hform, hp, hr, hc⟩ := handed_form hphase hrev hs.first hj
    rw [← hcovered]
    exact readIntentFile_written hs hp hr hc hform
  constructor
  · intro h
    refine ⟨fun j hj => ((hone j hj).mp (h j hj)).1, ?_⟩
    exact ((hone i (by simp)).mp (h i (by simp))).2
  · intro h j hj
    exact (hone j hj).mpr ⟨h.1 j hj, h.2⟩

def legacyPass (rows : List StatusEntry) : Pass where
  wc := "/wc"
  native := false
  force := true
  disk := { lstat := fun _ => .ok {}, stat := fun _ => .ok {}, hash := fun _ => none }
  late := { lstat := fun _ => .ok {}, stat := fun _ => .ok {}, hash := fun _ => none }
  rows := rows

def legacyAccount : Account where
  repoURL := "svn://host/repo"
  repoID := "repo"
  wc := "/wc"
  encodedSize := fun _ => 4096
  uuidParse := fun id => id ≠ ""

def legacyAttempt : Attempt legacyAccount where
  head := some 7
  newID := "0b7e4a5e-3f0c-4b4e-9a39-4f0f3a2d8c11"
  newID_parses := by decide
  reply := .replied 8

def renamedQueue : Staging :=
  AList.singleton "new.txt"
    { rel := "new.txt", abs := "/wc/new.txt", oldRel := "gone.txt", op := .renamed }

theorem journal_readable_for_move :
    ∃ plan handed,
      tryCommitLocked (legacyPass [⟨"gone.txt", .missing⟩, ⟨"new.txt", .unversioned⟩]) renamedQueue =
        .ok (some plan) ∧
      commitDurable legacyAccount legacyAttempt plan = .ok handed ∧ handed.length = 3 ∧
      ∀ i ∈ handed, readIntentFile legacyAccount (written legacyAccount i) = .ok (some i) := by
  refine ⟨_, _, rfl, rfl, rfl, (journal_readable_iff legacyAccount legacyAttempt
    (legacyPass [⟨"gone.txt", .missing⟩, ⟨"new.txt", .unversioned⟩]) renamedQueue _ _ rfl rfl).mpr ?_⟩
  refine ⟨fun i _ => by simp [legacyAccount, maxIntentBytes], ?_⟩
  intro it hit _ _
  have hone : ∀ x ∈ items renamedQueue, x =
      { rel := "new.txt", abs := "/wc/new.txt", oldRel := "gone.txt", op := .renamed } := by
    decide
  obtain rfl := hone it (mem_batch hit).1
  exact .inl ⟨rfl, rfl, rfl⟩

theorem degraded_rename_unreadable :
    ∃ plan handed,
      tryCommitLocked (legacyPass [⟨"new.txt", .unversioned⟩]) renamedQueue = .ok (some plan) ∧
      commitDurable legacyAccount legacyAttempt plan = .ok handed ∧
      ∃ i ∈ handed, readIntentFile legacyAccount (written legacyAccount i) = .error .item :=
  ⟨_, _, rfl, rfl, _, mem_cons_self, rfl⟩

end FileES.Commit
