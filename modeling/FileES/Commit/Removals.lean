import FileES.Commit.RenameChains

/-! The removals that the commit queue still has to publish, over runs of file-system operations. -/

namespace FileES.Commit

open Go Watcher Lib.Maps Lib.Runs StageItem Option AList

variable (staging : Staging)

def Moved (p : Path) : Prop :=
  ∃ k it, staging.lookup k = some it ∧ it.oldRel = p

def Covers (p : Path) : Prop :=
  (∃ it, staging.lookup p = some it ∧ it.op = .deleted) ∨ Moved staging p

structure StageItem.Plain (it : StageItem) : Prop where
  source : it.isMove = false → it.oldRel = []
  unscheduled : it.moveScheduled = false
  file : it.isDir = false
  unresolved : it.resolutionID = ""

def PlainQueue : Prop :=
  ∀ k it, staging.lookup k = some it → it.rel = k ∧ it.Plain

structure FileEvent (ev : Event) : Prop where
  wellFormed : ev.WellFormed
  file : ev.type = .file

variable {staging staging' : Staging} {k wc p : Path} {it : StageItem} {native : Bool} {ev ev' : Event}
  {s : Service} {a : Arrival} {pending before : Path → Prop}

lemma PlainQueue.insert (h : PlainQueue staging) (hk : it.rel = k) (hp : it.Plain) :
    PlainQueue (staging.insert k it) := by
  intro j other hl
  rcases lookup_insert_eq_some.mp hl with ⟨rfl, rfl⟩ | ⟨_, hl⟩
  · exact ⟨hk, hp⟩
  · exact h j other hl

lemma PlainQueue.erase (h : PlainQueue staging) : PlainQueue (staging.erase k) := by
  intro j other hl
  exact h j other (lookup_erase_eq_some.mp hl).2

lemma mergeOp_plain (h : it.Plain) (ev : Event) : (mergeOp it ev).Plain := by
  rcases ev with ⟨_, _, _, _, _, _, op, _⟩
  obtain ⟨hs, hm, hd, hr⟩ := h
  cases op with
  | modified =>
    simp only [mergeOp]
    split
    · rename_i ho
      refine ⟨fun _ => hs ?_, hm, hd, hr⟩
      simp only [ne_eq, Bool.and_eq_true, decide_eq_true_eq] at ho
      simp [isMove, ho]
    · exact ⟨hs, hm, hd, hr⟩
  | added | deleted => exact ⟨fun _ => rfl, hm, hd, by first | exact hr | rfl⟩
  | renamed => exact ⟨fun h => by simp [mergeOp, isMove] at h, hm, hd, rfl⟩
  | renameUncertain => exact ⟨fun h => by simp [mergeOp, isMove] at h, hm, hd, rfl⟩

lemma Outcome.plainQueue {now : Time} (h : Outcome native wc now staging ev staging') (hq : PlainQueue staging)
    (ht : ev.type = .file) (hs : (newItem now ev).isMove = false → ev.oldRel = []) : PlainQueue staging' := by
  cases h with
  | fresh => exact hq.insert rfl ⟨hs, rfl, by simp [newItem, ht], rfl⟩
  | folded _ _ _ hf =>
    obtain ⟨_, _, _, rfl⟩ := fold_eq_some hf
    rw [stageRemoval]
    split
    · exact hq.erase
    · exact hq.erase.insert rfl ⟨fun _ => rfl, rfl, rfl, rfl⟩
  | @held it hl =>
    obtain ⟨hk, hp⟩ := hq _ _ hl
    exact hq.insert hk ⟨fun h => by simp [holdUncertain, isMove] at h, hp.unscheduled, hp.file, hp.unresolved⟩
  | @updated it hl =>
    obtain ⟨hk, hp⟩ := hq _ _ hl
    have hm := mergeOp_plain hp ev
    exact hq.insert ((mergeOp_rel it ev).trans hk) ⟨hm.source, hm.unscheduled, by simp [refresh, ht], hm.unresolved⟩

lemma Replayed.eq_of_plain (h : Replayed staging ev ev') (hq : PlainQueue staging) : ev' = ev := by
  rcases h with rfl | ⟨_, _, it, hl, _, hr⟩
  · rfl
  · exact (hr (hq _ _ hl).2.unresolved).elim

lemma Collapse.plainQueue (h : Collapse native staging ev staging' ev') (hq : PlainQueue staging) :
    PlainQueue staging' := by
  cases h with
  | other | first | uncertain => exact hq
  | hop | take => exact hq.erase

lemma Collapse.file (h : Collapse native staging ev staging' ev') (hf : FileEvent ev) (now : Time) :
    ev'.type = .file ∧ ((newItem now ev').isMove = false → ev'.oldRel = []) := by
  cases h with
  | other => exact ⟨hf.file, fun hm => (hf.wellFormed (by intro ho; simp [newItem, isMove, ho] at hm)).1⟩
  | first _ ho | hop _ ho | take _ ho => exact ⟨hf.file, fun hm => by simp [newItem, isMove, ho] at hm⟩
  | uncertain => exact ⟨hf.file, fun hm => by simp [newItem, isMove] at hm⟩

lemma merge_plainQueue (s : Service) (a : Arrival) (hq : PlainQueue s.staging) (hf : FileEvent a.ev) :
    PlainQueue (merge s a).staging := by
  obtain ⟨staging, ev₁, ev₂, hc, hr, ho⟩ := addEventLocked_outcome a.disk a.now s a.ev
  have hq₁ := hc.plainQueue hq
  obtain rfl := hr.eq_of_plain hq₁
  obtain ⟨ht, hs⟩ := hc.file hf a.now
  exact ho.plainQueue hq₁ ht hs

lemma moved_insert : Moved (staging.insert k it) p ↔ it.oldRel = p ∨ Moved (staging.erase k) p := by
  constructor
  · rintro ⟨j, other, hl, ho⟩
    rcases lookup_insert_eq_some.mp hl with ⟨_, rfl⟩ | hl
    · exact .inl ho
    · exact .inr ⟨j, other, lookup_erase_eq_some.mpr hl, ho⟩
  · rintro (ho | ⟨j, other, hl, ho⟩)
    · exact ⟨k, it, by simp, ho⟩
    · exact ⟨j, other, lookup_insert_eq_some.mpr (.inr (lookup_erase_eq_some.mp hl)), ho⟩

lemma covers_insert : Covers (staging.insert k it) p ↔
      (p = k ∧ it.op = .deleted) ∨ it.oldRel = p ∨ Covers (staging.erase k) p := by
  simp only [Covers, moved_insert, lookup_insert_eq_some, lookup_erase_eq_some]
  constructor
  · rintro (⟨other, ⟨hk, rfl⟩ | hl, ho⟩ | h | h)
    · exact .inl ⟨hk, ho⟩
    · exact .inr (.inr (.inl ⟨other, hl, ho⟩))
    · exact .inr (.inl h)
    · exact .inr (.inr (.inr h))
  · rintro (⟨hk, ho⟩ | h | ⟨other, hl, ho⟩ | h)
    · exact .inl ⟨it, .inl ⟨hk, rfl⟩, ho⟩
    · exact .inr (.inl h)
    · exact .inl ⟨other, .inr hl, ho⟩
    · exact .inr (.inr h)

lemma Covers.split (h : Covers staging p) (k : Path) : Covers (staging.erase k) p ∨
      ∃ it, staging.lookup k = some it ∧ ((p = k ∧ it.op = .deleted) ∨ it.oldRel = p) := by
  rcases h with ⟨it, hl, ho⟩ | ⟨j, it, hl, ho⟩
  · by_cases hk : p = k
    · exact .inr ⟨it, hk ▸ hl, .inl ⟨hk, ho⟩⟩
    · exact .inl (.inl ⟨it, lookup_erase_eq_some.mpr ⟨hk, hl⟩, ho⟩)
  · by_cases hk : j = k
    · exact .inr ⟨it, hk ▸ hl, .inr ho⟩
    · exact .inl (.inr ⟨j, it, lookup_erase_eq_some.mpr ⟨hk, hl⟩, ho⟩)

lemma Covers.split_at (h : Covers staging p) (hl : staging.lookup k = some it) :
    Covers (staging.erase k) p ∨ (p = k ∧ it.op = .deleted) ∨ it.oldRel = p := by
  rcases h.split k with h | ⟨other, hl', h⟩
  · exact .inl h
  · obtain rfl := mem_unique hl hl'
    exact .inr h

lemma Moved.of_erase (h : Moved (staging.erase k) p) : Moved staging p := by
  obtain ⟨j, it, hl, ho⟩ := h
  exact ⟨j, it, (lookup_erase_eq_some.mp hl).2, ho⟩

lemma Covers.insert_fresh (h : Covers staging p) (hl : staging.lookup k = none) : Covers (staging.insert k it) p := by
  refine covers_insert.mpr (.inr (.inr ?_))
  rwa [erase_eq_self hl]

lemma Covers.insert_keep {it' : StageItem} (h : Covers staging p) (hl : staging.lookup k = some it)
    (ho : it'.oldRel = it.oldRel) (hp : p ≠ k) : Covers (staging.insert k it') p := by
  rw [covers_insert]
  rcases h.split_at hl with h | ⟨hk, _⟩ | h
  · exact .inr (.inr h)
  · exact (hp hk).elim
  · exact .inr (.inl (ho.trans h))

section Steps

variable (native : Bool) (pending : Path → Prop) (staging : Staging)

def Announces (ev : Event) (before : Path → Prop) : Prop :=
  ∀ p, pending p → match ev.op with
    | .deleted => p = ev.rel ∨ before p
    | .renamed => p = ev.oldRel ∨ (before p ∧ p ≠ ev.rel)
    | _ => before p ∧ p ≠ ev.rel

def KeepsAdded (p : Path) : Prop :=
  ∀ it, staging.lookup p = some it → ¬ (native = true ∧ it.isMove = true) → pending it.oldRel →
    Covers (staging.erase p) it.oldRel

def KeepsDeleted (p : Path) : Prop :=
  ∀ it, staging.lookup p = some it →
    if native = true ∧ it.isMove = true then
      (pending p → Moved staging p) ∧
        (it.oldRel ≠ [] → ¬ Moved (staging.erase p) p → pending it.oldRel →
          it.oldRel = p ∨ staging.lookup it.oldRel = none ∨ Covers (staging.erase p) it.oldRel)
    else pending it.oldRel → it.oldRel = p ∨ Covers (staging.erase p) it.oldRel

def KeepsOverwritten (ev : Event) (origin : Path) (rest : Staging) : Prop :=
  (pending ev.oldRel → ev.oldRel = origin ∨ Covers (rest.erase ev.rel) ev.oldRel) ∧
    ∀ it, staging.lookup ev.rel = some it → pending it.oldRel →
      it.oldRel = origin ∨ Covers (rest.erase ev.rel) it.oldRel

def KeepsRenamed (ev : Event) : Prop :=
  if native = true then
    (HeldBack staging ev → ∀ it, staging.lookup ev.rel = some it → pending ev.oldRel → Moved staging ev.oldRel) ∧
      (¬ HeldBack staging ev →
        KeepsOverwritten pending staging ev (renameOrigin staging ev) (staging.erase ev.oldRel))
  else KeepsOverwritten pending staging ev ev.oldRel staging

def Keeps (ev : Event) : Prop :=
  match ev.op with
  | .added => KeepsAdded native pending staging ev.rel
  | .deleted => KeepsDeleted native pending staging ev.rel
  | .renamed => KeepsRenamed native pending staging ev
  | .modified | .renameUncertain => True

variable {native pending staging} {now : Time}

section

variable (hc : ∀ p, before p → Covers staging p)
include hc

lemma keeps_kept (ho : Outcome native wc now staging ev staging') (hop : ev.op = .modified ∨ ev.op = .renameUncertain)
    (ha : ∀ p, pending p → before p ∧ p ≠ ev.rel) : ∀ p, pending p → Covers staging' p := by
  intro p hp
  obtain ⟨hb, hne⟩ := ha p hp
  cases ho with
  | fresh hl => exact (hc p hb).insert_fresh hl
  | folded _ _ hd => simp [hd] at hop
  | held _ _ _ hd => rcases hop with hop | hop <;> simp [hop] at hd
  | @updated it hl _ =>
    refine (hc p hb).insert_keep hl ?_ hne
    rcases hop with hop | hop
    · simp only [refresh, mergeOp, hop]
      split <;> rfl
    · simp [refresh, mergeOp, hop]

lemma keeps_added (ho : Outcome native wc now staging ev staging') (hop : ev.op = .added)
    (ha : ∀ p, pending p → before p ∧ p ≠ ev.rel) (hne : ∀ p, pending p → p ≠ []) :
    (∀ p, pending p → Covers staging' p) ↔ KeepsAdded native pending staging ev.rel := by
  cases ho with
  | fresh hl =>
    refine iff_of_true (fun p hp => (hc p (ha p hp).1).insert_fresh hl) ?_
    intro it hl'
    simp [hl] at hl'
  | folded _ _ hd => simp [hop] at hd
  | @held it hl hn hm =>
    refine iff_of_true (fun p hp => (hc p (ha p hp).1).insert_keep hl rfl (ha p hp).2) ?_
    intro other hl' hnot
    obtain rfl := mem_unique hl hl'
    exact (hnot ⟨hn, hm⟩).elim
  | @updated it hl hm =>
    have hnm : ¬ (native = true ∧ it.isMove = true) := fun h => (hm h.1 h.2).1 hop
    have hcov : ∀ p, pending p → (Covers (staging.insert ev.rel (refresh now ev (mergeOp it ev))) p ↔
        Covers (staging.erase ev.rel) p) := by
      intro p hp
      have hempty : [] ≠ p := (hne p hp).symm
      rw [covers_insert]
      simp [refresh, mergeOp, hop, hempty]
    constructor
    · intro h other hl' _ hp
      obtain rfl := mem_unique hl hl'
      exact (hcov _ hp).mp (h _ hp)
    · intro h p hp
      refine (hcov p hp).mpr ?_
      rcases (hc p (ha p hp).1).split_at hl with h' | ⟨hk, _⟩ | rfl
      · exact h'
      · exact ((ha p hp).2 hk).elim
      · exact h it hl hnm hp

end

lemma moved_erase_self : Covers (staging.erase p) p ↔ Moved (staging.erase p) p := by
  constructor
  · rintro (⟨it, hl, _⟩ | h)
    · simp at hl
    · exact h
  · exact .inr

lemma covers_stageRemoval {old : Path} (hp : p ≠ []) :
    Covers (stageRemoval wc now staging old) p ↔ Covers staging p ∨ (p = old ∧ staging.lookup old = none) := by
  rw [stageRemoval]
  split
  · rename_i hl
    simp [hl]
  · rename_i hl
    rw [covers_insert, erase_eq_self hl]
    simp only [hp.symm, hl, and_true, false_or]
    exact or_comm

section

variable (hc : ∀ p, before p → Covers staging p)
include hc

section

variable (hq : PlainQueue staging) (hl : staging.lookup ev.rel = some it) (hn : native = true)
  (ha : ∀ p, pending p → p = ev.rel ∨ before p)
include hq hl hn ha

lemma keeps_folded {folded : Staging} (hf : foldRemovedRenameLocked wc now staging ev.rel it = some folded)
    (hne : ∀ p, pending p → p ≠ []) :
    (∀ p, pending p → Covers folded p) ↔ KeepsDeleted native pending staging ev.rel := by
  obtain ⟨hm, hs, hon, rfl⟩ := fold_eq_some hf
  rw [(hq _ _ hl).1] at hon
  have hnot : ¬ Moved (staging.erase ev.rel) ev.rel := by
    rintro ⟨k, other, hk, ho⟩
    obtain ⟨hk, hother⟩ := lookup_erase_eq_some.mp hk
    exact hon k other hother hk ho
  have hdel : it.op ≠ .deleted := by
    intro h
    simp [isMove, h] at hm
  simp only [KeepsDeleted, hl, some.injEq, forall_eq', if_pos (And.intro hn hm)]
  constructor
  · intro h
    refine ⟨?_, ?_⟩
    · intro hp
      rcases (covers_stageRemoval (hne _ hp)).mp (h _ hp) with hp | ⟨hp, _⟩
      · exact (hnot (moved_erase_self.mp hp)).elim
      · exact ⟨ev.rel, it, hl, hp.symm⟩
    · intro _ _ hp
      rcases (covers_stageRemoval (hne _ hp)).mp (h _ hp) with hp | ⟨_, hp⟩
      · exact .inr (.inr hp)
      · by_cases ho : it.oldRel = ev.rel
        · exact .inl ho
        · rw [lookup_erase_ne ho] at hp
          exact .inr (.inl hp)
  · rintro ⟨hself, hsource⟩ p hp
    refine (covers_stageRemoval (hne p hp)).mpr ?_
    have hor : it.oldRel = p → Covers (staging.erase ev.rel) p ∨
        (p = it.oldRel ∧ (staging.erase ev.rel).lookup it.oldRel = none) := by
      rintro rfl
      rcases hsource hs hnot hp with ho | ho | ho
      · exact .inr ⟨rfl, by rw [ho, lookup_erase]⟩
      · refine .inr ⟨rfl, ?_⟩
        by_cases hk : it.oldRel = ev.rel
        · rw [hk, lookup_erase]
        · rw [lookup_erase_ne hk, ho]
      · exact .inl ho
    rcases ha p hp with rfl | hb
    · obtain ⟨k, other, hk, ho⟩ := hself hp
      by_cases hkey : k = ev.rel
      · subst hkey
        obtain rfl := mem_unique hl hk
        exact hor ho
      · exact (hon k other hk hkey ho).elim
    · rcases (hc p hb).split_at hl with h | ⟨_, hd⟩ | ho
      · exact .inl h
      · exact (hdel hd).elim
      · exact hor ho

lemma keeps_held (hm : it.isMove = true) (hf : foldRemovedRenameLocked wc now staging ev.rel it = none) :
    (∀ p, pending p → Covers (staging.insert ev.rel (holdUncertain now it)) p) ↔
      KeepsDeleted native pending staging ev.rel := by
  obtain ⟨hk, hplain⟩ := hq _ _ hl
  have hcov : ∀ p, Covers (staging.insert ev.rel (holdUncertain now it)) p ↔
      it.oldRel = p ∨ Covers (staging.erase ev.rel) p := by
    intro p
    simp [covers_insert, holdUncertain]
  have hon : it.oldRel ≠ [] → Moved (staging.erase ev.rel) ev.rel := by
    intro hs
    obtain ⟨k, other, hother, hne, ho⟩ := fold_eq_none hf hm hplain.unscheduled hplain.file hs
    exact ⟨k, other, lookup_erase_eq_some.mpr ⟨hne, hother⟩, ho.trans hk⟩
  simp only [KeepsDeleted, hl, some.injEq, forall_eq', if_pos (And.intro hn hm)]
  constructor
  · intro h
    refine ⟨?_, fun hs hnot => (hnot (hon hs)).elim⟩
    intro hp
    rcases (hcov _).mp (h _ hp) with ho | ho
    · exact ⟨ev.rel, it, hl, ho⟩
    · exact (moved_erase_self.mp ho).of_erase
  · intro h p hp
    refine (hcov p).mpr ?_
    rcases ha p hp with rfl | hb
    · obtain ⟨k, other, hother, ho⟩ := h.1 hp
      by_cases hkey : k = ev.rel
      · subst hkey
        obtain rfl := mem_unique hl hother
        exact .inl ho
      · exact .inr (.inr ⟨k, other, lookup_erase_eq_some.mpr ⟨hkey, hother⟩, ho⟩)
    · rcases (hc p hb).split_at hl with h | ⟨_, hd⟩ | ho
      · exact .inr h
      · simp [isMove, hd] at hm
      · exact .inl ho

end

lemma keeps_deleted (ho : Outcome native wc now staging ev staging') (hop : ev.op = .deleted)
    (hq : PlainQueue staging) (ha : ∀ p, pending p → p = ev.rel ∨ before p) (hne : ∀ p, pending p → p ≠ []) :
    (∀ p, pending p → Covers staging' p) ↔ KeepsDeleted native pending staging ev.rel := by
  cases ho with
  | fresh hl =>
    refine iff_of_true ?_ ?_
    · intro p hp
      rcases ha p hp with rfl | hb
      · exact covers_insert.mpr (.inl ⟨rfl, hop⟩)
      · exact (hc p hb).insert_fresh hl
    · intro it hl'
      simp [hl] at hl'
  | folded hl hn _ hf => exact keeps_folded hc hq hl hn ha hf hne
  | held hl hn hm hd =>
    have hf := (hd.resolve_left (by simp [hop])).2
    exact keeps_held hc hq hl hn ha hm hf
  | @updated it hl hm =>
    have hnm : ¬ (native = true ∧ it.isMove = true) := fun h => (hm h.1 h.2).2 hop
    have hcov : ∀ p, pending p → (Covers (staging.insert ev.rel (refresh now ev (mergeOp it ev))) p ↔
        p = ev.rel ∨ Covers (staging.erase ev.rel) p) := by
      intro p hp
      have hempty : [] ≠ p := (hne p hp).symm
      rw [covers_insert]
      simp [refresh, mergeOp, hop, hempty]
    simp only [KeepsDeleted, hl, some.injEq, forall_eq', if_neg hnm]
    constructor
    · exact fun h hp => (hcov _ hp).mp (h _ hp)
    · intro hsource p hp
      refine (hcov p hp).mpr ?_
      rcases ha p hp with hp | hb
      · exact .inl hp
      · rcases (hc p hb).split_at hl with h | ⟨hk, _⟩ | rfl
        · exact .inr h
        · exact .inl hk
        · exact hsource hp

end

lemma Outcome.covers_of_renamed (ho : Outcome native wc now staging ev staging') (hop : ev.op = .renamed)
    (p : Path) : Covers staging' p ↔ ev.oldRel = p ∨ Covers (staging.erase ev.rel) p := by
  cases ho with
  | fresh => simp [covers_insert, newItem, hop]
  | folded _ _ hd => simp [hop] at hd
  | held _ _ _ hd => simp [hop] at hd
  | updated => simp [covers_insert, refresh, mergeOp, hop]

section

variable (hc : ∀ p, before p → Covers staging p) (ha : ∀ p, pending p → p = ev.oldRel ∨ (before p ∧ p ≠ ev.rel))
include hc ha

lemma keeps_overwritten {origin : Path} {rest : Staging}
    (hcov : ∀ p, pending p → (Covers staging' p ↔ origin = p ∨ Covers (rest.erase ev.rel) p))
    (hrest : ∀ p, pending p → p ≠ ev.oldRel → Covers staging p → origin = p ∨ Covers rest p)
    (hentry : ∀ it, rest.lookup ev.rel = some it → staging.lookup ev.rel = some it) :
    (∀ p, pending p → Covers staging' p) ↔ KeepsOverwritten pending staging ev origin rest := by
  have hcov' : ∀ p, pending p → (Covers staging' p ↔ p = origin ∨ Covers (rest.erase ev.rel) p) := by
    intro p hp
    rw [hcov p hp, eq_comm]
  constructor
  · intro h
    exact ⟨fun hp => (hcov' _ hp).mp (h _ hp), fun it _ hp => (hcov' _ hp).mp (h _ hp)⟩
  · rintro ⟨hself, hsource⟩ p hp
    refine (hcov' p hp).mpr ?_
    by_cases hold : p = ev.oldRel
    · subst hold
      exact hself hp
    · obtain ⟨hb, hdst⟩ := (ha p hp).resolve_left hold
      rcases hrest p hp hold (hc p hb) with h | h
      · exact .inl h.symm
      · rcases h.split ev.rel with h | ⟨it, hl, ⟨hk, _⟩ | rfl⟩
        · exact .inr h
        · exact (hdst hk).elim
        · exact hsource it (hentry it hl) hp

lemma keeps_heldBack (ho : Outcome native wc now staging { ev with op := .renameUncertain } staging')
    (hq : PlainQueue staging) (hb : HeldBack staging ev) (hself : ev.oldRel ≠ ev.rel) :
    (∀ p, pending p → Covers staging' p) ↔
      ∀ it, staging.lookup ev.rel = some it → pending ev.oldRel → Moved staging ev.oldRel := by
  cases ho with
  | fresh hl =>
    refine iff_of_true ?_ ?_
    · intro p hp
      rcases ha p hp with rfl | ⟨hbefore, _⟩
      · exact covers_insert.mpr (.inr (.inl rfl))
      · exact (hc p hbefore).insert_fresh hl
    · intro it hl'
      simp [hl] at hl'
  | folded _ _ hd => simp at hd
  | held _ _ _ hd => simp at hd
  | @updated it hl _ =>
    constructor
    · intro h _ _ hp
      rcases covers_insert.mp (h _ hp) with ⟨hk, _⟩ | h | ⟨other, hl', hd⟩ | h
      · exact (hself hk).elim
      · exact ⟨ev.rel, it, hl, h⟩
      · obtain ⟨previous, hprev, hu⟩ := hb
        have hl'' := (lookup_erase_eq_some.mp hl').2
        obtain rfl := mem_unique hprev hl''
        simp [(hq _ _ hprev).2.unscheduled, hd] at hu
      · exact h.of_erase
    · intro h p hp
      by_cases hold : p = ev.oldRel
      · subst hold
        exact Covers.insert_keep (.inr (h it hl hp)) hl rfl hself
      · obtain ⟨hbefore, hdst⟩ := (ha p hp).resolve_left hold
        exact (hc p hbefore).insert_keep hl rfl hdst

end

end Steps

lemma keeps_renamed (hop : a.ev.op = .renamed) (hq : PlainQueue s.staging) (hself : a.ev.oldRel ≠ a.ev.rel)
    (hc : ∀ p, before p → Covers s.staging p)
    (ha : ∀ p, pending p → p = a.ev.oldRel ∨ (before p ∧ p ≠ a.ev.rel)) (hne : ∀ p, pending p → p ≠ []) :
    (∀ p, pending p → Covers (merge s a).staging p) ↔ KeepsRenamed s.nativeMover pending s.staging a.ev := by
  obtain ⟨staging, ev₁, ev₂, hcol, hr, ho⟩ := addEventLocked_outcome a.disk a.now s a.ev
  change Outcome _ _ _ _ _ (merge s a).staging at ho
  obtain rfl := hr.eq_of_plain (hcol.plainQueue hq)
  rw [KeepsRenamed]
  by_cases hn : s.nativeMover = true
  · rw [if_pos hn]
    by_cases hb : HeldBack s.staging a.ev
    · obtain ⟨rfl, rfl⟩ := hcol.heldBack hn hop hb
      rw [keeps_heldBack hc ha ho hq hb hself]
      simp [hb]
    · obtain ⟨rfl, hop₁, hrel, horigin⟩ := hcol.redirect hn hop hb
      simp only [hb, not_false_eq_true, forall_const, false_implies, true_and]
      refine keeps_overwritten hc ha ?_ ?_ ?_
      · intro p _
        rw [ho.covers_of_renamed hop₁, hrel, horigin]
      · intro p hp hold hcov
        rcases hcov.split a.ev.oldRel with h | ⟨previous, hl, ⟨hk, _⟩ | h⟩
        · exact .inr h
        · exact (hold hk).elim
        · -- the entry that the rename takes over carries a source only if it is a rename itself
          refine .inl ?_
          by_cases hp' : previous.op = .renamed
          · simpa [renameOrigin, hl, hp'] using h
          · have hm : previous.isMove = false := by
              simp only [isMove, Bool.or_eq_false_iff, decide_eq_false_iff_not]
              exact ⟨hp', fun hu => hb ⟨previous, hl, .inr hu⟩⟩
            exact (hne p hp (h.symm.trans ((hq _ _ hl).2.source hm))).elim
      · intro it hl
        exact (lookup_erase_eq_some.mp hl).2
  · rw [if_neg hn]
    cases hcol with
    | other =>
      refine keeps_overwritten hc ha ?_ (fun p _ _ h => .inr h) (fun it hl => hl)
      intro p _
      exact ho.covers_of_renamed hop p
    | first h | uncertain h | hop h | take h => exact (hn h).elim

lemma merge_keeps (hq : PlainQueue s.staging) (hself : a.ev.op = .renamed → a.ev.oldRel ≠ a.ev.rel)
    (hc : ∀ p, before p → Covers s.staging p) (ha : Announces pending a.ev before)
    (hne : ∀ p, pending p → p ≠ []) :
    (∀ p, pending p → Covers (merge s a).staging p) ↔ Keeps s.nativeMover pending s.staging a.ev := by
  by_cases hop : a.ev.op = .renamed
  · rw [Keeps, hop]
    refine keeps_renamed hop hq (hself hop) hc ?_ hne
    simpa only [Announces, hop] using ha
  · obtain ⟨staging, ev₁, ev₂, hcol, hr, ho⟩ := addEventLocked_outcome a.disk a.now s a.ev
    change Outcome _ _ _ _ _ (merge s a).staging at ho
    obtain rfl := hr.eq_of_plain (hcol.plainQueue hq)
    cases hcol with
    | first _ h | uncertain _ h | hop _ h | take _ h => exact (hop h).elim
    | other =>
      rw [Announces] at ha
      rw [Keeps]
      cases h : a.ev.op with
      | added => exact keeps_added hc ho h (by simpa only [h] using ha) hne
      | deleted => exact keeps_deleted hc ho h hq (by simpa only [h] using ha) hne
      | renamed => exact (hop h).elim
      | modified => exact iff_of_true (keeps_kept hc ho (.inl h) (by simpa only [h] using ha)) trivial
      | renameUncertain => exact iff_of_true (keeps_kept hc ho (.inr h) (by simpa only [h] using ha)) trivial

structure Tree where
  (published disk manifest reported : Finset Path)

def Tree.Pending (t : Tree) (p : Path) : Prop := p ∈ t.published ∧ p ∉ t.disk ∧ p ∈ t.reported

inductive FileOp
  | create (p : Path) (uncertain : Bool)
  | restore (p : Path)
  | edit (p : Path)
  | remove (p : Path)
  | report (p : Path)
  | rename (p q : Path) (verified : Bool)

def Tree.Enabled (t : Tree) : FileOp → Prop
  | .create p _ => p ≠ [] ∧ p ∉ t.disk ∧ p ∉ t.manifest
  | .restore p => p ∉ t.disk ∧ p ∈ t.manifest
  | .edit p => p ∈ t.manifest
  | .remove p => p ∈ t.disk
  | .report p => p ∉ t.disk ∧ p ∈ t.manifest
  | .rename p q _ => q ≠ [] ∧ p ∈ t.disk ∧ q ∉ t.disk ∧ q ∉ t.manifest

instance (t : Tree) (op : FileOp) : Decidable (t.Enabled op) :=
  match op with
  | .create p _ => inferInstanceAs (Decidable (p ≠ [] ∧ p ∉ t.disk ∧ p ∉ t.manifest))
  | .restore p => inferInstanceAs (Decidable (p ∉ t.disk ∧ p ∈ t.manifest))
  | .edit p => inferInstanceAs (Decidable (p ∈ t.manifest))
  | .remove p => inferInstanceAs (Decidable (p ∈ t.disk))
  | .report p => inferInstanceAs (Decidable (p ∉ t.disk ∧ p ∈ t.manifest))
  | .rename p q _ => inferInstanceAs (Decidable (q ≠ [] ∧ p ∈ t.disk ∧ q ∉ t.disk ∧ q ∉ t.manifest))

def Tree.apply (t : Tree) : FileOp → Tree
  | .create p _ => { t with
      disk := insert p t.disk, manifest := insert p t.manifest, reported := t.reported.erase p }
  | .restore p => { t with disk := insert p t.disk }
  | .edit p => { t with disk := insert p t.disk }
  | .remove p => { t with disk := t.disk.erase p }
  | .report p => { t with manifest := t.manifest.erase p, reported := insert p t.reported }
  | .rename p q _ => { t with
      disk := insert q (t.disk.erase p), manifest := insert q (t.manifest.erase p),
      reported := insert p (t.reported.erase q) }

def FileOp.event (wc : Path) : FileOp → Option Event
  | .create p uncertain => some
      { path := joinPath wc p, rel := p, op := if uncertain then .renameUncertain else .added }
  | .restore p => some { path := joinPath wc p, rel := p, op := .added }
  | .edit p => some { path := joinPath wc p, rel := p, op := .modified }
  | .remove _ => none
  | .report p => some { path := joinPath wc p, rel := p, op := .deleted }
  | .rename p q verified => some
      { path := joinPath wc q, rel := q, oldRel := p, op := .renamed, identityVerified := verified }

structure World where
  tree : Tree
  svc : Service

structure Occurrence where
  op : FileOp
  disk : Disk := bareDisk
  now : Time := 0

def World.step (w : World) (o : Occurrence) : World :=
  if w.tree.Enabled o.op then
    { tree := w.tree.apply o.op
      svc := match o.op.event w.svc.wc with
        | some ev => merge w.svc ⟨o.disk, o.now, ev⟩
        | none => w.svc }
  else w

def World.start (published : Finset Path) (svc : Service) : World where
  tree := { published := published, disk := published, manifest := published, reported := ∅ }
  svc := svc

def NoLostRemoval (w : World) : Prop :=
  ∀ p ∈ w.tree.published, p ∉ w.tree.disk → p ∈ w.tree.reported → Covers w.svc.staging p

def World.Keeps (w : World) (o : Occurrence) : Prop :=
  w.tree.Enabled o.op → ∀ ev, o.op.event w.svc.wc = some ev →
    Commit.Keeps w.svc.nativeMover (w.tree.apply o.op).Pending w.svc.staging ev

structure World.Good (w : World) : Prop where
  queue : PlainQueue w.svc.staging
  known : w.tree.disk ⊆ w.tree.manifest
  gone : ∀ p ∈ w.tree.reported, p ∉ w.tree.manifest
  named : [] ∉ w.tree.published

open World

open Tree

variable {w : World} {op : FileOp}

lemma noLostRemoval_iff : NoLostRemoval w ↔ ∀ p, w.tree.Pending p → Covers w.svc.staging p := by
  simp only [NoLostRemoval, Pending, and_imp]

lemma event_file (h : op.event wc = some ev) : FileEvent ev := by
  cases op with
  | create p uncertain | restore p | edit p | report p =>
    cases h
    exact ⟨fun _ => ⟨rfl, rfl⟩, rfl⟩
  | remove p => cases h
  | rename p q verified =>
    cases h
    exact ⟨fun h => (h rfl).elim, rfl⟩

lemma event_self (he : w.tree.Enabled op) (h : op.event w.svc.wc = some ev) (hop : ev.op = .renamed) :
    ev.oldRel ≠ ev.rel := by
  cases op with
  | create p uncertain =>
    cases h
    cases uncertain <;> cases hop
  | restore p | edit p | report p =>
    cases h
    cases hop
  | remove p => cases h
  | rename p q verified =>
    cases h
    obtain ⟨_, hp, hq, _⟩ := he
    exact ne_of_mem_of_not_mem hp hq

lemma event_announces (he : w.tree.Enabled op) (h : op.event w.svc.wc = some ev) :
    Announces (w.tree.apply op).Pending ev w.tree.Pending := by
  intro x hx
  simp only [Pending] at hx ⊢
  cases op with
  | create p uncertain =>
    cases h
    cases uncertain <;> simp_all [apply]
  | restore p | edit p =>
    cases h
    simp_all [apply]
  | report p =>
    cases h
    simp_all [apply]
  | remove p => cases h
  | rename p q verified =>
    cases h
    simp_all [apply]
    tauto

lemma World.Good.apply (hg : w.Good) (he : w.tree.Enabled op) : (w.tree.apply op).disk ⊆ (w.tree.apply op).manifest ∧
      ∀ p ∈ (w.tree.apply op).reported, p ∉ (w.tree.apply op).manifest := by
  have hsub : ∀ p ∈ w.tree.disk, p ∈ w.tree.manifest := hg.known
  have hgone := hg.gone
  simp only [Finset.subset_iff]
  cases op with
  | create p uncertain =>
    simp only [apply, Finset.mem_insert, Finset.mem_erase]
    refine ⟨?_, ?_⟩
    · rintro x (rfl | hx)
      · exact .inl rfl
      · exact .inr (hsub x hx)
    · rintro x ⟨hne, hx⟩ (h | h)
      · exact hne h
      · exact hgone x hx h
  | restore p =>
    simp only [apply, Finset.mem_insert]
    refine ⟨?_, hgone⟩
    rintro x (rfl | hx)
    · exact he.2
    · exact hsub x hx
  | edit p =>
    simp only [apply, Finset.mem_insert]
    refine ⟨?_, hgone⟩
    rintro x (rfl | hx)
    · exact he
    · exact hsub x hx
  | remove p =>
    simp only [apply, Finset.mem_erase]
    exact ⟨fun x hx => hsub x hx.2, hgone⟩
  | report p =>
    simp only [apply, Finset.mem_insert, Finset.mem_erase]
    refine ⟨?_, ?_⟩
    · intro x hx
      exact ⟨ne_of_mem_of_not_mem hx he.1, hsub x hx⟩
    · rintro x (rfl | hx) ⟨hne, h⟩
      · exact hne rfl
      · exact hgone x hx h
  | rename p q verified =>
    simp only [apply, Finset.mem_insert, Finset.mem_erase]
    obtain ⟨_, hp, hq, _⟩ := he
    refine ⟨?_, ?_⟩
    · rintro x (rfl | ⟨hne, hx⟩)
      · exact .inl rfl
      · exact .inr ⟨hne, hsub x hx⟩
    · rintro x (rfl | ⟨hne, hx⟩) (h | ⟨hne', h⟩)
      · exact hq (h ▸ hp)
      · exact hne' rfl
      · exact hne h
      · exact hgone x hx h

lemma apply_published (t : Tree) (op : FileOp) : (t.apply op).published = t.published := by cases op <;> rfl

lemma World.step_good (w : World) (o : Occurrence) (hg : w.Good) : (w.step o).Good := by
  rw [step]
  split
  · rename_i he
    obtain ⟨hk, hr⟩ := hg.apply he
    refine ⟨?_, hk, hr, by simpa only [apply_published] using hg.named⟩
    cases hev : o.op.event w.svc.wc with
    | none => exact hg.queue
    | some ev => exact merge_plainQueue w.svc ⟨o.disk, o.now, ev⟩ hg.queue (event_file hev)
  · exact hg

lemma pending_of_remove (hg : w.Good) {x : Path} (hx : (w.tree.apply (.remove p)).Pending x) : w.tree.Pending x := by
  obtain ⟨hp, _, hr⟩ := hx
  exact ⟨hp, fun hd => hg.gone x hr (hg.known hd), hr⟩

lemma World.step_noLostRemoval (w : World) (o : Occurrence) (hg : w.Good) (hn : NoLostRemoval w) :
    NoLostRemoval (w.step o) ↔ w.Keeps o := by
  rw [noLostRemoval_iff] at hn ⊢
  rw [step]
  split
  · rename_i he
    simp only [Keeps, he, forall_const]
    cases hev : o.op.event w.svc.wc with
    | none =>
      simp only [reduceCtorEq, false_implies, implies_true, iff_true]
      cases hop : o.op with
      | remove p =>
        intro x hx
        exact hn x (pending_of_remove hg hx)
      | create | restore | edit | report | rename => simp [hop, FileOp.event] at hev
    | some ev =>
      simp only [some.injEq, forall_eq']
      refine merge_keeps hg.queue (event_self he hev) hn (event_announces he hev) ?_
      rintro x hx rfl
      exact hg.named (by simpa only [apply_published] using hx.1)
  · rename_i he
    exact iff_of_true hn (fun h => (he h).elim)

/-- From a queue that is empty over a tree equal to the published one, no reported removal is lost in a run
exactly when every event of the run meets `Keeps`. -/
theorem no_lost_removal_iff (published : Finset Path) (svc : Service) (hp : [] ∉ published)
    (hs : svc.staging = ∅) (os : List Occurrence) :
    (∀ pre, pre <+: os → NoLostRemoval (run World.step (World.start published svc) pre)) ↔
      Admits World.step World.Keeps (World.start published svc) os := by
  have hq : PlainQueue svc.staging := by simp [PlainQueue, hs]
  have hgood : (start published svc).Good := ⟨hq, by simp [start], by simp [start], hp⟩
  refine along_iff_admits step step_good step_noLostRemoval hgood ?_ os
  intro p _ _ hr
  simp [start] at hr

instance (staging : Staging) (p : Path) : Decidable (Covers staging p) :=
  decidable_of_iff ((staging.lookup p).any (fun it => it.op = .deleted) = true ∨
    staging.entries.any (fun e => e.2.oldRel = p) = true) <| by
  refine or_congr ?_ ?_
  · simp [Option.any_eq_true]
  · simp only [List.any_eq_true, Sigma.exists, mem_entries_iff, Moved, decide_eq_true_eq]

instance (w : World) : Decidable (NoLostRemoval w) :=
  inferInstanceAs (Decidable (∀ p ∈ w.tree.published, p ∉ w.tree.disk → p ∈ w.tree.reported → Covers w.svc.staging p))

theorem no_lost_removal_on_chain :
    ((run World.step (World.start {"a".toList} { nativeMover := true })
      [{ op := .rename "a".toList "b".toList true }, { op := .remove "b".toList },
        { op := .report "b".toList }]).svc.staging.lookup "a".toList).map StageItem.op = some .deleted ∧
    ∀ pre, pre <+: [{ op := .rename "a" "b" true }, { op := .remove "b" },
        { op := .report "b" }] →
      NoLostRemoval (run World.step (World.start {"a".toList} { nativeMover := true }) pre) := by
  refine ⟨by decide,
    (no_lost_removal_iff {"a".toList} { nativeMover := true } (by decide) rfl _).mpr ⟨?_, ?_, ?_, trivial⟩⟩
  · intro _ ev hev
    cases hev
    refine ⟨?_, ?_⟩
    · intro _ it hl
      cases hl
    · intro _
      refine ⟨fun _ => .inl rfl, ?_⟩
      intro it hl
      cases hl
  · intro _ ev hev
    cases hev
  · intro _ ev hev
    cases hev
    intro it hl
    cases hl
    refine ⟨?_, ?_⟩
    · rintro ⟨hb, _⟩
      exact absurd hb (by decide)
    · intro _ _ _
      exact .inr (.inl rfl)

theorem destination_removed_loses_source :
    ¬ NoLostRemoval (run World.step (World.start {"a".toList} { nativeMover := false })
        [{ op := .rename "a".toList "b".toList true }, { op := .remove "b".toList }, { op := .report "b".toList }]) ∧
      ¬ NoLostRemoval (run World.step (World.start {"a".toList, "b".toList} { nativeMover := true })
        [{ op := .remove "b".toList }, { op := .report "b".toList }, { op := .rename "a".toList "b".toList true },
          { op := .remove "b".toList }, { op := .report "b".toList }]) := by
  decide

end FileES.Commit
