import FileES.Commit.TransactionSteps

/-! In every run of the durable commit each transaction is sent and published at most once, and so is what it
queued. -/

namespace FileES.Commit

open Go Watcher Lib.Fallible Lib.Maps Lib.Runs Machine List AList

def rank : OpType → ℕ
  | .deleted | .renamed => 3
  | .renameUncertain => 2
  | .added => 1
  | .modified => 0

structure SameStamp (x y : IntentItem) : Prop where
  rel : x.rel = y.rel
  firstSeen : x.firstSeen = y.firstSeen
  lastSeen : x.lastSeen = y.lastSeen

def Lower (x y : IntentItem) : Prop := rank y.op < rank x.op

def AtMost (x y : IntentItem) : Prop := y.op = x.op ∧ y.oldRel = x.oldRel ∨ Lower x y

def After (R : IntentItem → IntentItem → Prop) (x : IntentItem) (staging : Staging) : Prop :=
  ∀ k it, staging.lookup k = some it → SameStamp x (intentItem it) → R x (intentItem it)

def Continues (old : Staging) (k : Path) (it : StageItem) : Prop :=
  ∃ it₀, old.lookup k = some it₀ ∧ SameStamp (intentItem it₀) (intentItem it) ∧ AtMost (intentItem it₀) (intentItem it)

def Follows (old new : Staging) : Prop := ∀ k it, new.lookup k = some it → Continues old k it

def Renews (now : Time) (old new : Staging) : Prop :=
  ∀ k it, new.lookup k = some it → it.lastSeen = now ∨ Continues old k it

lemma SameStamp.refl (x : IntentItem) : SameStamp x x := ⟨rfl, rfl, rfl⟩

variable {x y z : IntentItem} {old mid new staging : Staging} {k : Path} {it : StageItem} {now : Time}

lemma SameStamp.trans (h : SameStamp x y) (h' : SameStamp y z) : SameStamp x z :=
  ⟨h.rel.trans h'.rel, h.firstSeen.trans h'.firstSeen, h.lastSeen.trans h'.lastSeen⟩

lemma SameStamp.symm (h : SameStamp x y) : SameStamp y x := ⟨h.rel.symm, h.firstSeen.symm, h.lastSeen.symm⟩

lemma AtMost.refl (x : IntentItem) : AtMost x x := .inl ⟨rfl, rfl⟩

lemma Lower.trans_atMost (h : Lower x y) (h' : AtMost y z) : Lower x z := by
  rcases h' with ⟨ho, _⟩ | hl
  · rw [Lower, ho]
    exact h
  · exact lt_trans hl h

lemma AtMost.trans (h : AtMost x y) (h' : AtMost y z) : AtMost x z := by
  rcases h with ⟨ho, hr⟩ | hl
  · rcases h' with ⟨ho', hr'⟩ | hl'
    · exact .inl ⟨ho'.trans ho, hr'.trans hr⟩
    · rw [Lower, ho] at hl'
      exact .inr hl'
  · exact .inr (hl.trans_atMost h')

lemma Continues.refl (h : staging.lookup k = some it) :
    Continues staging k it := ⟨it, h, SameStamp.refl _, AtMost.refl _⟩

lemma Continues.trans (h : Follows old mid) (h' : Continues mid k it) : Continues old k it := by
  obtain ⟨it₁, hl₁, hs₁, hk₁⟩ := h'
  obtain ⟨it₀, hl₀, hs₀, hk₀⟩ := h k it₁ hl₁
  exact ⟨it₀, hl₀, hs₀.trans hs₁, hk₀.trans hk₁⟩

lemma Follows.refl (staging : Staging) : Follows staging staging := fun _ _ h => Continues.refl h

lemma Follows.trans (h : Follows old mid) (h' : Follows mid new) : Follows old new :=
  fun k it hl => (h' k it hl).trans h

lemma Follows.renews (h : Follows old new) (now : Time) : Renews now old new := fun k it hl => .inr (h k it hl)

lemma Follows.keyed (h : Follows old new) (hk : Keyed old) : Keyed new := by
  intro k it hl
  obtain ⟨it₀, hl₀, hs, _⟩ := h k it hl
  exact hs.rel.symm.trans (hk k it₀ hl₀)

lemma After.renews {R : IntentItem → IntentItem → Prop} (hR : ∀ {x y z}, R x y → AtMost y z → R x z)
    (h : After R x old) (hr : Renews now old new) (hx : x.lastSeen < now) :
    After R x new := by
  intro k it hl hs
  rcases hr k it hl with hnow | ⟨it₀, hl₀, hs₀, hk₀⟩
  · exact absurd (hs.lastSeen.trans hnow) (Nat.ne_of_lt hx)
  · exact hR (h k it₀ hl₀ (hs.trans hs₀.symm)) hk₀

lemma After.follows {R : IntentItem → IntentItem → Prop} (hR : ∀ {x y z}, R x y → AtMost y z → R x z)
    (h : After R x old) (hf : Follows old new) : After R x new :=
  h.renews hR (hf.renews (x.lastSeen + 1)) (Nat.lt_succ_self _)

lemma follows_loadCache (cache : Staging) : Follows cache (loadCache cache) := by
  intro k it hl
  obtain ⟨it₀, hl₀, rfl⟩ := lookup_mapVal_eq_some.mp hl
  exact ⟨it₀, hl₀, ⟨rfl, rfl, rfl⟩, .inl ⟨rfl, rfl⟩⟩

section Passes

variable {P : Pass} {plan : Plan}

lemma rewriteOp_cases (P : Pass) (es : List Entry) (it : StageItem) :
    (rewriteOp P es it).op = it.op ∨ (rewriteOp P es it).op = .modified ∨
      it.op = .modified ∧ P.st it.rel = some .unversioned ∧ (rewriteOp P es it).op = .added := by
  simp only [rewriteOp]
  split
  · rename_i hu
    simp only [Bool.and_eq_true, decide_eq_true_eq] at hu
    split
    · exact .inr (.inl rfl)
    · exact .inr (.inr ⟨hu.1, hu.2, rfl⟩)
  · split
    · exact .inr (.inl rfl)
    · exact .inl rfl

lemma sameStamp_rewriteOp (P : Pass) (es : List Entry) (it : StageItem) :
    SameStamp (intentItem it) (intentItem (rewriteOp P es it)) := by
  simp only [rewriteOp]
  split <;> split <;> exact ⟨rfl, rfl, rfl⟩

lemma sameStamp_rewriteRename (it : StageItem) (fate : RenameFate) :
    SameStamp (intentItem it) (intentItem (rewriteRename it fate)) := by
  cases fate <;> exact ⟨rfl, rfl, rfl⟩

lemma atMost_rewriteOp (P : Pass) (es : List Entry) {it : StageItem}
    (h : it.op = .modified → P.st it.rel ≠ some .unversioned) :
    AtMost (intentItem it) (intentItem (rewriteOp P es it)) := by
  rcases rewriteOp_cases P es it with ho | ho | ⟨hm, hu, _⟩
  · exact .inl ⟨ho, rewriteOp_oldRel P es it⟩
  · by_cases hm : it.op = .modified
    · exact .inl ⟨ho.trans hm.symm, rewriteOp_oldRel P es it⟩
    · refine .inr ?_
      simp only [Lower, intentItem, ho]
      cases hop : it.op <;> simp_all [rank]
  · exact (h hm hu).elim

lemma atMost_rewriteRename (P : Pass) (es : List Entry) {it : StageItem} (hr : it.op = .renamed) (fate : RenameFate) :
    AtMost (intentItem it) (intentItem (rewriteOp P es (rewriteRename it fate))) := by
  cases fate with
  | valid | degraded => exact atMost_rewriteOp P es (by simp [hr])
  | added | recovered =>
    refine .inr ?_
    simp only [Lower, intentItem, hr]
    rcases rewriteOp_cases P es (rewriteRename it _) with ho | ho | ⟨_, _, ho⟩
    · rw [ho]
      simp [rewriteRename, rank]
    · rw [ho]
      decide
    · rw [ho]
      decide

variable (hp : tryCommitLocked P staging = .ok (some plan))
include hp

lemma plan_item (hv : ∀ it ∈ items staging, it.op = .modified → P.st it.rel ≠ some .unversioned) {x : StageItem}
    (hx : x ∈ plan.items) :
    ∃ it ∈ items staging, SameStamp (intentItem it) (intentItem x) ∧ AtMost (intentItem it) (intentItem x) := by
  obtain ⟨_, es, hes, rfl⟩ := tryCommitLocked_eq_plan hp
  obtain ⟨e, he, rfl⟩ := mem_map.mp hx
  obtain ⟨it, hit, hs⟩ := (mem_of_mapM_eq_ok hes).mp he
  have hmem := (mem_batch hit).1
  refine ⟨it, hmem, ?_⟩
  rcases settleRename_eq_ok.mp hs with ⟨_, rfl⟩ | ⟨hr, fate, _, rfl⟩
  · exact ⟨sameStamp_rewriteOp P es it, atMost_rewriteOp P es (hv it hmem)⟩
  · exact ⟨(sameStamp_rewriteRename it fate).trans (sameStamp_rewriteOp P es _), atMost_rewriteRename P es hr fate⟩

section

variable (hk : Keyed staging)
include hk

lemma plan_rels_nodup : (plan.items.map StageItem.rel).Nodup := by
  obtain ⟨_, es, hes, rfl⟩ := tryCommitLocked_eq_plan hp
  have hrels : es.map (fun e => e.item.rel) = (batch P staging).map StageItem.rel := by
    refine map_of_mapM_eq_ok ?_ hes
    intro it e hs
    rcases settleRename_eq_ok.mp hs with ⟨_, rfl⟩ | ⟨_, fate, _, rfl⟩
    · rfl
    · exact rewriteRename_rel it fate
  have hmap : (es.map (fun e => rewriteOp P es e.item)).map StageItem.rel = es.map (fun e => e.item.rel) := by
    simp [map_map, Function.comp_def]
  rw [hmap, hrels]
  have hpending : ((pending P staging).map StageItem.rel).Nodup := by
    refine ((pending_perm P staging).map StageItem.rel).nodup_iff.mpr ?_
    exact (filter_sublist.map StageItem.rel).nodup (items_rel_nodup hk)
  exact ((batch_sub P staging).sublist.map StageItem.rel).nodup hpending

lemma restage_item {x : StageItem} (hx : x ∈ plan.items) : (restage staging plan).lookup x.rel = some x :=
  (lookup_foldl_insert (plan_rels_nodup hp hk)).mpr (.inl ⟨hx, rfl⟩)

lemma follows_restage (hv : ∀ it ∈ items staging, it.op = .modified → P.st it.rel ≠ some .unversioned) :
    Follows staging (restage staging plan) := by
  intro k x hl
  rcases (lookup_foldl_insert (plan_rels_nodup hp hk)).mp hl with ⟨hx, rfl⟩ | ⟨_, hl⟩
  · obtain ⟨it, hit, hs, hkeep⟩ := plan_item hp hv hx
    obtain ⟨k, hlk⟩ := mem_items.mp hit
    have hrel : k = x.rel := (hk k it hlk).symm.trans hs.rel
    exact ⟨it, hrel ▸ hlk, hs, hkeep⟩
  · exact .refl hl

lemma after_restage (hk' : Keyed (restage staging plan)) {x : IntentItem}
    (hx : x ∈ intentItems plan) : After AtMost x (restage staging plan) := by
  obtain ⟨it, hit, rfl⟩ := mem_map.mp hx
  intro k y hl hs
  have hrel : it.rel = k := hs.rel.trans (hk' k y hl)
  have hself := restage_item hp hk (mem_filter.mp hit).1
  rw [hrel, hl] at hself
  cases hself
  exact .refl _

end

end Passes

lemma sameGeneration_iff {cur : StageItem} {x : IntentItem} : sameGeneration cur x = true ↔
      cur.oldRel = x.oldRel ∧ cur.op = x.op ∧ cur.firstSeen = x.firstSeen ∧ cur.lastSeen = x.lastSeen := by
  simp only [sameGeneration, Bool.and_eq_true, decide_eq_true_eq, and_assoc]

variable (wc : Path) (d : Disk) (clean : Path → Bool)

lemma follows_insert {staging : Staging} {k : Path} {cur it : StageItem} (hcur : staging.lookup k = some cur)
    (hs : SameStamp (intentItem cur) (intentItem it)) (hl : Lower (intentItem cur) (intentItem it)) :
    Follows staging (staging.insert k it) := by
  intro k' x hx
  rcases lookup_insert_eq_some.mp hx with ⟨rfl, rfl⟩ | ⟨_, hx⟩
  · exact ⟨cur, hcur, hs, .inr hl⟩
  · exact .refl hx

lemma follows_retireItem (staging : Staging) (x : IntentItem) : Follows staging (retireItem wc d clean staging x) := by
  rw [retireItem]
  split
  · exact .refl _
  · rename_i cur hcur
    split
    · exact .refl _
    · rename_i hgen
      simp only [Bool.not_eq_true', Bool.not_eq_false, sameGeneration_iff] at hgen
      split
      · intro k it hl
        exact .refl (lookup_erase_eq_some.mp hl).2
      · split
        · rename_i hop
          refine follows_insert hcur ⟨rfl, rfl, rfl⟩ ?_
          simp only [Bool.or_eq_true, decide_eq_true_eq] at hop
          simp only [Lower, intentItem, hgen.2.1]
          rcases hop with ho | ho <;> rw [ho] <;> decide
        · split
          · rename_i hop
            refine follows_insert hcur ⟨rfl, rfl, rfl⟩ ?_
            simp only [Bool.and_eq_true, decide_eq_true_eq] at hop
            simp only [Lower, intentItem, hgen.2.1, hop.1]
            decide
          · exact .refl _

lemma follows_retireItems (staging : Staging) (its : List IntentItem) :
    Follows staging (retireItems wc d clean staging its) :=
  run_invariant (retireItem wc d clean) (I := fun q => Follows staging q)
    (fun q x h => h.trans (follows_retireItem wc d clean q x)) (Follows.refl staging) its

def Once (op : OpType) : Prop := op = .added ∨ op = .renamed ∨ op = .deleted

lemma after_retireItem {staging : Staging} {x : IntentItem} (hk : Keyed staging) (ho : Once x.op)
    (hd : x.op = .deleted → d.lstat (joinPath wc x.rel) ≠ .error .other) (h : After AtMost x staging) :
    After Lower x (retireItem wc d clean staging x) := by
  intro k y hl hs
  obtain ⟨y₀, hl₀, hs₀, hk₀⟩ := follows_retireItem wc d clean staging x k y hl
  have hrel : k = x.rel := (hk k y₀ hl₀).symm.trans (hs.trans hs₀.symm).rel.symm
  rcases h k y₀ hl₀ (hs.trans hs₀.symm) with ⟨hop, hold⟩ | hlow
  · subst hrel
    have hgen : sameGeneration y₀ x = true :=
      sameGeneration_iff.mpr ⟨hold, hop, (hs.trans hs₀.symm).firstSeen.symm, (hs.trans hs₀.symm).lastSeen.symm⟩
    simp only [retireItem, hl₀, hgen, Bool.not_true, Bool.false_eq_true, if_false] at hl
    split at hl
    · simp at hl
    · rename_i hgone
      split at hl
      · rename_i hmove
        rw [lookup_insert] at hl
        cases hl
        simp only [Bool.or_eq_true, decide_eq_true_eq] at hmove
        rcases hmove with hm | hm <;> simp [Lower, intentItem, hm, rank]
      · rename_i hmove
        simp only [Bool.or_eq_true, decide_eq_true_eq, not_or] at hmove
        have hdel : x.op = .deleted := by
          rcases ho with ho | ho | ho
          · exact (hmove.2 ho).elim
          · exact (hmove.1 ho).elim
          · exact ho
        split at hl
        · rw [lookup_insert] at hl
          cases hl
          simp [Lower, intentItem, hdel, rank]
        · rename_i hexists
          simp only [hdel, decide_true, Bool.true_and, Bool.or_eq_true, not_or] at hgone hexists
          cases hst : d.lstat (joinPath wc x.rel) with
          | ok info => simp [hst, Except.isOk, Except.toBool] at hexists
          | error err =>
            cases err with
            | notExist => simp [Disk.absent, hst] at hgone
            | other => exact (hd hdel hst).elim
  · exact hlow.trans_atMost hk₀

lemma after_retireItems {staging : Staging} {its : List IntentItem} {x : IntentItem} (hx : x ∈ its)
    (hk : Keyed staging) (ho : Once x.op) (hd : x.op = .deleted → d.lstat (joinPath wc x.rel) ≠ .error .other)
    (h : After AtMost x staging) : After Lower x (retireItems wc d clean staging its) := by
  obtain ⟨pre, post, rfl⟩ := append_of_mem hx
  have hpre := follows_retireItems wc d clean staging pre
  have hmid := after_retireItem wc d clean (hpre.keyed hk) ho hd (h.follows AtMost.trans hpre)
  rw [retireItems, foldl_append, foldl_cons]
  exact hmid.follows Lower.trans_atMost (follows_retireItems wc d clean _ post)

variable {a : Account} {s s' : Machine} {e : Action a} {i j : CommitIntent} {control : Control} {es : List (Action a)}

def Machine.queues (s : Machine) : List Staging := [s.staging, s.cache]

lemma Machine.staging_mem (s : Machine) : s.staging ∈ s.queues := by simp [queues]

lemma Machine.cache_mem (s : Machine) : s.cache ∈ s.queues := by simp [queues]

lemma forall_pair {P : Staging → Prop} {q q' : Staging} (h : P q) (h' : P q') : ∀ x ∈ [q, q'], P x := by simp [h, h']

def Unfinished (a : Account) (s : Machine) (i : CommitIntent) : Prop :=
  ∃ j, s.journal = written a j ∧ j.phase ≠ .done ∧ j.base = i

def Current (a : Account) (s : Machine) (i : CommitIntent) : Prop := s.control = .prepared i ∨ Unfinished a s i

def Precedes (i c : CommitIntent) : Prop :=
  ∀ x ∈ i.items, Once x.op → ∀ y ∈ c.items, SameStamp x y → Lower x y

structure Ledger (a : Account) (s : Machine) : Prop where
  keyed : ∀ q ∈ s.queues, Keyed q
  stamps : ∀ q ∈ s.queues, ∀ k it, q.lookup k = some it → it.lastSeen ≤ s.clock
  issued : ∀ i ∈ s.issued, ∀ x ∈ i.items, x.lastSeen ≤ s.clock
  held : ∀ i, Current a s i → ∀ x ∈ i.items, ∀ q ∈ s.queues, After AtMost x q
  settled : ∀ i, some i ∈ s.revisions →
    Unfinished a s i ∨ ∀ x ∈ i.items, Once x.op → ∀ q ∈ s.queues, After Lower x q
  ahead : ∀ c, Current a s c → ∀ i, some i ∈ s.revisions → i ≠ c → Precedes i c
  ordered : (s.revisions.filterMap id).Pairwise Precedes
  retired : ∀ j, s.control = .retired j → ∀ x ∈ j.items, Once x.op → After Lower x s.staging
  closing : ∀ j, s.control = .closing j → ∀ x ∈ j.items, Once x.op → ∀ q ∈ s.queues, After Lower x q

lemma Inv.current_issued (h : Inv a s) (hc : Current a s i) : i ∈ s.issued := by
  rcases hc with hc | ⟨j, hj, _, rfl⟩
  · have hctl := h.control
    rw [hc] at hctl
    exact hctl.1
  · exact (h.journal j hj).1

section

variable (h : Ledger a s)
include h

lemma Ledger.requeue (hi : Inv a s) {staging cache : Staging} {now clock : Time}
    (hnow : s.clock < now) (hclock : s.clock ≤ clock) (hk : ∀ q ∈ [staging, cache], Keyed q)
    (hs : ∀ q ∈ [staging, cache], ∀ k it, q.lookup k = some it → it.lastSeen ≤ clock)
    (hq : ∀ q ∈ [staging, cache], ∃ q₀ ∈ s.queues, Renews now q₀ q)
    (hp : ∀ i, control = .prepared i → s.control = .prepared i)
    (hr : ∀ j, control = .retired j → ∀ x ∈ j.items, Once x.op → After Lower x staging)
    (hc : ∀ j, control = .closing j → ∀ x ∈ j.items, Once x.op → ∀ q ∈ [staging, cache], After Lower x q) :
    Ledger a { s with staging := staging, cache := cache, clock := clock, control := control } := by
  have hcur : ∀ i, Current a { s with staging := staging, cache := cache, clock := clock, control := control } i →
      Current a s i := fun i => Or.imp_left (hp i)
  refine ⟨hk, hs, fun i hm x hx => (h.issued i hm x hx).trans hclock, ?_, ?_, ?_, h.ordered, hr, hc⟩
  · intro i hcurrent x hx q hqm
    obtain ⟨q₀, hq₀, hren⟩ := hq q hqm
    have hold := hcur i hcurrent
    exact (h.held i hold x hx q₀ hq₀).renews AtMost.trans hren
      ((h.issued i (hi.current_issued hold) x hx).trans_lt hnow)
  · intro i hrev
    refine (h.settled i hrev).imp_right ?_
    intro hlow x hx ho q hqm
    obtain ⟨q₀, hq₀, hren⟩ := hq q hqm
    exact (hlow x hx ho q₀ hq₀).renews Lower.trans_atMost hren
      ((h.issued i (hi.calls i (hi.revs i hrev)) x hx).trans_lt hnow)
  · intro c hcurrent
    exact h.ahead c (hcur c hcurrent)

lemma Ledger.follow (hi : Inv a s) {staging cache : Staging}
    (hq : ∀ q ∈ [staging, cache], ∃ q₀ ∈ s.queues, Follows q₀ q)
    (hp : ∀ i, control = .prepared i → s.control = .prepared i)
    (hr : ∀ j, control = .retired j → ∀ x ∈ j.items, Once x.op → After Lower x staging)
    (hc : ∀ j, control = .closing j → ∀ x ∈ j.items, Once x.op → ∀ q ∈ [staging, cache], After Lower x q) :
    Ledger a { s with staging := staging, cache := cache, control := control } := by
  refine h.requeue hi (Nat.lt_succ_self s.clock) le_rfl ?_ ?_ ?_ hp hr hc
  · intro q hqm
    obtain ⟨q₀, hq₀, hf⟩ := hq q hqm
    exact hf.keyed (h.keyed q₀ hq₀)
  · intro q hqm k it hl
    obtain ⟨q₀, hq₀, hf⟩ := hq q hqm
    obtain ⟨it₀, hl₀, hs, _⟩ := hf k it hl
    exact hs.lastSeen.ge.trans (h.stamps q₀ hq₀ k it₀ hl₀)
  · intro q hqm
    obtain ⟨q₀, hq₀, hf⟩ := hq q hqm
    exact ⟨q₀, hq₀, hf.renews _⟩

lemma Ledger.proceed (hi : Inv a s) (hp : ∀ i, control ≠ .prepared i)
    (hr : ∀ j, control ≠ .retired j) (hc : ∀ j, control ≠ .closing j) : Ledger a { s with control := control } :=
  h.follow hi (fun q hq => ⟨q, hq, Follows.refl q⟩) (fun i he => (hp i he).elim) (fun j he => (hr j he).elim)
    (fun j he => (hc j he).elim)

lemma Ledger.foreign : Ledger a { s with revisions := s.revisions ++ [none] } := by
  have hmem : ∀ x : CommitIntent, some x ∈ s.revisions ++ [none] ↔ some x ∈ s.revisions := by simp
  refine { h with settled := ?_, ahead := ?_, ordered := ?_ }
  · intro i hrev
    exact h.settled i ((hmem i).mp hrev)
  · intro c hc i hrev
    exact h.ahead c hc i ((hmem i).mp hrev)
  · simpa using h.ordered

lemma Ledger.landed (hi : Inv a s) (hfly : i ∈ s.inFlight) :
    Ledger a { s with inFlight := s.inFlight.erase i, revisions := s.revisions ++ [some i] } := by
  obtain ⟨hcall, hj, hnew⟩ := hi.flying i hfly
  have hbase := hi.made i (hi.calls i hcall)
  have hun : Unfinished a s i := ⟨i, hj, by simp [phase_of_base hbase], hbase⟩
  have honly : ∀ c, Current a s c → c = i := by
    intro c hc
    rcases hc with hc | ⟨j, hj', _, rfl⟩
    · have hctl := hi.control
      rw [hc] at hctl
      exact nomatch (phase_of_base hbase).symm.trans (hctl.2.2 i hj).1
    · rw [← written_injective (hj.symm.trans hj')]
      exact hbase
  have hmem : ∀ x : CommitIntent, some x ∈ s.revisions ++ [some i] → some x ∈ s.revisions ∨ x = i := by simp
  refine { h with settled := ?_, ahead := ?_, ordered := ?_ }
  · intro x hx
    rcases hmem x hx with hx | rfl
    · exact h.settled x hx
    · exact .inl hun
  · intro c hc x hx hne
    rcases hmem x hx with hx | rfl
    · exact h.ahead c hc x hx hne
    · exact (hne (honly c hc).symm).elim
  · simp only [filterMap_append, filterMap_cons, id, filterMap_nil]
    refine pairwise_append.mpr ⟨h.ordered, pairwise_singleton _ _, ?_⟩
    intro x hx y hy
    obtain ⟨o, ho, hox⟩ := mem_filterMap.mp hx
    have hrev : some x ∈ s.revisions := hox ▸ ho
    rw [mem_singleton.mp hy]
    refine h.ahead i (.inr hun) x hrev ?_
    rintro rfl
    exact hnew hrev

lemma Ledger.prepared {P : Pass} {t : Attempt a} {plan : Plan} (hp : tryCommitLocked P s.staging = .ok (some plan))
    (hv : ∀ it ∈ items s.staging, it.op = .modified → P.st it.rel ≠ some .unversioned)
    (hnew : newIntent a t plan = .ok i) (hstored : t.stored = s.journal) :
    Ledger a { s with
      staging := restage s.staging plan, cache := restage s.staging plan, control := .prepared i,
      issued := i :: s.issued } := by
  have hk : Keyed s.staging := h.keyed s.staging s.staging_mem
  have hf := follows_restage hp hk hv
  have hk' := hf.keyed hk
  have hstamp : ∀ k it, (restage s.staging plan).lookup k = some it → it.lastSeen ≤ s.clock := by
    intro k it hl
    obtain ⟨it₀, hl₀, hs, _⟩ := hf k it hl
    exact hs.lastSeen.ge.trans (h.stamps s.staging s.staging_mem k it₀ hl₀)
  have hitems : ∀ y ∈ i.items, ∃ it, (restage s.staging plan).lookup it.rel = some it ∧ intentItem it = y := by
    intro y hy
    rw [(newIntent_eq_ok hnew).2.2.2.2.2] at hy
    obtain ⟨it, hit, rfl⟩ := mem_map.mp hy
    exact ⟨it, restage_item hp hk (mem_filter.mp hit).1, rfl⟩
  have hfinished : ∀ c, ¬ Unfinished a s c := by
    rintro c ⟨j, hj, hphase, _⟩
    exact hphase ((newIntent_admitted hnew).2 j (hstored.trans hj))
  have hlow : ∀ r, some r ∈ s.revisions → ∀ x ∈ r.items, Once x.op → After Lower x (restage s.staging plan) := by
    intro r hr x hx ho
    have hold := (h.settled r hr).resolve_left (hfinished r) x hx ho s.staging s.staging_mem
    exact hold.follows Lower.trans_atMost hf
  refine ⟨?_, ?_, ?_, ?_, ?_, ?_, h.ordered, nofun, nofun⟩
  · exact forall_pair hk' hk'
  · exact forall_pair hstamp hstamp
  · intro r hr x hx
    rcases mem_cons.mp hr with rfl | hr
    · obtain ⟨it, hl, rfl⟩ := hitems x hx
      exact hstamp _ it hl
    · exact h.issued r hr x hx
  · intro c hc x hx
    rcases hc with hc | hc
    · cases hc
      rw [(newIntent_eq_ok hnew).2.2.2.2.2] at hx
      have hafter := after_restage hp hk hk' hx
      exact forall_pair hafter hafter
    · exact (hfinished c hc).elim
  · intro r hr
    refine .inr ?_
    intro x hx ho
    exact forall_pair (hlow r hr x hx ho) (hlow r hr x hx ho)
  · intro c hc r hr _ x hx ho y hy hs
    rcases hc with hc | hc
    · cases hc
      obtain ⟨it, hl, rfl⟩ := hitems y hy
      exact hlow r hr x hx ho _ it hl hs
    · exact (hfinished c hc).elim

lemma Ledger.armed (hi : Inv a s) (hs : s.control = .prepared i) :
    Ledger a { s with journal := written a i, control := .armed i } := by
  have hctl := hi.control
  rw [hs] at hctl
  obtain ⟨hissued, _, hold⟩ := hctl
  have hcur : ∀ c, Current a { s with journal := written a i, control := .armed i } c → Current a s c := by
    rintro c (hc | ⟨j, hj, _, rfl⟩)
    · cases hc
    · cases written_injective hj
      rw [hi.made i hissued]
      exact .inl hs
  refine { h with
    held := fun c hc => h.held c (hcur c hc), settled := ?_, ahead := fun c hc => h.ahead c (hcur c hc),
    retired := nofun, closing := nofun }
  intro r hr
  refine .inr ((h.settled r hr).resolve_left ?_)
  rintro ⟨j, hj, hphase, _⟩
  exact hphase (hold j hj).1

lemma Ledger.replaced (hj : s.journal = written a i) (hphase : i.phase ≠ .done) (hb : j.base = i.base)
    (hdone : j.phase = .done → some j.base ∈ s.revisions → ∀ x ∈ j.items, Once x.op → ∀ q ∈ s.queues, After Lower x q)
    (hp : ∀ i, control ≠ .prepared i) (hr : ∀ j, control ≠ .retired j) (hc : ∀ j, control ≠ .closing j) :
    Ledger a { s with journal := written a j, control := control } := by
  have hcur : ∀ c, Current a { s with journal := written a j, control := control } c → Current a s c := by
    rintro c (hctl | ⟨j', hj', _, rfl⟩)
    · exact (hp c hctl).elim
    · cases written_injective hj'
      exact .inr ⟨i, hj, hphase, hb.symm⟩
  refine { h with
    held := fun c hc => h.held c (hcur c hc), settled := ?_, ahead := fun c hc => h.ahead c (hcur c hc),
    retired := fun j he => (hr j he).elim, closing := fun j he => (hc j he).elim }
  intro r hrev
  rcases h.settled r hrev with ⟨j', hj', _, rfl⟩ | hlow
  · cases written_injective (hj.symm.trans hj')
    by_cases hd : j.phase = .done
    · have hitems : i.base.items = j.base.items := congrArg CommitIntent.items hb.symm
      rw [← hb] at hrev
      refine .inr ?_
      rw [hitems]
      exact hdone hd hrev
    · exact .inl ⟨j, rfl, hd, hb⟩
  · exact .inr hlow

end

/-- Entries are only touched at later times, no queued modification is unknown to SVN, and published removals can be
told from existing paths. -/
def Lasting (s : Machine) : Action a → Prop
  | .queue now staging => s.clock < now ∧ Keyed staging ∧ Renews now s.staging staging
  | .flush P _ => ∀ it ∈ items s.staging, it.op = .modified → P.st it.rel ≠ some .unversioned
  | .retire d _ => ∀ j, s.control = .finishing j → ∀ x ∈ j.items, x.op = .deleted →
      d.lstat (joinPath a.wc x.rel) ≠ .error .other
  | _ => True

lemma Ledger.queued (h : Ledger a s) (hi : Inv a s) {now : Time} {staging : Staging} (hnow : s.clock < now)
    (hk : Keyed staging) (hr : Renews now s.staging staging) :
    Ledger a { s with staging := staging, clock := now } := by
  have hcached : Renews now s.cache s.cache := (Follows.refl s.cache).renews now
  have hlate : ∀ j, s.journal = written a j → ∀ x ∈ j.items, x.lastSeen < now := by
    intro j hj x hx
    exact (h.issued j.base (hi.journal j hj).1 x hx).trans_lt hnow
  have hctl := hi.control
  refine h.requeue hi hnow hnow.le (forall_pair hk (h.keyed s.cache s.cache_mem)) (forall_pair ?_ ?_)
    (forall_pair ⟨s.staging, s.staging_mem, hr⟩ ⟨s.cache, s.cache_mem, hcached⟩) (fun _ hp => hp) ?_ ?_
  · intro k it hl
    rcases hr k it hl with hfresh | ⟨it₀, hl₀, hs, _⟩
    · exact hfresh.le
    · exact (hs.lastSeen.ge.trans (h.stamps s.staging s.staging_mem k it₀ hl₀)).trans hnow.le
  · intro k it hl
    exact (h.stamps s.cache s.cache_mem k it hl).trans hnow.le
  · intro j hc x hx ho
    rw [hc] at hctl
    exact (h.retired j hc x hx ho).renews Lower.trans_atMost hr (hlate j hctl.1 x hx)
  · intro j hc x hx ho
    rw [hc] at hctl
    refine forall_pair ?_ (h.closing j hc x hx ho s.cache s.cache_mem)
    exact (h.closing j hc x hx ho s.staging s.staging_mem).renews Lower.trans_atMost hr
      (hlate j hctl.1 x hx)

lemma Ledger.turn (h : Ledger a s) (hi : Inv a s) (hl : Lasting s e) (ht : Turn a s e s') : Ledger a s' := by
  have hctl := hi.control
  cases ht with
  | stays => exact h
  | gaveUp | refused | emptied | found | resumed => exact h.proceed hi (by simp) (by simp) (by simp)
  | queued now staging => exact h.queued hi hl.1 hl.2.1 hl.2.2
  | saved =>
    have hone : ∀ q ∈ [s.staging, s.staging], q ∈ s.queues := by simp [queues]
    refine h.follow hi (fun q hq => ⟨q, hone q hq, Follows.refl q⟩) (fun _ hp => hp) h.retired ?_
    intro j hc x hx ho q hq
    exact h.closing j hc x hx ho q (hone q hq)
  | crashed =>
    refine h.follow hi (forall_pair ?_ ?_) (by simp) (by simp) (by simp)
    · exact ⟨s.cache, s.cache_mem, follows_loadCache s.cache⟩
    · exact ⟨s.cache, s.cache_mem, .refl s.cache⟩
  | foreign => exact h.foreign
  | landed _ hfly => exact h.landed hi hfly
  | aborted => exact { h with }
  | restaged hs hp =>
    refine h.follow hi (forall_pair ?_ ?_) (fun _ hp => hp) (by simp [hs]) (by simp [hs])
    · exact ⟨s.staging, s.staging_mem, follows_restage hp (h.keyed s.staging s.staging_mem) hl⟩
    · exact ⟨s.cache, s.cache_mem, .refl s.cache⟩
  | prepared _ hp hnew => exact h.prepared hp hl hnew rfl
  | armed hs => exact h.armed hi hs
  | @recorded j hs =>
    rw [hs] at hctl
    obtain ⟨hj, _, _, hphase⟩ := hctl
    refine h.replaced hj (by simp [CommitIntent.base]) rfl ?_ ?_ ?_ ?_
    · intro hd hrev
      rcases hphase with hp | ⟨_, hn⟩
      · exact absurd (hp.symm.trans hd) (by decide)
      · exact (hn hrev).elim
    · intro i hc
      split at hc <;> cases hc
    · intro i hc
      split at hc <;> cases hc
    · intro i hc
      split at hc <;> cases hc
  | @closed j hs =>
    rcases hs with ⟨hs, hp⟩ | hs
    · rw [hs] at hctl
      refine h.replaced hctl.1 (by simp [hp]) rfl ?_ (by simp) (by simp) (by simp)
      intro _ hrev
      exact ((hi.journal j hctl.1).2.2 hp hrev).elim
    · rw [hs] at hctl
      refine h.replaced hctl.1 (by simp [hctl.2]) rfl ?_ (by simp) (by simp) (by simp)
      intro _ _
      exact h.closing j hs
  | called => exact { h.proceed hi (by simp) (by simp) (by simp) with }
  | @retired j d clean hs hp =>
    rw [hs] at hctl
    refine h.follow hi (forall_pair ?_ ?_) (by simp) ?_ (by simp)
    · exact ⟨s.staging, s.staging_mem, follows_retireItems a.wc d clean s.staging j.items⟩
    · exact ⟨s.cache, s.cache_mem, .refl s.cache⟩
    · intro j' hc x hx ho
      cases hc
      have hcurrent : Current a s j.base := .inr ⟨j, hctl.1, by simp [hp], rfl⟩
      exact after_retireItems a.wc d clean hx (h.keyed s.staging s.staging_mem) ho (hl j hs x hx)
        (h.held j.base hcurrent x hx s.staging s.staging_mem)
  | checkpointed hs =>
    have hkept : ∃ q ∈ s.queues, Follows q s.staging := ⟨s.staging, s.staging_mem, .refl _⟩
    refine h.follow hi (forall_pair hkept hkept) (by simp) (by simp) ?_
    intro j hc x hx ho
    cases hc
    have hlow := h.retired _ hs x hx ho
    exact forall_pair hlow hlow

lemma ledger_start (a : Account) : Ledger a {} where
  keyed := forall_pair nofun nofun
  stamps := forall_pair nofun nofun
  issued := by simp
  held := by
    rintro i (hc | ⟨j, hj, _⟩)
    · cases hc
    · cases hj
  settled := by simp
  ahead := by simp
  ordered := List.Pairwise.nil
  retired := nofun
  closing := nofun

def Machine.after (a : Account) (es : List (Action a)) : Machine := run (Machine.step a) {} es

def SameGeneration (x y : IntentItem) : Prop := SameStamp x y ∧ x.oldRel = y.oldRel ∧ x.op = y.op

lemma Machine.after_append (a : Account) (es : List (Action a)) (e : Action a) :
    after a (es ++ [e]) = (after a es).step a e := run_append _ _ _ _

lemma inv_along (h : Admits (step a) FreshID {} es) : Along (step a) (Inv a) {} es :=
  along_of_admits (step a) (fun s e hi hf => hi.turn hf (turn_step a s e)) (inv_start a) h

lemma ledger_along (h : Admits (step a) FreshID {} es) (hl : Admits (step a) Lasting {} es) :
    Along (step a) (fun s => Inv a s ∧ Ledger a s) {} es := by
  refine along_of_admits (step a) ?_ ⟨inv_start a, ledger_start a⟩ (h.and (step a) hl)
  rintro s e ⟨hi, hs⟩ ⟨hf, he⟩
  exact ⟨hi.turn hf (turn_step a s e), hs.turn hi he (turn_step a s e)⟩

lemma Precedes.not_sameGeneration (h : Precedes i j) {x y : IntentItem} (hx : x ∈ i.items)
    (ho : Once x.op) (hy : y ∈ j.items) : ¬ SameGeneration x y := by
  rintro ⟨hs, _, hop⟩
  have hlow := h x hx ho y hy hs
  rw [Lower, hop] at hlow
  exact lt_irrefl _ hlow

def numbered (id : String) (h : id ≠ "") : Attempt legacyAccount where
  head := some 0
  newID := id
  newID_parses := by simpa [legacyAccount] using h
  reply := .replied 0

def calmDisk : Disk where
  lstat := fun _ => .ok {}
  stat := fun _ => .ok {}
  hash := fun _ => none

def oneQueued (op : OpType) : Staging :=
  AList.singleton "a.txt"
    { rel := "a.txt", abs := "/wc/a.txt", op := op, firstSeen := 1, lastSeen := 1 }

def newFileThen (rest : List (Action legacyAccount)) : List (Action legacyAccount) :=
  [.queue 1 (oneQueued .added), .flush (legacyPass [⟨"a.txt", .unversioned⟩]) (numbered "t1" (by decide)),
    .write] ++ rest

def lostReply : List (Action legacyAccount) :=
  newFileThen [.call true, .crash, .land "t1", .recover, .write, .retire calmDisk (fun _ => false), .checkpoint, .write]

def journalPhase (s : Machine) : Option Phase :=
  match s.journal with
  | .regular _ (some i) => some i.phase
  | _ => none

def publishedBy (P : Pass) (d : Disk) (id : String) (h : id ≠ "") : List (Action legacyAccount) :=
  [.flush P (numbered id h), .write, .call true, .land id, .replied, .write, .retire d (fun _ => false), .checkpoint,
    .write]

def publishedAgain (op : OpType) (first second : Client.StatusItem) (d : Disk) : List (Action legacyAccount) :=
  .queue 1 (oneQueued op) :: (publishedBy (legacyPass [⟨"a.txt", first⟩]) d "t1" (by decide) ++
    publishedBy (legacyPass [⟨"a.txt", second⟩]) d "t2" (by decide))

def publishedItems (es : List (Action legacyAccount)) : List (Option (List IntentItem)) :=
  (Machine.after legacyAccount es).revisions.map (Option.map CommitIntent.items)

end FileES.Commit
