import FileES.PathOwnership.Identity

/-! Whose the files of a snapshot are. -/

namespace FileES.PathOwnership

open Go Lib.Fallible Lib.Maps List Option AList

def treeAt (H : Hash) (repo : Str) (revisions : List Revision) (k : ℕ) : Tree :=
  match replayAll H repo (ordered revisions) ((ordered revisions).take k) with
  | .ok s => s.tree
  | .error _ => ∅

def sourceAt (H : Hash) (repo : Str) (revisions : List Revision) (c : Change) : Tree :=
  treeAt H repo revisions c.copyRevision.toNat

/-- Subversion neither adds nor replaces the root of a repository. -/
def WellFormed (revisions : List Revision) : Prop :=
  ∀ rev ∈ revisions, ∀ c ∈ rev.changes, c.adds = true → c.path ≠ ['/']

instance (revisions : List Revision) : Decidable (WellFormed revisions) := by
  unfold WellFormed
  infer_instance

def Commits (revisions : List Revision) (n : ℕ) (author : Str) : Prop :=
  ∃ rev ∈ revisions, rev.number = n ∧ rev.author = author

variable {i : ℕ} {c : Change}

lemma checkRevisions_ok {revisions : List Revision} {u : Unit} (h : checkRevisions i revisions = .ok u) (k : ℕ)
    (hk : k < revisions.length) : checkRevision (i + k) revisions[k] = .ok () := by
  induction revisions generalizing i k with
  | nil => cases hk
  | cons rev rest ih =>
    rw [checkRevisions] at h
    obtain ⟨_, hrev, h⟩ := bind_ok.mp h
    cases k with
    | zero => exact hrev
    | succ k =>
      have := ih h k (by simpa using hk)
      rw [show i + (k + 1) = i + 1 + k by omega]
      exact this

lemma checkRevision_ok {rev : Revision} (h : checkRevision i rev = .ok ()) :
    rev.number = (i : ℤ) + 1 ∧ ∀ c ∈ rev.changes, checkChange rev.number c = .ok () := by
  obtain ⟨_, hnumber, us, hchanges, _⟩ := bind₂_ok.mp h
  refine ⟨by simpa using require_ok.mp hnumber, ?_⟩
  intro c hc
  obtain ⟨_, _, hcheck⟩ := exists_of_mapM_eq_ok hchanges hc
  exact hcheck

lemma checkChange_ok {number : ℤ} (h : checkChange number c = .ok ()) :
    Rooted c.path ∧ (c.copyFrom ≠ [] → Rooted c.copyFrom ∧ 0 ≤ c.copyRevision ∧ c.copyRevision < number ∧ c.adds = true) := by
  obtain ⟨_, hpath, hcopy⟩ := bind_ok.mp h
  replace hpath := require_ok.mp hpath
  replace hcopy := require_ok.mp hcopy
  rw [Bool.and_eq_true] at hpath
  refine ⟨rooted_of_canonical hpath.1, ?_⟩
  intro hne
  simp only [hne, decide_false, Bool.false_or, Bool.and_eq_true, decide_eq_true_eq] at hcopy
  exact ⟨rooted_of_canonical hcopy.1.1.1, hcopy.1.1.2, hcopy.1.2, hcopy.2⟩

variable {H : Hash} {repo : Str} {revisions : List Revision} {s s' : State} {rev : Revision}

lemma retain_ok (h : retain revisions rev s = .ok s') : s'.tree = s.tree ∧ ∀ r t, s'.history.lookup r = some t →
    s.history.lookup r = some t ∨ (r = rev.number ∧ t = s.tree) := by
  unfold retain at h
  split at h
  · obtain ⟨_, _, h⟩ := bind_ok.mp h
    cases h
    refine ⟨rfl, ?_⟩
    intro r t ht
    rcases lookup_insert_eq_some.mp ht with ⟨rfl, rfl⟩ | ⟨_, ht⟩
    · exact .inr ⟨rfl, rfl⟩
    · exact .inl ht
  · cases h
    exact ⟨rfl, fun r t ht => .inl ht⟩

lemma foldl_release (revisions : List Revision) (rev : Revision) (s : State) (cs : List Change) : (cs.foldl (release revisions rev) s).tree = s.tree ∧
    ∀ r t, (cs.foldl (release revisions rev) s).history.lookup r = some t → s.history.lookup r = some t := by
  induction cs generalizing s with
  | nil => exact ⟨rfl, fun r t ht => ht⟩
  | cons c cs ih =>
    obtain ⟨htree, hhistory⟩ := ih (release revisions rev s c)
    have hone : (release revisions rev s c).tree = s.tree ∧
        ∀ r t, (release revisions rev s c).history.lookup r = some t → s.history.lookup r = some t := by
      unfold release
      split
      · exact ⟨rfl, fun r t ht => (lookup_erase_eq_some.mp ht).2⟩
      · exact ⟨rfl, fun r t ht => ht⟩
    exact ⟨htree.trans hone.1, fun r t ht => hone.2 r t (hhistory r t ht)⟩

lemma applyRevision_ok (h : applyRevision H repo revisions s rev = .ok s') :
    (sorted rev.changes).foldlM (applyChange H repo s.tree s.history rev (sorted rev.changes))
      (rev.changes.foldl remove s.tree) = .ok s'.tree ∧
    ∀ r t, s'.history.lookup r = some t → s.history.lookup r = some t ∨ (r = rev.number ∧ t = s'.tree) := by
  obtain ⟨tree, htree, s₁, hretain, h⟩ := bind₂_ok.mp h
  cases h
  obtain ⟨hsame, hhistory⟩ := retain_ok hretain
  obtain ⟨hsame', hhistory'⟩ := foldl_release revisions rev s₁ (sorted rev.changes)
  refine ⟨by rw [hsame', hsame, htree], ?_⟩
  intro r t ht
  rw [hsame', hsame]
  exact hhistory r t (hhistory' r t ht)

lemma uses_sorted {source source' : Change → Tree} {changes : List Change}
    (h : ∀ c ∈ changes, c.copyFrom ≠ [] → source c = source' c) (p : Path) (id : Str) :
    uses source (sorted changes) p id = uses source' changes p id := by
  unfold uses sorted
  rw [(perm_insertionSort _ changes).countP_eq]
  apply countP_congr
  intro c hc
  by_cases hcopy : c.copyFrom = []
  · simp [hcopy]
  · rw [h c hc hcopy]

structure Complete (H : Hash) (repo : Str) (revisions : List Revision) : Prop where
  wellFormed : WellFormed revisions
  checked : checkRevisions 0 (ordered revisions) = .ok ()
  replayed : ∃ s, replayAll H repo (ordered revisions) (ordered revisions) = .ok s

section

variable {k : ℕ}

lemma mem_ordered : rev ∈ ordered revisions ↔ rev ∈ revisions := mem_insertionSort _

lemma treeAt_of_ok (h : replayAll H repo (ordered revisions) ((ordered revisions).take k) = .ok s) :
    treeAt H repo revisions k = s.tree := by
  rw [treeAt, h]

lemma sound_rootTree {By : ℕ → Str → Prop} : Sound H repo By 0 (rootTree H repo) := by
  have hroot : ∀ {q o}, (rootTree H repo).lookup q = some o → q = ['/'] ∧ o = newObject H repo 0 [] ['/'] .dir := by
    intro q o hq
    have hmem := mem_entries_iff.mpr hq
    simpa [rootTree, singleton_entries] using hmem
  refine ⟨?_, ?_, ?_⟩
  · intro q o hq
    obtain ⟨rfl, rfl⟩ := hroot hq
    exact ⟨0, ['/'], le_rfl, rfl, rfl, fun _ => rfl, by omega⟩
  · intro q q' o o' hq hq' _
    rw [(hroot hq).1, (hroot hq').1]
  · intro q o hq
    exact ⟨[], by simp, (hroot hq).1⟩

variable (h : Complete H repo revisions)
include h

lemma Complete.state (k : ℕ) : ∃ s, replayAll H repo (ordered revisions) ((ordered revisions).take k) = .ok s := by
  obtain ⟨s, hs⟩ := h.replayed
  exact foldlM_take_eq_ok hs k

lemma Complete.number (hk : k < (ordered revisions).length) : (ordered revisions)[k].number = ((k + 1 : ℕ) : ℤ) := by
  have := (checkRevision_ok (checkRevisions_ok h.checked k hk)).1
  push_cast at this ⊢
  simpa using this

lemma Complete.change (hk : k < (ordered revisions).length) (hc : c ∈ (ordered revisions)[k].changes) :
    c.Proper ∧ (c.copyFrom ≠ [] → c.adds = true ∧ ∃ j ≤ k, c.copyRevision = (j : ℤ)) := by
  obtain ⟨hpath, hcopy⟩ := checkChange_ok ((checkRevision_ok (checkRevisions_ok h.checked k hk)).2 c hc)
  refine ⟨⟨hpath, h.wellFormed _ (mem_ordered.mp (getElem_mem hk)) c hc, fun hne => (hcopy hne).1⟩, ?_⟩
  intro hne
  obtain ⟨_, hlow, hhigh, hadds⟩ := hcopy hne
  rw [h.number hk] at hhigh
  exact ⟨hadds, c.copyRevision.toNat, by omega, by omega⟩

lemma Complete.history (hk : k ≤ (ordered revisions).length)
    (hs : replayAll H repo (ordered revisions) ((ordered revisions).take k) = .ok s) {r : ℤ} {t : Tree}
    (hr : s.history.lookup r = some t) : t = treeAt H repo revisions r.toNat := by
  induction k generalizing s r t with
  | zero =>
    cases hs
    have hmem := mem_entries_iff.mpr hr
    obtain ⟨rfl, rfl⟩ : r = 0 ∧ t = rootTree H repo := by simpa [State.start, singleton_entries] using hmem
    rfl
  | succ k ih =>
    obtain ⟨s₀, hs₀, hstep⟩ := (foldlM_take_succ_eq_ok (by omega)).mp hs
    rcases (applyRevision_ok hstep).2 r t hr with hold | ⟨rfl, rfl⟩
    · exact ih (by omega) hs₀ hold
    · rw [h.number (by omega), Int.toNat_natCast, treeAt_of_ok hs]

lemma Complete.revises (hk : k < (ordered revisions).length) : Revises H repo (sourceAt H repo revisions)
    (treeAt H repo revisions k) (ordered revisions)[k] (treeAt H repo revisions (k + 1)) := by
  obtain ⟨s', hs'⟩ := h.state (k + 1)
  obtain ⟨s, hs, hstep⟩ := (foldlM_take_succ_eq_ok hk).mp hs'
  obtain ⟨hfold, _⟩ := applyRevision_ok hstep
  have hsources : ∀ c ∈ (ordered revisions)[k].changes, c.copyFrom ≠ [] →
      sourceOf s.history c = sourceAt H repo revisions c := by
    intro c hc hcopy
    obtain ⟨t, ht, hsource⟩ := source_of_foldlM hfold (mem_sorted.mpr hc) ((h.change hk hc).2 hcopy).1 hcopy
    rw [hsource, h.history hk.le hs ht]
    rfl
  rw [treeAt_of_ok hs, treeAt_of_ok hs']
  exact revises_of_foldlM (uses_sorted hsources) hsources hfold

lemma Complete.replayed_of_sound (hk : k < (ordered revisions).length)
    (hsound : ∀ j ≤ k, Sound H repo (Commits revisions) j (treeAt H repo revisions j)) :
    Replayed H repo (Commits revisions) k (sourceAt H repo revisions) (treeAt H repo revisions k) (ordered revisions)[k]
      (treeAt H repo revisions (k + 1)) := by
  refine ⟨h.number hk, ?_, hsound k le_rfl, ?_, fun c hc => (h.change hk hc).1, h.revises hk⟩
  · exact ⟨_, mem_ordered.mp (getElem_mem hk), h.number hk, rfl⟩
  · intro c hc hcopy
    obtain ⟨_, j, hj, hrevision⟩ := (h.change hk hc).2 hcopy
    refine ⟨j, hj, ?_⟩
    rw [sourceAt, hrevision, Int.toNat_natCast]
    exact hsound j hj

variable (hinj : Function.Injective H.sum)
include hinj

lemma Complete.sound (hk : k ≤ (ordered revisions).length) :
    Sound H repo (Commits revisions) k (treeAt H repo revisions k) := by
  induction k using Nat.strong_induction_on with
  | _ k ih =>
    cases k with
    | zero => exact sound_rootTree
    | succ k =>
      have hreplayed := h.replayed_of_sound (k := k) (by omega) (fun j hj => ih j (by omega) (by omega))
      exact hreplayed.sound_after hinj

lemma Complete.step (hk : k < (ordered revisions).length) :
    Replayed H repo (Commits revisions) k (sourceAt H repo revisions) (treeAt H repo revisions k) (ordered revisions)[k]
      (treeAt H repo revisions (k + 1)) :=
  h.replayed_of_sound hk (fun _ hj => h.sound hinj (by omega))

lemma Complete.since_birth (hk : k ≤ (ordered revisions).length) {q : Path} {o : Object}
    (hq : (treeAt H repo revisions k).lookup q = some o) {n : ℕ} (hn : o.createdRevision = n) :
    Kept (treeAt H repo revisions n) o := by
  induction k generalizing q o with
  | zero =>
    obtain ⟨m, _, hm, hcreated, _⟩ := (h.sound hinj hk).born q o hq
    obtain rfl : n = 0 := by omega
    exact ⟨q, o, hq, rfl⟩
  | succ k ih =>
    have hsound := h.sound hinj hk
    obtain ⟨m, p, hm, hcreated, hid, _⟩ := hsound.born q o hq
    obtain rfl : n = m := by omega
    rcases Nat.lt_or_ge k n with hlast | hearlier
    · obtain rfl : n = k + 1 := by omega
      exact ⟨q, o, hq, rfl⟩
    have hstep := h.step hinj (k := k) (by omega)
    rcases hstep.place hq with ⟨p₀, o₀, hp₀, hid₀, _⟩ | hnew
    · -- the earlier object has the same identity, so it names the same revision
      obtain ⟨m₀, p₁, _, hcreated₀, hidp, _⟩ := (h.sound hinj (k := k) (by omega)).born p₀ o₀ hp₀
      have hsame : m₀ = n := (objectID_injective hinj (hidp.symm.trans (hid₀.trans hid))).1
      obtain ⟨p₂, o₂, hp₂, hid₂⟩ := ih (by omega) hp₀ (hsame ▸ hcreated₀)
      exact ⟨p₂, o₂, hp₂, hid₂.trans hid₀⟩
    · rw [hnew, h.number (by omega)] at hcreated
      have : ((k + 1 : ℕ) : ℤ) = n := hcreated
      omega

end

variable {tree : Tree} {e : Entry}

lemma mem_entries (he : e ∈ entries tree) : ∃ q, tree.lookup q = some e.object ∧ e.object.kind = .file := by
  rw [entries, mem_insertionSort] at he
  obtain ⟨n, hn, rfl⟩ := mem_map.mp he
  obtain ⟨hn, hkind⟩ := mem_filter.mp hn
  exact ⟨n.1, mem_nodes.mp hn, by simpa using hkind⟩

lemma nodup_nodes : (nodes tree).Nodup := by
  refine List.Nodup.map ?_ tree.nodupKeys.nodup
  rintro ⟨p, o⟩ ⟨p', o'⟩ h
  cases h
  rfl

lemma nodup_entries (h : ∀ q q' o o', tree.lookup q = some o → tree.lookup q' = some o' → o.id = o'.id → q = q') :
    ((entries tree).map (fun e => e.object.id)).Nodup := by
  have hperm := (perm_insertionSort (fun a b : Entry => a.path ≤ b.path)
    (((nodes tree).filter (fun n => n.2.kind = .file)).map (fun n => (⟨trimPrefix n.1 ['/'], n.2⟩ : Entry)))).map
      (fun e => e.object.id)
  rw [entries, hperm.nodup_iff, List.map_map]
  refine List.Nodup.map_on ?_ (nodup_nodes.filter _)
  rintro ⟨q, o⟩ hn ⟨q', o'⟩ hn' hid
  have hq : tree.lookup q = some o := mem_nodes.mp (mem_filter.mp hn).1
  have hq' : tree.lookup q' = some o' := mem_nodes.mp (mem_filter.mp hn').1
  cases h q q' o o' hq hq' hid
  rw [hq, some.injEq] at hq'
  rw [hq']

lemma replay_ok {head : ℤ} {snapshot : Snapshot}
    (hwf : WellFormed revisions) (h : replay H repo head revisions = .ok snapshot) : Complete H repo revisions ∧
      head = (ordered revisions).length ∧ snapshot.entries = entries (treeAt H repo revisions (ordered revisions).length) := by
  obtain ⟨_, _, _, hlength, h⟩ := bind₂_ok.mp h
  obtain ⟨_, hchecked, s, hs, h⟩ := bind₂_ok.mp h
  cases h
  refine ⟨⟨hwf, hchecked, s, hs⟩, ?_, ?_⟩
  · rw [ordered, length_insertionSort]
    exact (by simpa using require_ok.mp hlength : (revisions.length : ℤ) = head).symm
  · rw [treeAt_of_ok (by rw [take_length]; exact hs)]

def FirstAt (trees : ℕ → Tree) (n : ℕ) (o : Object) : Prop := Kept (trees n) o ∧ ∀ j < n, ¬ Kept (trees j) o

/-- Identities are unique, the first committer is the author of the first revision, and an identity survives exactly
where the path is untouched or the object moves. -/
theorem path_ownership_continuous (H : Hash) (hinj : Function.Injective H.sum) (repo : Str) (head : ℤ)
    (revisions : List Revision) (hwf : WellFormed revisions) (snapshot : Snapshot)
    (h : replay H repo head revisions = .ok snapshot) :
    snapshot.entries = entries (treeAt H repo revisions head.toNat) ∧
    (snapshot.entries.map (fun e => e.object.id)).Nodup ∧
    (∀ e ∈ snapshot.entries, ∃ rev ∈ revisions, e.object.createdRevision = rev.number ∧
      e.object.firstCommitter = rev.author ∧ FirstAt (treeAt H repo revisions) rev.number.toNat e.object) ∧
    ∀ rev ∈ revisions, Continues H repo (sourceAt H repo revisions) (treeAt H repo revisions (rev.number - 1).toNat) rev
      (treeAt H repo revisions rev.number.toNat) := by
  obtain ⟨hcomplete, rfl, hentries⟩ := replay_ok hwf h
  have hsound := hcomplete.sound hinj le_rfl
  refine ⟨by rw [hentries, Int.toNat_natCast], ?_, ?_, ?_⟩
  · rw [hentries]
    exact nodup_entries hsound.distinct
  · intro e he
    rw [hentries] at he
    obtain ⟨q, hq, hkind⟩ := mem_entries he
    obtain ⟨n, p, hn, hcreated, hid, hroot, hby⟩ := hsound.born q e.object hq
    have hpos : 0 < n := by
      rcases Nat.eq_zero_or_pos n with hzero | hpos
      · rw [hroot hzero] at hkind
        cases hkind
      · exact hpos
    obtain ⟨rev, hrev, hnumber, hauthor⟩ := hby hpos
    refine ⟨rev, hrev, by rw [hcreated, hnumber], hauthor.symm, ?_⟩
    rw [hnumber, Int.toNat_natCast]
    refine ⟨hcomplete.since_birth hinj le_rfl hq hcreated, ?_⟩
    intro j hj
    exact (hcomplete.sound hinj (k := j) (by omega)).fresh hinj hj hid
  · intro rev hrev
    obtain ⟨k, hk, rfl⟩ := getElem_of_mem (mem_ordered.mpr hrev)
    rw [hcomplete.number hk, show (((k + 1 : ℕ) : ℤ) - 1).toNat = k by omega, Int.toNat_natCast]
    exact (hcomplete.step hinj hk).continues hinj

def plainHash : Hash := ⟨fun s => 'h' :: s, fun s => List.cons_ne_nil 'h' s⟩

def forkAndMove : List Revision :=
  [⟨1, "alice", [⟨"/a", .A, .file, [], 0⟩]⟩,
   ⟨2, "bob", [⟨"/b", .A, .file, "/a", 1⟩]⟩,
   ⟨3, "carol", [⟨"/c", .A, .file, "/a", 2⟩, ⟨"/a", .D, .file, [], 0⟩]⟩]

def forkAndMoveSnapshot : Snapshot :=
  ⟨3, [⟨"b", newObject plainHash "repo" 2 "bob" "/b" .file⟩,
    ⟨"c", newObject plainHash "repo" 1 "alice" "/a" .file⟩]⟩

theorem path_ownership_of_fork_and_move :
    replay plainHash "repo" 3 forkAndMove = .ok forkAndMoveSnapshot ∧
      (forkAndMoveSnapshot.entries.map (fun e => e.object.id)).Nodup ∧
      ∀ rev ∈ forkAndMove, Continues plainHash "repo" (sourceAt plainHash "repo" forkAndMove)
        (treeAt plainHash "repo" forkAndMove (rev.number - 1).toNat) rev
        (treeAt plainHash "repo" forkAndMove rev.number.toNat) := by
  have hreplay : replay plainHash "repo" 3 forkAndMove = .ok forkAndMoveSnapshot := by rfl
  obtain ⟨_, hdistinct, _, hcontinues⟩ := path_ownership_continuous plainHash (fun _ _ h => (cons.inj h).2)
    "repo" 3 forkAndMove (by decide) forkAndMoveSnapshot hreplay
  exact ⟨hreplay, hdistinct, hcontinues⟩

end FileES.PathOwnership
