import FileES.Lib.Runs
import FileES.Watcher.Scan

/-! Which paths a scan reports as deleted. -/

namespace FileES.Watcher

open Go Lib.Maps Lib.Runs List Option AList

def skips (ig : Ignores) (segs : List Str) (d : Dirent (Option EntryInfo)) : Bool := verdict ig segs d = .skipDir

def Recorded (s : Scanner) (V : Scan) (p : Path) : Prop :=
  ∃ v ∈ V.root.visits (skips s.ignores), verdict s.ignores v.1 v.2 = .visit p ∧ v.2.info.isSome = true

instance (s : Scanner) (V : Scan) (p : Path) : Decidable (Recorded s V p) := inferInstanceAs (Decidable (∃ v ∈ _, _))

def OnDisk (V : Scan) (p : Path) : Prop := p = ['.'] ∨ ∃ v ∈ V.root.children.entries [], join v.1 = p

instance (V : Scan) (p : Path) : Decidable (OnDisk V p) := inferInstanceAs (Decidable (_ ∨ _))

def Overdue (s : Scanner) (V : Scan) (p : Path) : Prop :=
  ∃ first, s.missingSince.lookup p = some first ∧ (V.now : ℤ) - first ≥ s.debounceD

lemma skips_dir {ig : Ignores} (segs : List Str) (d : Dirent (Option EntryInfo))
    (h : skips ig segs d = true) : d.kind = .dir := by
  by_contra hd
  have hv := of_decide_eq_true h
  simp only [verdict, hd, false_and, if_false] at hv
  split at hv
  · cases hv
  · split at hv
    · cases hv
    · split at hv
      · cases hv
      · split at hv
        · cases hv
        · split at hv <;> cases hv

def walkStep (s : Scanner) (V : Scan) (st : WalkState) (v : List Str × Dirent (Option EntryInfo)) : WalkState :=
  ((walkFn s V true).visit st v.1 v.2).1

def walkStart (s : Scanner) : WalkState where
  deleted := s.cur
  missingSince := s.missingSince
  budget := s.md5BudgetBytes

lemma walkTree_eq_run (s : Scanner) (V : Scan) :
    walkTree s V true = run (walkStep s V) (walkStart s) (V.root.visits (skips s.ignores)) := by
  refine walkDir_eq_foldl ?_ skips_dir ?_ V.root (walkStart s)
  · intro st segs d
    cases h : verdict s.ignores segs d <;> simp [walkFn, skips, h]
  · intro st segs
    rfl

structure Fewer (st st' : WalkState) : Prop where
  deleted : ∀ p m, st'.deleted.lookup p = some m → st.deleted.lookup p = some m
  missing : ∀ p t, st'.missingSince.lookup p = some t → st.missingSince.lookup p = some t
  events : ∀ ev ∈ st'.events, ev.op = .deleted → ev ∈ st.events

lemma Fewer.refl (st : WalkState) : Fewer st st := ⟨fun _ _ h => h, fun _ _ h => h, fun _ h _ => h⟩

variable {st st' : WalkState} {ev : Event} {s : Scanner} {V : Scan} {p : Path} {e : Sigma fun _ : Path => Meta}

lemma Fewer.trans {st'' : WalkState} (h : Fewer st st') (h' : Fewer st' st'') : Fewer st st'' :=
  ⟨fun p m hl => h.deleted p m (h'.deleted p m hl), fun p t hl => h.missing p t (h'.missing p t hl),
    fun ev he hd => h.events ev (h'.events ev he hd) hd⟩

lemma fewer_run {E : Type} {step : WalkState → E → WalkState} (h : ∀ st e, Fewer st (step st e))
    (st : WalkState) (es : List E) : Fewer st (run step st es) :=
  run_invariant step (I := fun st' => Fewer st st') (fun st' e hf => hf.trans (h st' e)) (Fewer.refl st) es

lemma fewer_seen (st : WalkState) (rel : Path) (m : Meta) : Fewer st (seen st rel m) :=
  ⟨fun _ _ hl => (lookup_erase_eq_some.mp hl).2, fun _ _ hl => (lookup_erase_eq_some.mp hl).2, fun _ he _ => he⟩

lemma Fewer.emit (h : Fewer st st') (hop : ev.op ≠ .deleted) : Fewer st (st'.emit ev) := by
  refine ⟨h.deleted, h.missing, ?_⟩
  intro ev' he hd
  rcases mem_append.mp he with he | he
  · exact h.events ev' he hd
  · exact (hop (mem_singleton.mp he ▸ hd)).elim

lemma Fewer.spend (h : Fewer st st') (read : ℕ) : Fewer st (st'.spend read) := { h with }

lemma observeKnown_spec (s : Scanner) (V : Scan) (st : WalkState) (rel : Path) (m old : Meta) :
    Fewer st (observeKnown s V st rel m old) ∧ (observeKnown s V st rel m old).deleted.lookup rel = none := by
  have hgone : (st.deleted.erase rel).lookup rel = none := lookup_erase rel st.deleted
  rw [observeKnown]
  dsimp only
  split
  · exact ⟨(fewer_seen st rel _).emit (by simp), hgone⟩
  · split
    · exact ⟨fewer_seen st rel _, hgone⟩
    · split
      · exact ⟨fewer_seen st rel _, hgone⟩
      · split
        · split
          · exact ⟨((fewer_seen st rel _).spend _).emit (by simp), hgone⟩
          · exact ⟨(fewer_seen st rel _).spend _, hgone⟩
        · exact ⟨(fewer_seen st rel _).emit (by simp), hgone⟩

lemma gather_spec (s : Scanner) (V : Scan) (st : WalkState) (rel : Path) (info : Option EntryInfo) :
    Fewer st (gather s V true st rel info) ∧
      (info.isSome = true → (gather s V true st rel info).deleted.lookup rel = none) := by
  cases info with
  | none => exact ⟨Fewer.refl st, by simp⟩
  | some info =>
    rw [gather]
    split
    · rw [carryOver]
      split
      · exact ⟨fewer_seen st rel _, fun _ => lookup_erase rel st.deleted⟩
      · rename_i hl
        exact ⟨Fewer.refl st, fun _ => hl⟩
    · dsimp only
      rw [if_neg (by simp)]
      split
      · rename_i hl
        exact ⟨⟨fun _ _ h => h, fun _ _ h => h, fun _ h _ => h⟩, fun _ => hl⟩
      · exact ⟨(observeKnown_spec s V st rel _ _).1, fun _ => (observeKnown_spec s V st rel _ _).2⟩

lemma fewer_walkStep (s : Scanner) (V : Scan) (st : WalkState) (v : List Str × Dirent (Option EntryInfo)) :
    Fewer st (walkStep s V st v) := by
  rw [walkStep, walkFn]
  dsimp only
  split
  · exact Fewer.refl st
  · exact Fewer.refl st
  · exact (gather_spec s V st _ _).1

lemma walkTree_recorded (h : Recorded s V p) : (walkTree s V true).deleted.lookup p = none := by
  obtain ⟨v, hv, hverdict, hinfo⟩ := h
  obtain ⟨before, after, hsplit⟩ := append_of_mem hv
  rw [walkTree_eq_run, hsplit, run_append, run_cons]
  have hstep : (walkStep s V (run (walkStep s V) (walkStart s) before) v).deleted.lookup p = none := by
    rw [walkStep, walkFn]
    dsimp only
    rw [hverdict]
    exact (gather_spec s V _ p v.2.info).2 hinfo
  have hlater := fewer_run (fewer_walkStep s V) (walkStep s V (run (walkStep s V) (walkStart s) before) v) after
  rw [eq_none_iff_forall_ne_some] at hstep ⊢
  intro m hm
  exact hstep m (hlater.deleted p m hm)

lemma fewer_detectRename (s : Scanner) (start : Index) (newFiles : List PendingAdd) (st : WalkState)
    (nf : PendingAdd) : Fewer st (detectRename s start newFiles st nf) := by
  rw [detectRename]
  dsimp only
  split
  · exact (Fewer.refl st).emit (by simp)
  · split
    · rename_i oldRel _ _
      have hfewer : Fewer st { st with
          deleted := st.deleted.erase oldRel, missingSince := st.missingSince.erase oldRel } :=
        ⟨fun _ _ hl => (lookup_erase_eq_some.mp hl).2, fun _ _ hl => (lookup_erase_eq_some.mp hl).2, fun _ he _ => he⟩
      exact hfewer.emit (by simp)
    · refine (Fewer.refl st).emit ?_
      generalize (s.requireRenameIdentity && _) = uncertain
      cases uncertain <;> simp

def Reports (st : WalkState) (p : Path) : Prop := ∃ ev ∈ st.events, ev.op = .deleted ∧ ev.rel = p

lemma settleMissing_missing (hp : p ≠ e.1) :
    (settleMissing s V st e).missingSince.lookup p = st.missingSince.lookup p := by
  rw [settleMissing]
  split
  · exact lookup_insert_ne hp
  · split
    · exact lookup_erase_ne hp
    · rfl

lemma reports_settleMissing : Reports (settleMissing s V st e) p ↔
      Reports st p ∨ p = e.1 ∧ ∃ first, st.missingSince.lookup p = some first ∧ (V.now : ℤ) - first ≥ s.debounceD := by
  rw [settleMissing]
  split
  · rename_i hl
    refine ⟨.inl, ?_⟩
    rintro (h | ⟨rfl, first, hf, _⟩)
    · exact h
    · simp [hl] at hf
  · rename_i first hl
    split
    · rename_i hdue
      simp only [Reports, WalkState.emit, mem_append, mem_singleton]
      constructor
      · rintro ⟨ev, he | rfl, hop, hrel⟩
        · exact .inl ⟨ev, he, hop, hrel⟩
        · exact .inr ⟨hrel.symm, first, hrel ▸ hl, hdue⟩
      · rintro (⟨ev, he, hop, hrel⟩ | ⟨rfl, _⟩)
        · exact ⟨ev, .inl he, hop, hrel⟩
        · exact ⟨_, .inr rfl, rfl, rfl⟩
    · rename_i hdue
      refine ⟨.inl, ?_⟩
      rintro (h | ⟨rfl, first', hf, hdue'⟩)
      · exact h
      · rw [hl] at hf
        cases hf
        exact (hdue hdue').elim

lemma reports_run_settleMissing {es : List (Sigma fun _ : Path => Meta)} (hn : (es.map Sigma.fst).Nodup) :
    Reports (run (settleMissing s V) st es) p ↔ Reports st p ∨ p ∈ es.map Sigma.fst ∧
        ∃ first, st.missingSince.lookup p = some first ∧ (V.now : ℤ) - first ≥ s.debounceD := by
  induction es generalizing st with
  | nil => simp
  | cons e es ih =>
    obtain ⟨hnot, hn⟩ := nodup_cons.mp hn
    rw [run_cons, ih hn, reports_settleMissing, map_cons, mem_cons]
    by_cases hp : p = e.1
    · subst hp
      simp only [hnot, false_and, or_false, true_and]
    · rw [settleMissing_missing hp]
      simp only [hp, false_and, or_false, false_or]

def afterRenames (s : Scanner) (V : Scan) : WalkState :=
  run (detectRename s (walkTree s V true).deleted (walkTree s V true).newFiles) (walkTree s V true)
    (walkTree s V true).newFiles

lemma fewer_afterRenames (s : Scanner) (V : Scan) : Fewer (walkTree s V true) (afterRenames s V) :=
  fewer_run (fewer_detectRename s _ _) _ _

lemma fewer_walkTree (s : Scanner) (V : Scan) : Fewer (walkStart s) (walkTree s V true) := by
  rw [walkTree_eq_run]
  exact fewer_run (fewer_walkStep s V) _ _

lemma reports_scanTreeEmit : Reports (scanTreeEmit s V true) p ↔ ((afterRenames s V).deleted.lookup p).isSome = true ∧
        ∃ first, (afterRenames s V).missingSince.lookup p = some first ∧ (V.now : ℤ) - first ≥ s.debounceD := by
  have hscan : scanTreeEmit s V true =
      run (settleMissing s V) (afterRenames s V) (afterRenames s V).deleted.entries := rfl
  have hnone : ¬ Reports (afterRenames s V) p := by
    rintro ⟨ev, he, hop, _⟩
    have hstart := (fewer_walkTree s V).events ev ((fewer_afterRenames s V).events ev he hop) hop
    cases hstart
  rw [hscan, reports_run_settleMissing (afterRenames s V).deleted.nodupKeys]
  simp only [hnone, false_or]
  apply and_congr_left'
  rw [AList.lookup_isSome, AList.mem_keys]
  rfl

lemma reports_sound (h : Reports (scanTreeEmit s V true) p) :
    (∃ m, s.cur.lookup p = some m) ∧ ¬ Recorded s V p ∧ Overdue s V p := by
  obtain ⟨hsome, first, hfirst, hdue⟩ := reports_scanTreeEmit.mp h
  obtain ⟨m, hm⟩ := isSome_iff_exists.mp hsome
  have hwalk := (fewer_afterRenames s V).deleted p m hm
  refine ⟨⟨m, (fewer_walkTree s V).deleted p m hwalk⟩, ?_, first, ?_, hdue⟩
  · intro hr
    rw [walkTree_recorded hr] at hwalk
    cases hwalk
  · exact (fewer_walkTree s V).missing p first ((fewer_afterRenames s V).missing p first hfirst)

/-- Every tracked path that is on disk is recorded by the walk under the rules the scan loads, or its debounce
is not over. -/
def Sees (s : Scanner) (V : Scan) : Prop :=
  ∀ p m, s.cur.lookup p = some m → OnDisk V p → Recorded (reloadIgnores s V) V p ∨ ¬ Overdue s V p

def scanStep (s : Scanner) (V : Scan) : Scanner := (scanCycle s V).1

lemma mem_scanTicketsEmit (h : ev ∈ scanTicketsEmit s V) : ev.op = .added := by
  rw [scanTicketsEmit] at h
  split at h
  · cases h
  · obtain ⟨v, _, hv⟩ := mem_filterMap.mp h
    split at hv
    · cases hv
      rfl
    · cases hv

lemma scanCycle_deleted (h : ev ∈ (scanCycle s V).2) (hop : ev.op = .deleted) :
    (∃ m, s.cur.lookup ev.rel = some m) ∧ ¬ Recorded (reloadIgnores s V) V ev.rel ∧ Overdue s V ev.rel := by
  rw [scanCycle] at h
  dsimp only at h
  split at h
  · cases h
  · split at h
    · cases h
    · split at h
      · obtain ⟨ev', he, rfl⟩ := mem_map.mp h
        rw [mem_scanTicketsEmit he] at hop
        cases hop
      · obtain ⟨ev', he, rfl⟩ := mem_map.mp h
        have hsound := reports_sound ⟨ev', he, hop, rfl⟩
        cases hl : V.ignoreLines with
        | none =>
          simp only [reloadIgnores, hl] at hsound ⊢
          exact hsound
        | some lines =>
          simp only [reloadIgnores, hl] at hsound ⊢
          exact hsound

/-- In a run of scans each of which sees what it tracks, a path is reported as deleted only when it is gone. -/
theorem deleted_only_if_gone (s : Scanner) (vs : List Scan) (h : Admits scanStep Sees s vs) :
    ∀ pre V, pre ++ [V] <+: vs → ∀ ev ∈ (scanCycle (run scanStep s pre) V).2, ev.op = .deleted →
      ¬ OnDisk V ev.rel := by
  intro pre V hp ev he hop hdisk
  obtain ⟨⟨m, hm⟩, hrec, hdue⟩ := scanCycle_deleted he hop
  rcases Admits.at_step scanStep h hp ev.rel m hm hdisk with hr | hn
  · exact hrec hr
  · exact hn hdue

lemma sees_of_entries (h : ∀ e ∈ s.cur.entries, OnDisk V e.1 → Recorded (reloadIgnores s V) V e.1) : Sees s V :=
  fun p m hl hd => .inl (h ⟨p, m⟩ (mem_entries_iff.mpr hl) hd)

def fileName (text : String) (h : text.toList ≠ [] ∧ '/' ∉ text.toList) : Name := ⟨text.toList, h.1, h.2⟩

def oneFile (now : Time) (ignoreLines : Option (List Str)) : Scan where
  root := { name := "wc", info := some { isDir := true },
            children := .leaf (fileName "a.log" (by decide)) true false (some { size := 1 }) .nil }
  now := now
  ignoreLines := ignoreLines

def trackingTwo : Scanner where
  wc := "/wc"
  session := "s"
  debounceD := 600
  cur := (AList.singleton "a.log".toList { size := 1 }).insert "b.log".toList { size := 2 }

theorem deleted_only_if_gone_on_removal :
    (∃ ev ∈ (scanCycle (run scanStep trackingTwo [oneFile 0 none]) (oneFile 600 none)).2,
      ev.op = .deleted ∧ ev.rel = "b.log".toList) ∧
    ∀ pre V, pre ++ [V] <+: [oneFile 0 none, oneFile 600 none] →
      ∀ ev ∈ (scanCycle (run scanStep trackingTwo pre) V).2, ev.op = .deleted → ¬ OnDisk V ev.rel := by
  refine ⟨by decide, deleted_only_if_gone trackingTwo _ ⟨sees_of_entries ?_, sees_of_entries ?_, trivial⟩⟩
  · decide
  · decide

theorem ignored_file_reported_deleted :
    ∃ ev ∈ (scanCycle (run scanStep trackingTwo [oneFile 0 (some ["*.log".toList])]) (oneFile 600 none)).2,
      ev.op = .deleted ∧ OnDisk (oneFile 600 none) ev.rel := by
  decide

end FileES.Watcher
