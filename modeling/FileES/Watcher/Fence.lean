import FileES.Lib.Runs
import FileES.Watcher.Publication

/-! The event fence between the scanner and the commit service, over every interleaving of scans, captures,
acknowledgements, deliveries and restarts. -/

namespace FileES.Watcher

open Go Lib Lib.Runs List Option

structure Receipt where
  session : String
  sequence : ℕ
  paths : List Path
  roots : List Path := []

def Receipt.Covers (r : Receipt) (p : Path) : Prop :=
  p ∈ r.paths ∨ ∃ root ∈ r.roots, treeContains root p = true

structure Fence where
  scanner : Scanner
  flight : List Event := []
  captured : List PublicationSnapshot := []
  receipts : List Receipt := []

inductive FenceOp
  | scan (events : List Event) (cur : Index) (missingSince : Maps.Map Path Time)
  | capture (paths : List Path)
  | acknowledge (i : ℕ) (io : Bool)
  | cleanMutation (rel : Path) (io done : Bool)
  | treeMove (p : TreeMoveSnapshot) (valid : Bool)
  | fileDelete (p : FileDeleteSnapshot) (valid : Bool)
  | deliver
  | restart (session : String)

def PublicationSnapshot.receipt (p : PublicationSnapshot) : Receipt where
  session := p.session
  sequence := p.sequence
  paths := p.entries.map PublicationEntry.path

def TreeMoveSnapshot.receipt (p : TreeMoveSnapshot) : Receipt where
  session := p.session
  sequence := p.sequence
  paths := p.entries.flatMap (fun e => [e.path, p.destinationOf e.path])
  roots := [p.source, p.destination]

def FileDeleteSnapshot.receipt (p : FileDeleteSnapshot) : Receipt where
  session := p.session
  sequence := p.sequence
  paths := [p.source]

variable (f : Fence)

def Fence.settle (outcome : Except String Scanner) (r : Receipt) : Fence :=
  match outcome with
  | .ok scanner => { f with scanner := scanner, receipts := r :: f.receipts }
  | .error _ => f

def stamp (s : Scanner) (ev : Event) : Event := { ev with session := s.session, sequence := s.sequence }

def Fence.step : FenceOp → Fence
  | .scan events cur missingSince =>
    let s := { f.scanner with sequence := f.scanner.sequence + 1, cur := cur, missingSince := missingSince }
    { f with scanner := s, flight := f.flight ++ events.map (stamp s) }
  | .capture paths =>
    match capturePublication f.scanner paths with
    | .ok p => { f with captured := f.captured ++ [p] }
    | .error _ => f
  | .acknowledge i io =>
    match f.captured[i]? with
    | some p => f.settle (acknowledgePublication io f.scanner p) p.receipt
    | none => f
  | .cleanMutation rel io done =>
    f.settle (withCleanFileMutation io done f.scanner rel)
      { session := f.scanner.session, sequence := f.scanner.sequence, paths := [rel] }
  | .treeMove p valid => f.settle (acknowledgeTreeMove valid f.scanner p) p.receipt
  | .fileDelete p valid => f.settle (acknowledgeFileDelete valid f.scanner p) p.receipt
  | .deliver => { f with flight := f.flight.tail }
  | .restart session =>
    -- session identifiers are fresh UUIDs
    if session ≠ "" ∧ (∀ p ∈ f.captured, p.session ≠ session) ∧ ∀ r ∈ f.receipts, r.session ≠ session then
      { f with scanner := f.scanner.restart session, flight := [] }
    else f

def Fence.Covered (p : Path) (sequence : ℕ) : Prop :=
  ∃ r ∈ f.receipts, r.session = f.scanner.session ∧ sequence ≤ r.sequence ∧ r.Covers p

def Fence.Sound : Prop :=
  ∀ ev ∈ f.flight, eventAcknowledged f.scanner ev = true →
    f.Covered ev.rel ev.sequence ∧ (ev.op = .renamed → f.Covered ev.oldRel ev.sequence)

structure Fence.Good : Prop where
  named : f.scanner.session ≠ ""
  captured : ∀ p ∈ f.captured, p.session = f.scanner.session → p.sequence ≤ f.scanner.sequence
  receipts : ∀ r ∈ f.receipts, r.session = f.scanner.session → r.sequence ≤ f.scanner.sequence
  flight : ∀ ev ∈ f.flight, ev.session = f.scanner.session ∧ 0 < ev.sequence
  paths : ∀ p n, 0 < n → (n ≤ upTo f.scanner.acknowledged p ↔
    ∃ r ∈ f.receipts, r.session = f.scanner.session ∧ n ≤ r.sequence ∧ p ∈ r.paths)
  roots : ∀ root n, 0 < n → (n ≤ upTo f.scanner.acknowledgedTrees root ↔
    ∃ r ∈ f.receipts, r.session = f.scanner.session ∧ n ≤ r.sequence ∧ root ∈ r.roots)

variable {m : Maps.Map Path ℕ} {n : ℕ} {f : Fence} {s s' : Scanner} {valid : Bool} {p : Path} {r : Receipt}
  {op : FenceOp}

lemma any_acknowledgedTrees {rel : Path} (hn : 0 < n) :
    m.entries.any (fun root => treeContains root.1 rel && n ≤ root.2) = true ↔
      ∃ root, treeContains root rel = true ∧ n ≤ upTo m root := by
  simp only [List.any_eq_true, Sigma.exists, Maps.mem_entries_iff, Bool.and_eq_true, decide_eq_true_eq]
  constructor
  · rintro ⟨root, sequence, hl, hc, hle⟩
    exact ⟨root, hc, by simpa [upTo, hl] using hle⟩
  · rintro ⟨root, hc, hle⟩
    cases hl : m.lookup root with
    | none =>
      simp only [upTo, hl, getD_none] at hle
      omega
    | some sequence => exact ⟨root, sequence, hl, hc, by simpa [upTo, hl] using hle⟩

lemma Fence.Good.eventAcknowledged_iff (hg : f.Good) {ev : Event} (hev : ev ∈ f.flight) :
    eventAcknowledged f.scanner ev = true ↔ f.Covered ev.rel ev.sequence := by
  obtain ⟨hs, hn⟩ := hg.flight ev hev
  have hguard : (ev.session = "" || ev.session ≠ f.scanner.session || ev.sequence = 0) = false := by
    have hne : ev.sequence ≠ 0 := by omega
    simp [hs, hg.named, hne]
  have hsplit : eventAcknowledged f.scanner ev = true ↔
      ev.sequence ≤ upTo f.scanner.acknowledged ev.rel ∨
        ∃ root, treeContains root ev.rel = true ∧ ev.sequence ≤ upTo f.scanner.acknowledgedTrees root := by
    rw [eventAcknowledged, hguard, ← any_acknowledgedTrees hn]
    by_cases hle : ev.sequence ≤ upTo f.scanner.acknowledged ev.rel <;> simp [hle]
  rw [hsplit, hg.paths _ _ hn]
  constructor
  · rintro (⟨r, hr, hrs, hle, hp⟩ | ⟨root, hc, hle⟩)
    · exact ⟨r, hr, hrs, hle, .inl hp⟩
    · obtain ⟨r, hr, hrs, hle, hroot⟩ := (hg.roots root _ hn).mp hle
      exact ⟨r, hr, hrs, hle, .inr ⟨root, hroot, hc⟩⟩
  · rintro ⟨r, hr, hrs, hle, hp | ⟨root, hroot, hc⟩⟩
    · exact .inl ⟨r, hr, hrs, hle, hp⟩
    · exact .inr ⟨root, hc, (hg.roots root _ hn).mpr ⟨r, hr, hrs, hle, hroot⟩⟩

structure Acknowledges (s s' : Scanner) (r : Receipt) : Prop where
  session : s'.session = s.session
  sequence : s'.sequence = s.sequence
  paths : s'.acknowledged =
    if r.session = s.session then raiseAll r.sequence s.acknowledged r.paths else s.acknowledged
  roots : s'.acknowledgedTrees =
    if r.session = s.session then raiseAll r.sequence s.acknowledgedTrees r.roots else s.acknowledgedTrees
  known : r.session = s.session → r.sequence ≤ s.sequence

lemma acknowledgePublicationLocked_spec {io : Bool} {p : PublicationSnapshot}
    (h : acknowledgePublicationLocked io s p = .ok s') (hp : p.session = s.session → p.sequence ≤ s.sequence) :
    Acknowledges s s' p.receipt := by
  rw [acknowledgePublicationLocked] at h
  split at h
  · cases h
  · split at h
    · cases h
    · obtain ⟨h₁, h₂, h₃, h₄⟩ := acknowledgeEntries_fence p p.entries { s with base := p.entries.foldl record s.base }
      cases h
      refine ⟨h₁, h₂, h₄, ?_, hp⟩
      rw [h₃]
      split <;> rfl

lemma acknowledgeTreeMove_spec {p : TreeMoveSnapshot} (h : acknowledgeTreeMove valid s p = .ok s') :
    Acknowledges s s' p.receipt := by
  rw [acknowledgeTreeMove] at h
  split at h
  · cases h
  · rename_i hknown
    split at h
    · cases h
    · cases h
      refine ⟨rfl, rfl, rfl, rfl, ?_⟩
      intro hs
      change p.session = s.session at hs
      change p.sequence ≤ s.sequence
      simpa [hs] using hknown

lemma acknowledgeFileDelete_spec {p : FileDeleteSnapshot} (h : acknowledgeFileDelete valid s p = .ok s') :
    Acknowledges s s' p.receipt := by
  rw [acknowledgeFileDelete] at h
  split at h
  · cases h
  · rename_i hknown
    split at h
    · cases h
    · cases h
      refine ⟨rfl, rfl, rfl, (ite_self _).symm, ?_⟩
      intro hs
      change p.session = s.session at hs
      change p.sequence ≤ s.sequence
      simpa [hs] using hknown

lemma le_upTo_acknowledged {ps : List Path} {own : Prop} [Decidable own] {sequence : ℕ} :
    n ≤ upTo (if own then raiseAll sequence m ps else m) p ↔ n ≤ upTo m p ∨ (own ∧ n ≤ sequence ∧ p ∈ ps) := by
  by_cases h : own
  · simp only [h, if_true, true_and, le_upTo_raiseAll]
    tauto
  · simp [h]

lemma Fence.Good.settle (hg : f.Good) (ha : Acknowledges f.scanner s r) :
    Fence.Good { f with scanner := s, receipts := r :: f.receipts } := by
  refine ⟨?_, ?_, ?_, ?_, ?_, ?_⟩
  · simpa only [ha.session] using hg.named
  · simpa only [ha.session, ha.sequence] using hg.captured
  · simp only [ha.session, ha.sequence, forall_mem_cons]
    exact ⟨ha.known, hg.receipts⟩
  · simpa only [ha.session] using hg.flight
  · intro p n hn
    simp only [ha.session, ha.paths, le_upTo_acknowledged, hg.paths p n hn, exists_mem_cons_iff]
    exact or_comm
  · intro p n hn
    simp only [ha.session, ha.roots, le_upTo_acknowledged, hg.roots p n hn, exists_mem_cons_iff]
    exact or_comm

/-- Acknowledging `r` leaves no rename behind whose destination it covers and whose source it does not. -/
def Fence.Lets (f : Fence) (r : Receipt) : Prop :=
  r.session = f.scanner.session → ∀ ev ∈ f.flight, ev.op = .renamed → ev.sequence ≤ r.sequence →
    r.Covers ev.rel → r.Covers ev.oldRel ∨ f.Covered ev.oldRel ev.sequence

lemma covered_settle (hs : s.session = f.scanner.session) :
    Fence.Covered { f with scanner := s, receipts := r :: f.receipts } p n ↔
      (r.session = f.scanner.session ∧ n ≤ r.sequence ∧ r.Covers p) ∨ f.Covered p n := by
  simp only [Fence.Covered, hs, exists_mem_cons_iff]

lemma Fence.Good.sound_settle (hg : f.Good) (hs : f.Sound) (ha : Acknowledges f.scanner s r) :
    Fence.Sound { f with scanner := s, receipts := r :: f.receipts } ↔ f.Lets r := by
  have hg' := hg.settle ha
  constructor
  · intro h hown ev hev hop hle hrel
    have hack := (hg'.eventAcknowledged_iff hev).mpr ((covered_settle ha.session).mpr (.inl ⟨hown, hle, hrel⟩))
    rcases (covered_settle ha.session).mp ((h ev hev hack).2 hop) with ⟨_, _, hc⟩ | hc
    · exact .inl hc
    · exact .inr hc
  · intro h ev hev hack
    have hcov := (hg'.eventAcknowledged_iff hev).mp hack
    refine ⟨hcov, ?_⟩
    intro hop
    refine (covered_settle ha.session).mpr ?_
    rcases (covered_settle ha.session).mp hcov with ⟨hown, hle, hrel⟩ | hold
    · exact (h hown ev hev hop hle hrel).imp_left fun hc => ⟨hown, hle, hc⟩
    · exact .inr ((hs ev hev ((hg.eventAcknowledged_iff hev).mpr hold)).2 hop)

def Fence.receiptOf (f : Fence) : FenceOp → Option (Except String Scanner × Receipt)
  | .acknowledge i io => f.captured[i]?.map (fun p => (acknowledgePublication io f.scanner p, p.receipt))
  | .cleanMutation rel io done => some (withCleanFileMutation io done f.scanner rel,
      { session := f.scanner.session, sequence := f.scanner.sequence, paths := [rel] })
  | .treeMove p valid => some (acknowledgeTreeMove valid f.scanner p, p.receipt)
  | .fileDelete p valid => some (acknowledgeFileDelete valid f.scanner p, p.receipt)
  | .scan .. | .capture _ | .deliver | .restart _ => none

def Fence.Admitted (f : Fence) (op : FenceOp) : Prop :=
  ∀ s r, f.receiptOf op = some (.ok s, r) → f.Lets r

lemma receiptOf_acknowledges (hg : f.Good) (h : f.receiptOf op = some (.ok s, r)) : Acknowledges f.scanner s r := by
  cases op with
  | acknowledge i io =>
    obtain ⟨p, hp, hr⟩ := map_eq_some_iff.mp h
    simp only [Prod.mk.injEq] at hr
    obtain ⟨hok, rfl⟩ := hr
    rw [acknowledgePublication] at hok
    split at hok
    · cases hok
    · exact acknowledgePublicationLocked_spec hok (hg.captured p (mem_of_getElem? hp))
  | cleanMutation rel io done =>
    simp only [Fence.receiptOf, some.injEq, Prod.mk.injEq, withCleanFileMutation] at h
    obtain ⟨hok, rfl⟩ := h
    split at hok
    · cases hok
    · split at hok
      · cases hok
      · split at hok
        · cases hok
        · exact acknowledgePublicationLocked_spec hok (fun _ => le_rfl)
  | treeMove p valid =>
    simp only [Fence.receiptOf, some.injEq, Prod.mk.injEq] at h
    exact h.2 ▸ acknowledgeTreeMove_spec h.1
  | fileDelete p valid =>
    simp only [Fence.receiptOf, some.injEq, Prod.mk.injEq] at h
    exact h.2 ▸ acknowledgeFileDelete_spec h.1
  | scan | capture | deliver | restart => cases h

lemma step_of_receiptOf {outcome : Except String Scanner} (h : f.receiptOf op = some (outcome, r)) :
    f.step op = f.settle outcome r := by
  cases op with
  | acknowledge i io =>
    obtain ⟨p, hp, hr⟩ := map_eq_some_iff.mp h
    cases hr
    rw [Fence.step, hp]
  | cleanMutation | treeMove | fileDelete =>
    cases h
    rfl
  | scan | capture | deliver | restart => cases h

lemma Fence.Good.step_scan (hg : f.Good) (events : List Event) (cur : Index) (missingSince : Maps.Map Path Time) :
    (f.step (.scan events cur missingSince)).Good := by
  refine ⟨hg.named, ?_, ?_, ?_, hg.paths, hg.roots⟩
  · intro p hp hs
    exact (hg.captured p hp hs).trans (Nat.le_succ _)
  · intro r hr hs
    exact (hg.receipts r hr hs).trans (Nat.le_succ _)
  · intro ev hev
    rcases mem_append.mp hev with hev | hev
    · exact hg.flight ev hev
    · obtain ⟨ev, _, rfl⟩ := mem_map.mp hev
      exact ⟨rfl, Nat.succ_pos _⟩

lemma Fence.Good.step_capture (hg : f.Good) (paths : List Path) : (f.step (.capture paths)).Good := by
  rw [Fence.step]
  split
  · rename_i p hp
    refine ⟨hg.named, ?_, hg.receipts, hg.flight, hg.paths, hg.roots⟩
    intro q hq hs
    rcases mem_append.mp hq with hq | hq
    · exact hg.captured q hq hs
    · rw [capturePublication] at hp
      split at hp
      · cases hp
        simp only [mem_singleton] at hq
        simp [hq]
      · cases hp
  · exact hg

lemma Fence.Good.step_restart (hg : f.Good) (session : String) : (f.step (.restart session)).Good := by
  rw [Fence.step]
  split
  · rename_i h
    obtain ⟨hn, hc, hr⟩ := h
    refine ⟨hn, ?_, ?_, by simp, ?_, ?_⟩
    · intro p hp hs
      exact (hc p hp hs).elim
    · intro r hrec hs
      exact (hr r hrec hs).elim
    · intro p n hpos
      refine iff_of_false (not_le_upTo_empty hpos p) ?_
      rintro ⟨r, hrec, hs, _⟩
      exact hr r hrec hs
    · intro root n hpos
      refine iff_of_false (not_le_upTo_empty hpos root) ?_
      rintro ⟨r, hrec, hs, _⟩
      exact hr r hrec hs
  · exact hg

lemma Fence.step_good (f : Fence) (op : FenceOp) (hg : f.Good) : (f.step op).Good := by
  cases hr : f.receiptOf op with
  | some outcome =>
    obtain ⟨outcome, r⟩ := outcome
    rw [step_of_receiptOf hr]
    cases outcome with
    | error e => exact hg
    | ok s => exact hg.settle (receiptOf_acknowledges hg hr)
  | none =>
    cases op with
    | scan events cur missingSince => exact hg.step_scan events cur missingSince
    | capture paths => exact hg.step_capture paths
    | acknowledge i io =>
      have hi : f.captured[i]? = none := map_eq_none_iff.mp hr
      rw [Fence.step, hi]
      exact hg
    | cleanMutation | treeMove | fileDelete => cases hr
    | deliver =>
      refine { hg with flight := ?_ }
      intro ev hev
      exact hg.flight ev (mem_of_mem_tail hev)
    | restart session => exact hg.step_restart session

lemma Fence.Good.sound_scan (hg : f.Good) (hs : f.Sound) (events : List Event) (cur : Index)
    (missingSince : Maps.Map Path Time) : (f.step (.scan events cur missingSince)).Sound := by
  have hg' := hg.step_scan events cur missingSince
  intro ev hev hack
  have hcov : f.Covered ev.rel ev.sequence := (hg'.eventAcknowledged_iff hev).mp hack
  rcases mem_append.mp hev with hold | hnew
  · exact hs ev hold ((hg.eventAcknowledged_iff hold).mpr hcov)
  · obtain ⟨raw, _, rfl⟩ := mem_map.mp hnew
    obtain ⟨r, hr, hrs, hle, _⟩ := hcov
    have hbound := hg.receipts r hr hrs
    change f.scanner.sequence + 1 ≤ r.sequence at hle
    omega

lemma Fence.sound_of_receiptOf_none (hg : f.Good) (hs : f.Sound) (hr : f.receiptOf op = none) :
    (f.step op).Sound := by
  cases op with
  | scan events cur missingSince => exact hg.sound_scan hs events cur missingSince
  | capture paths =>
    rw [Fence.step]
    split <;> exact hs
  | acknowledge i io =>
    have hi : f.captured[i]? = none := map_eq_none_iff.mp hr
    rw [Fence.step, hi]
    exact hs
  | cleanMutation | treeMove | fileDelete => cases hr
  | deliver =>
    intro ev hev
    exact hs ev (mem_of_mem_tail hev)
  | restart session =>
    rw [Fence.step]
    split
    · intro ev hev
      cases hev
    · exact hs

lemma Fence.step_sound (f : Fence) (op : FenceOp) (hg : f.Good) (hs : f.Sound) :
    (f.step op).Sound ↔ f.Admitted op := by
  cases hr : f.receiptOf op with
  | none =>
    refine iff_of_true (Fence.sound_of_receiptOf_none hg hs hr) ?_
    intro s r h
    simp [hr] at h
  | some outcome =>
    obtain ⟨outcome, r⟩ := outcome
    rw [step_of_receiptOf hr]
    cases outcome with
    | error e =>
      refine iff_of_true hs ?_
      intro s r' h
      simp [hr] at h
    | ok s =>
      refine (hg.sound_settle hs (receiptOf_acknowledges hg hr)).trans ?_
      constructor
      · intro h s' r' h'
        obtain ⟨_, rfl⟩ := Prod.mk.inj (mem_unique hr h')
        exact h
      · intro h
        exact h s r hr

/-- The fence drops only covered news exactly when no acknowledgement covers the destination of an undelivered
rename without its source. -/
theorem event_fence_sound_iff (s : Scanner) (hn : s.session ≠ "") (ha : s.acknowledged = ∅)
    (ht : s.acknowledgedTrees = ∅) (ops : List FenceOp) :
    (∀ pre, pre <+: ops → (run Fence.step { scanner := s } pre).Sound) ↔
      Admits Fence.step Fence.Admitted { scanner := s } ops := by
  have hgood : Fence.Good { scanner := s } := by
    refine ⟨hn, by simp, by simp, by simp, ?_, ?_⟩
    · intro p n hpos
      exact iff_of_false (ha ▸ not_le_upTo_empty hpos p) (by simp)
    · intro root n hpos
      exact iff_of_false (ht ▸ not_le_upTo_empty hpos root) (by simp)
  refine along_iff_admits Fence.step Fence.step_good Fence.step_sound hgood ?_ ops
  intro ev hev
  cases hev

def renameEvent (old new : String) : Event :=
  { path := new.toList, rel := new.toList, oldRel := old.toList, op := .renamed }

theorem event_fence_sound_on_pair :
    (run Fence.step { scanner := { session := "s" } } [.scan [renameEvent "a" "b"] ∅ ∅]).scanner.sequence = 1 ∧
    ∀ pre, pre <+: [.scan [renameEvent "a" "b"] ∅ ∅, .capture ["a", "b"], .acknowledge 0 true, .deliver] →
      (run Fence.step { scanner := { session := "s" } } pre).Sound := by
  refine ⟨rfl, (event_fence_sound_iff { session := "s" } (by decide) rfl rfl _).mpr ⟨?_, ?_, ?_, ?_, trivial⟩⟩
  · intro s r h
    cases h
  · intro s r h
    cases h
  · intro s r h
    cases h
    intro _ ev hev _ _ _
    obtain rfl := mem_singleton.mp hev
    exact .inl (.inl (by decide))
  · intro s r h
    cases h

theorem acknowledged_destination_drops_source :
    ¬ (run Fence.step { scanner := { session := "s" } }
      [.scan [renameEvent "a" "b"] ∅ ∅, .capture ["b"], .acknowledge 0 true]).Sound := by
  intro h
  obtain ⟨_, hold⟩ := h { renameEvent "a" "b" with session := "s", sequence := 1 } (by decide) (by decide)
  obtain ⟨r, hr, _, _, hc⟩ := hold rfl
  obtain rfl := mem_singleton.mp hr
  rcases hc with hc | ⟨_, hroot, _⟩
  · exact absurd hc (by decide)
  · cases hroot

end FileES.Watcher
