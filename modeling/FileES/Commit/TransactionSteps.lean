import FileES.Commit.Readback
import FileES.Commit.Transaction
import FileES.Lib.Runs

/-! What one action can do to the durable commit, and the invariant that every action keeps: a transaction that may
still become a revision is the one in the journal, as attempting. -/

namespace FileES.Commit

open Go Watcher Lib Machine List Option

def CommitIntent.base (j : CommitIntent) : CommitIntent := { j with phase := .attempting, revision := 0 }

inductive Turn (a : Account) (s : Machine) : Action a → Machine → Prop
  | stays (e : Action a) : Turn a s e s
  | gaveUp (e : Action a) : Turn a s e { s with control := .idle }
  | queued (now : Time) (staging : Staging) :
      Turn a s (.queue now staging) { s with staging := staging, clock := now }
  | saved : Turn a s .save { s with cache := s.staging }
  | crashed : Turn a s .crash { s with staging := loadCache s.cache, control := .idle }
  | foreign : Turn a s .foreign { s with revisions := s.revisions ++ [none] }
  | landed {i : CommitIntent} (id : String) : i ∈ s.inFlight →
      Turn a s (.land id) { s with inFlight := s.inFlight.erase i, revisions := s.revisions ++ [some i] }
  | aborted (id : String) : Turn a s (.abort id) { s with inFlight := s.inFlight.filter (fun i => i.id ≠ id) }
  | restaged {P : Pass} {t : Attempt a} {plan : Plan} : s.control = .idle →
      tryCommitLocked P s.staging = .ok (some plan) →
      Turn a s (.flush P t) { s with staging := restage s.staging plan }
  | prepared {P : Pass} {t : Attempt a} {plan : Plan} {i : CommitIntent} : s.control = .idle →
      tryCommitLocked P s.staging = .ok (some plan) →
      newIntent a { t with stored := s.journal, head := t.head.map (fun _ => s.revisions.length) } plan = .ok i →
      Turn a s (.flush P t) { s with
        staging := restage s.staging plan, cache := restage s.staging plan, control := .prepared i,
        issued := i :: s.issued }
  | armed {i : CommitIntent} : s.control = .prepared i →
      Turn a s .write { s with journal := written a i, control := .armed i }
  | recorded {j : CommitIntent} : s.control = .answered j →
      Turn a s .write { s with
        journal := written a j, control := if j.phase = .done then .idle else .finishing j }
  | closed {j : CommitIntent} : s.control = .finishing j ∧ j.phase = .empty ∨ s.control = .closing j →
      Turn a s .write { s with journal := written a j.finish, control := .idle }
  | called {i : CommitIntent} (sent : Bool) : s.control = .armed i →
      Turn a s (.call sent) { s with
        calls := i :: s.calls, inFlight := if sent then i :: s.inFlight else s.inFlight,
        control := .waiting i sent }
  | refused {i : CommitIntent} : s.control = .waiting i false →
      Turn a s .refused { s with control := .answered i.finish }
  | emptied {i : CommitIntent} {sent : Bool} : s.control = .waiting i sent → i ∉ s.inFlight →
      revisionOf s.revisions i.id = none →
      Turn a s .replied { s with control := .answered { i with phase := .empty } }
  | found {i : CommitIntent} {rev : ℤ} (e : Action a) :
      ((∃ sent, s.control = .waiting i sent) ∨ readIntentFile a s.journal = .ok (some i) ∧ i.phase = .attempting) →
      revisionOf s.revisions i.id = some rev → Turn a s e { s with control := .answered (i.confirm rev) }
  | resumed {j : CommitIntent} : readIntentFile a s.journal = .ok (some j) →
      j.phase = .confirmed ∨ j.phase = .empty → Turn a s .recover { s with control := .finishing j }
  | retired {j : CommitIntent} (d : Disk) (clean : Path → Bool) : s.control = .finishing j →
      j.phase = .confirmed → Turn a s (.retire d clean) { s with
        staging := retireItems a.wc d clean s.staging j.items, control := .retired j }
  | checkpointed {j : CommitIntent} : s.control = .retired j →
      Turn a s .checkpoint { s with cache := s.staging, control := .closing j }

variable {a : Account} {s s' : Machine} {e : Action a}

variable {i j : CommitIntent} {next : Control} {revisions : List (Option CommitIntent)} {rev : ℤ} {t : Attempt a}
  {plan : Plan}

lemma writeIntent_eq_some {stored stored' : StoredIntent} (h : writeIntent a stored i = some stored') :
    stored' = written a i := by
  rw [writeIntent] at h
  split at h
  · cases h
  · split at h
    · cases h
    · exact (some.inj h).symm

lemma turn_record (h : Turn a s e { s with journal := written a i, control := next }) :
    Turn a s e (s.record a i next) := by
  rw [Machine.record]
  split
  · rename_i stored hw
    rw [writeIntent_eq_some hw]
    exact h
  · exact .gaveUp e

lemma turn_step (a : Account) (s : Machine) (e : Action a) : Turn a s e (s.step a e) := by
  cases e with
  | queue now staging => exact .queued now staging
  | save => exact .saved
  | crash => exact .crashed
  | foreign => exact .foreign
  | land id =>
    simp only [step, land]
    split
    · rename_i i hi
      exact .landed id (mem_of_find?_eq_some hi)
    · exact .stays _
  | abort id => exact .aborted id
  | flush P t =>
    simp only [step, flush]
    split
    · rename_i hc hp
      split
      · rename_i hi
        exact .prepared hc hp hi
      · exact .restaged hc hp
    · exact .stays _
  | write =>
    simp only [step, write]
    split
    · rename_i hc
      exact turn_record (.armed hc)
    · rename_i hc
      exact turn_record (.recorded hc)
    · rename_i hc
      split
      · rename_i hp
        exact turn_record (.closed (.inl ⟨hc, hp⟩))
      · exact .stays _
    · rename_i hc
      exact turn_record (.closed (.inr hc))
    · exact .stays _
  | call sent =>
    simp only [step, call]
    split
    · rename_i hc
      exact .called sent hc
    · exact .stays _
  | refused =>
    simp only [step, refused]
    split
    · rename_i hc
      exact .refused hc
    · exact .stays _
  | replied =>
    simp only [step, replied]
    split
    · rename_i i sent hc
      split
      · exact .stays _
      · rename_i hfly
        split
        · rename_i hr
          exact .emptied hc hfly hr
        · rename_i hr
          split
          · exact .gaveUp _
          · exact .found _ (.inl ⟨sent, hc⟩) hr
    · exact .stays _
  | recover =>
    simp only [step, recover]
    split
    · rename_i i hc hj
      split
      · rename_i hp
        split
        · exact .stays _
        · rename_i hr
          split
          · exact .stays _
          · exact .found _ (.inr ⟨hj, hp⟩) hr
      · rename_i hp
        exact .resumed hj (.inl hp)
      · rename_i hp
        exact .resumed hj (.inr hp)
      · exact .stays _
    · exact .stays _
  | retire d clean =>
    simp only [step, retire]
    split
    · rename_i hc
      split
      · rename_i hp
        exact .retired d clean hc hp
      · exact .stays _
    · exact .stays _
  | checkpoint =>
    simp only [step, checkpoint]
    split
    · rename_i hc
      exact .checkpointed hc
    · exact .stays _
  | giveUp => exact .gaveUp _

def ControlOk (a : Account) (s : Machine) : Control → Prop
  | .idle => True
  | .prepared i => i ∈ s.issued ∧ i ∉ s.calls ∧ ∀ j, s.journal = written a j → j.phase = .done ∧ j.base ≠ i
  | .armed i => s.journal = written a i ∧ i ∉ s.calls ∧ i.base = i
  | .waiting i sent => s.journal = written a i ∧ i ∈ s.calls ∧ i.base = i ∧
      (sent = false → i ∉ s.inFlight ∧ some i ∉ s.revisions)
  | .answered j => s.journal = written a j.base ∧ j.base ∈ s.calls ∧ j.base ∉ s.inFlight ∧
      (j.phase = .confirmed ∨ (j.phase = .empty ∨ j.phase = .done) ∧ some j.base ∉ s.revisions)
  | .finishing j => s.journal = written a j ∧ (j.phase = .confirmed ∨ j.phase = .empty)
  | .retired j | .closing j => s.journal = written a j ∧ j.phase = .confirmed

structure Inv (a : Account) (s : Machine) : Prop where
  ids : (s.issued.map CommitIntent.id).Nodup
  made : ∀ i ∈ s.issued, i.base = i
  shape : s.journal = .absent ∨ ∃ j, s.journal = written a j
  journal : ∀ j, s.journal = written a j → j.base ∈ s.issued ∧ (j.phase = .attempting → j.base = j) ∧
    (j.phase = .empty → some j.base ∉ s.revisions)
  calls_nodup : s.calls.Nodup
  calls : ∀ i ∈ s.calls, i ∈ s.issued
  flying_nodup : s.inFlight.Nodup
  flying : ∀ i ∈ s.inFlight, i ∈ s.calls ∧ s.journal = written a i ∧ some i ∉ s.revisions
  revs_nodup : (s.revisions.filterMap id).Nodup
  revs : ∀ i, some i ∈ s.revisions → i ∈ s.calls
  control : ControlOk a s s.control

lemma written_injective (h : written a i = written a j) : i = j := by
  simp only [written, StoredIntent.regular.injEq, some.injEq] at h
  exact h.2

lemma eq_of_readIntentFile {old : Option CommitIntent} (h : readIntentFile a (written a i) = .ok old) :
    old = some i := by
  rw [written, readIntentFile] at h
  split at h
  · cases h
  · obtain ⟨_, _, hj⟩ := Fallible.map_eq_ok.mp h
    exact hj.symm

lemma Inv.eq_of_id (h : Inv a s) (hi : i ∈ s.issued) (hj : j ∈ s.issued) (he : i.id = j.id) :
    i = j := inj_on_of_nodup_map h.ids hi hj he

lemma Inv.read (h : Inv a s) (hj : readIntentFile a s.journal = .ok (some j)) : s.journal = written a j := by
  rcases h.shape with hs | ⟨i, hs⟩
  · rw [hs] at hj
    cases hj
  · rw [hs] at hj ⊢
    rw [some.inj (eq_of_readIntentFile hj)]

lemma mem_revisions_of_revisionOf {id : String} (h : revisionOf revisions id = some rev) :
    ∃ i, some i ∈ revisions ∧ i.id = id := by
  obtain ⟨k, hk, _⟩ := map_eq_some_iff.mp h
  obtain ⟨hlt, hid, _⟩ := findIdx?_eq_some_iff_getElem.mp hk
  obtain ⟨i, hi, he⟩ := (any_eq_true _ _).mp hid
  exact ⟨i, hi ▸ getElem_mem hlt, of_decide_eq_true he⟩

lemma notMem_revisions_of_revisionOf (h : revisionOf revisions i.id = none) : some i ∉ revisions := by
  intro hi
  have hnone := findIdx?_eq_none_iff.mp (map_eq_none_iff.mp h) (some i) hi
  simp at hnone

lemma newIntent_admitted (h : newIntent a t plan = .ok i) :
    i.id = t.newID ∧ ∀ j, t.stored = written a j → j.phase = .done := by
  obtain ⟨⟨hid, old, hread, hdone⟩, _⟩ := newIntent_eq_ok h
  refine ⟨hid, fun j hj => ?_⟩
  rw [hj] at hread
  rw [eq_of_readIntentFile hread] at hdone
  simpa using hdone

def FreshID (s : Machine) : Action a → Prop
  | .flush _ t => t.newID ∉ s.issued.map CommitIntent.id
  | _ => True

lemma phase_of_base (h : i.base = i) : i.phase = .attempting := by
  rw [← h]
  rfl

lemma Inv.grounded (h : Inv a s) (hj : s.journal = written a j) (hp : j.phase ≠ .attempting) : s.inFlight = [] := by
  apply eq_nil_iff_forall_not_mem.mpr
  intro i hi
  obtain ⟨hc, hji, _⟩ := h.flying i hi
  apply hp
  rw [written_injective (hj.symm.trans hji)]
  exact phase_of_base (h.made i (h.calls i hc))

lemma Inv.grounded_armed (h : Inv a s) (hj : s.journal = written a i) (hc : i ∉ s.calls) : s.inFlight = [] := by
  apply eq_nil_iff_forall_not_mem.mpr
  intro x hx
  obtain ⟨hxc, hjx, _⟩ := h.flying x hx
  rw [written_injective (hj.symm.trans hjx)] at hc
  exact hc hxc

lemma ControlOk.served {inFlight : List CommitIntent} (hf : ∀ x, x ∉ s.inFlight → x ∉ inFlight)
    (hr : ∀ x, x ∉ s.inFlight → some x ∉ s.revisions → some x ∉ revisions) {c : Control} (h : ControlOk a s c) :
    ControlOk a { s with inFlight := inFlight, revisions := revisions } c := by
  cases c with
  | waiting x sent =>
    obtain ⟨hj, hc, hb, hsent⟩ := h
    refine ⟨hj, hc, hb, ?_⟩
    intro hs
    exact ⟨hf x (hsent hs).1, hr x (hsent hs).1 (hsent hs).2⟩
  | answered j =>
    obtain ⟨hj, hc, hfly, hphase⟩ := h
    exact ⟨hj, hc, hf _ hfly, hphase.imp_right fun ⟨hp, hn⟩ => ⟨hp, hr _ hfly hn⟩⟩
  | idle | prepared x | armed x | finishing x | retired x | closing x => exact h

section

variable (h : Inv a s)
include h

lemma Inv.landed (hi : i ∈ s.inFlight) :
    Inv a { s with inFlight := s.inFlight.erase i, revisions := s.revisions ++ [some i] } := by
  obtain ⟨hc, hj, hr⟩ := h.flying i hi
  have hp : i.phase = .attempting := phase_of_base (h.made i (h.calls i hc))
  have hnew : ∀ x : CommitIntent, some x ∉ s.revisions → x ≠ i → some x ∉ s.revisions ++ [some i] := by
    intro x hx hne
    simp [hx, hne]
  refine { h with
    journal := ?_, flying_nodup := h.flying_nodup.erase i, flying := ?_, revs_nodup := ?_, revs := ?_, control := ?_ }
  · intro j hj'
    obtain ⟨hm, ha, _⟩ := h.journal j hj'
    refine ⟨hm, ha, ?_⟩
    intro he
    rw [written_injective (hj.symm.trans hj'), he] at hp
    cases hp
  · intro x hx
    obtain ⟨hne, hx⟩ := h.flying_nodup.mem_erase_iff.mp hx
    obtain ⟨hxc, hxj, hxr⟩ := h.flying x hx
    exact ⟨hxc, hxj, hnew x hxr hne⟩
  · simp only [filterMap_append, filterMap_cons, id, filterMap_nil]
    refine nodup_append.mpr ⟨h.revs_nodup, by simp, ?_⟩
    intro x hx y hy
    rw [mem_singleton.mp hy]
    intro he
    apply hr
    obtain ⟨o, ho, hox⟩ := mem_filterMap.mp hx
    rw [← he, ← hox]
    exact ho
  · intro x hx
    rcases mem_append.mp hx with hx | hx
    · exact h.revs x hx
    · cases mem_singleton.mp hx
      exact hc
  · refine h.control.served (fun x hx hm => hx (mem_of_mem_erase hm)) ?_
    intro x hx hxr
    exact hnew x hxr (fun he => hx (he ▸ hi))

lemma Inv.aborted (p : CommitIntent → Bool) : Inv a { s with inFlight := s.inFlight.filter p } := by
  have hsub : ∀ x, x ∈ s.inFlight.filter p → x ∈ s.inFlight := fun x hx => (mem_filter.mp hx).1
  exact { h with
    flying_nodup := h.flying_nodup.filter p, flying := fun i hi => h.flying i (hsub i hi),
    control := h.control.served (fun x hx hm => hx (hsub x hm)) (fun _ _ hr => hr) }

lemma Inv.foreign : Inv a { s with revisions := s.revisions ++ [none] } := by
  have hmem : ∀ x : CommitIntent, some x ∈ s.revisions ++ [none] ↔ some x ∈ s.revisions := by simp
  refine { h with journal := ?_, flying := ?_, revs_nodup := ?_, revs := fun x hx => h.revs x ((hmem x).mp hx), control := ?_ }
  · intro j hj
    simp only [hmem]
    exact h.journal j hj
  · intro x hx
    simp only [hmem]
    exact h.flying x hx
  · simpa using h.revs_nodup
  · refine h.control.served (fun _ hx => hx) ?_
    intro x _ hx
    rwa [hmem]

lemma Inv.prepared (staging cache : Staging) (hi : newIntent a t plan = .ok i)
    (hs : t.stored = s.journal) (hf : t.newID ∉ s.issued.map CommitIntent.id) :
    Inv a { s with staging := staging, cache := cache, control := .prepared i, issued := i :: s.issued } := by
  obtain ⟨hid, hold⟩ := newIntent_admitted hi
  obtain ⟨_, _, hphase, hrev, _, _⟩ := newIntent_eq_ok hi
  rw [← hid] at hf
  have hnot : i ∉ s.issued := fun hm => hf (mem_map_of_mem hm)
  have hbase : i.base = i := by rw [CommitIntent.base, ← hphase, ← hrev]
  refine { h with
    ids := nodup_cons.mpr ⟨hf, h.ids⟩, made := ?_, journal := ?_,
    calls := fun x hx => mem_cons_of_mem i (h.calls x hx), control := ?_ }
  · intro x hx
    rcases mem_cons.mp hx with rfl | hx
    · exact hbase
    · exact h.made x hx
  · intro j hj
    exact ⟨mem_cons_of_mem i (h.journal j hj).1, (h.journal j hj).2⟩
  · refine ⟨mem_cons_self, fun hm => hnot (h.calls i hm), ?_⟩
    intro j hj
    refine ⟨hold j (hs.trans hj), ?_⟩
    intro he
    exact hnot (he ▸ (h.journal j hj).1)

lemma Inv.replaced (hj : s.journal = written a i) (hb : j.base = i.base)
    (hp : j.phase ≠ .attempting) (hf : s.inFlight = []) (he : j.phase = .empty → some j.base ∉ s.revisions)
    (hc : next = .idle ∨ next = .finishing j ∧ (j.phase = .confirmed ∨ j.phase = .empty)) :
    Inv a { s with journal := written a j, control := next } := by
  refine { h with shape := .inr ⟨j, rfl⟩, journal := ?_, flying := ?_, control := ?_ }
  · intro j' hj'
    obtain rfl := written_injective hj'
    exact ⟨hb ▸ (h.journal i hj).1, fun ha => (hp ha).elim, he⟩
  · intro x hx
    rw [hf] at hx
    cases hx
  · rcases hc with rfl | ⟨rfl, hphase⟩
    · trivial
    · exact ⟨rfl, hphase⟩

lemma Inv.called (sent : Bool) (hs : s.control = .armed i) : Inv a { s with
      calls := i :: s.calls, inFlight := if sent then i :: s.inFlight else s.inFlight, control := .waiting i sent } := by
  have hctl := h.control
  rw [hs] at hctl
  obtain ⟨hj, hc, hb⟩ := hctl
  have hnone := h.grounded_armed hj hc
  have hr : some i ∉ s.revisions := fun hm => hc (h.revs i hm)
  have hissued : i ∈ s.issued := hb ▸ (h.journal i hj).1
  refine { h with
    calls_nodup := nodup_cons.mpr ⟨hc, h.calls_nodup⟩, calls := ?_, flying_nodup := ?_, flying := ?_,
    revs := fun x hx => mem_cons_of_mem i (h.revs x hx), control := ?_ }
  · intro x hx
    rcases mem_cons.mp hx with rfl | hx
    · exact hissued
    · exact h.calls x hx
  · rw [hnone]
    cases sent <;> simp
  · intro x hx
    rw [hnone] at hx
    cases sent with
    | false => cases hx
    | true =>
      rw [mem_singleton.mp hx]
      exact ⟨mem_cons_self, hj, hr⟩
  · refine ⟨hj, mem_cons_self, hb, ?_⟩
    intro hf
    rw [hf, hnone]
    exact ⟨by simp, hr⟩

lemma Inv.found (hj : s.journal = written a i) (hb : i.base = i)
    (hr : revisionOf s.revisions i.id = some rev) : Inv a { s with control := .answered (i.confirm rev) } := by
  obtain ⟨x, hx, hid⟩ := mem_revisions_of_revisionOf hr
  have hissued : i ∈ s.issued := hb ▸ (h.journal i hj).1
  obtain rfl := h.eq_of_id (h.calls x (h.revs x hx)) hissued hid
  have hbase : (x.confirm rev).base = x := hb
  refine { h with control := ?_ }
  rw [ControlOk, hbase]
  exact ⟨hj, h.revs x hx, fun hm => (h.flying x hm).2.2 hx, .inl rfl⟩

lemma Inv.turn (hf : FreshID s e) (ht : Turn a s e s') : Inv a s' := by
  have hctl := h.control
  cases ht with
  | stays => exact h
  | gaveUp | crashed => exact { h with control := trivial }
  | queued | saved | restaged => exact { h with }
  | foreign => exact h.foreign
  | landed _ hi => exact h.landed hi
  | aborted => exact h.aborted _
  | prepared _ _ hi => exact h.prepared _ _ hi rfl hf
  | @armed i hs =>
    rw [hs] at hctl
    obtain ⟨hi, hc, hold⟩ := hctl
    refine { h with shape := .inr ⟨i, rfl⟩, journal := ?_, flying := ?_, control := ⟨rfl, hc, h.made i hi⟩ }
    · intro j hj
      obtain rfl := written_injective hj
      have hb := h.made i hi
      exact ⟨hb.symm ▸ hi, fun _ => hb, fun he => nomatch (phase_of_base hb).symm.trans he⟩
    · intro x hx
      obtain ⟨hxc, hxj, _⟩ := h.flying x hx
      have hdone := (hold x hxj).1
      rw [phase_of_base (h.made x (h.calls x hxc))] at hdone
      cases hdone
  | @recorded j hs =>
    rw [hs] at hctl
    obtain ⟨hj, _, hfly, hphase⟩ := hctl
    have hnone : s.inFlight = [] := by
      apply eq_nil_iff_forall_not_mem.mpr
      intro x hx
      rw [← written_injective (hj.symm.trans (h.flying x hx).2.1)] at hx
      exact hfly hx
    refine h.replaced hj rfl ?_ hnone ?_ ?_
    · rcases hphase with hp | ⟨hp | hp, _⟩ <;> simp [hp]
    · intro he
      rcases hphase with hp | ⟨_, hn⟩
      · exact nomatch hp.symm.trans he
      · exact hn
    · rcases hphase with hp | ⟨hp | hp, _⟩ <;> simp [hp]
  | @closed j hs =>
    have hj : s.journal = written a j ∧ j.phase ≠ .attempting := by
      rcases hs with ⟨hs, hp⟩ | hs
      · rw [hs] at hctl
        exact ⟨hctl.1, by simp [hp]⟩
      · rw [hs] at hctl
        exact ⟨hctl.1, by simp [hctl.2]⟩
    exact h.replaced hj.1 rfl (by simp [CommitIntent.finish]) (h.grounded hj.1 hj.2) nofun (.inl rfl)
  | called sent hs => exact h.called sent hs
  | @refused i hs =>
    rw [hs] at hctl
    obtain ⟨hj, hc, hb, hsent⟩ := hctl
    have hbase : i.finish.base = i := hb
    refine { h with control := ?_ }
    rw [ControlOk, hbase]
    exact ⟨hj, hc, (hsent rfl).1, .inr ⟨.inr rfl, (hsent rfl).2⟩⟩
  | @emptied i sent hs hfly hr =>
    rw [hs] at hctl
    obtain ⟨hj, hc, hb, _⟩ := hctl
    have hbase : CommitIntent.base { i with phase := .empty } = i := hb
    refine { h with control := ?_ }
    rw [ControlOk, hbase]
    exact ⟨hj, hc, hfly, .inr ⟨.inl rfl, notMem_revisions_of_revisionOf hr⟩⟩
  | @found i rev _ hs hr =>
    rcases hs with ⟨sent, hs⟩ | ⟨hread, hp⟩
    · rw [hs] at hctl
      exact h.found hctl.1 hctl.2.2.1 hr
    · have hj := h.read hread
      exact h.found hj ((h.journal i hj).2.1 hp) hr
  | resumed hread hp => exact { h with control := ⟨h.read hread, hp⟩ }
  | retired _ _ hs hp =>
    rw [hs] at hctl
    exact { h with control := ⟨hctl.1, hp⟩ }
  | checkpointed hs =>
    rw [hs] at hctl
    exact { h with control := hctl }

end

inductive PhaseStep : Phase → Phase → Prop
  | confirmed : PhaseStep .attempting .confirmed
  | empty : PhaseStep .attempting .empty
  | unsent : PhaseStep .attempting .done
  | published : PhaseStep .confirmed .done
  | nothing : PhaseStep .empty .done

def Moves (a : Account) (s s' : Machine) : Prop :=
  s'.journal = s.journal ∨
    (∃ i, s'.journal = written a i ∧ i.phase = .attempting ∧
      (s.journal = .absent ∨ ∃ old, s.journal = written a old ∧ old.phase = .done ∧ old.id ≠ i.id)) ∨
    ∃ i j, s.journal = written a i ∧ s'.journal = written a j ∧ j.id = i.id ∧ PhaseStep i.phase j.phase ∧
      (i.phase = .attempting → j.phase = .done → some i ∉ s'.revisions ∧ i ∉ s'.inFlight)

lemma Inv.moves (h : Inv a s) (ht : Turn a s e s') : Moves a s s' := by
  have hctl := h.control
  cases ht with
  | @armed i hs =>
    rw [hs] at hctl
    obtain ⟨hi, _, hold⟩ := hctl
    refine .inr (.inl ⟨i, rfl, phase_of_base (h.made i hi), h.shape.imp_right ?_⟩)
    rintro ⟨old, ho⟩
    refine ⟨old, ho, (hold old ho).1, ?_⟩
    intro hid
    exact (hold old ho).2 (h.eq_of_id (h.journal old ho).1 hi hid)
  | @recorded j hs =>
    rw [hs] at hctl
    obtain ⟨hj, _, hfly, hphase⟩ := hctl
    refine .inr (.inr ⟨j.base, j, hj, rfl, rfl, ?_, ?_⟩)
    · rcases hphase with hp | ⟨hp | hp, _⟩
      · rw [hp]
        exact .confirmed
      · rw [hp]
        exact .empty
      · rw [hp]
        exact .unsent
    · intro _ hd
      rcases hphase with hp | ⟨_, hn⟩
      · exact nomatch hp.symm.trans hd
      · exact ⟨hn, hfly⟩
  | @closed j hs =>
    rcases hs with ⟨hs, hp⟩ | hs
    · rw [hs] at hctl
      refine .inr (.inr ⟨j, j.finish, hctl.1, rfl, rfl, ?_, ?_⟩)
      · rw [hp]
        exact .nothing
      · intro ha
        exact nomatch ha.symm.trans hp
    · rw [hs] at hctl
      refine .inr (.inr ⟨j, j.finish, hctl.1, rfl, rfl, ?_, ?_⟩)
      · rw [hctl.2]
        exact .published
      · intro ha
        exact nomatch ha.symm.trans hctl.2
  | _ => exact .inl rfl

lemma Inv.calling (h : Inv a s) (ht : Turn a s e s') (hi : i ∈ s'.calls) (hn : i ∉ s.calls) :
    s.journal = written a i ∧ i.phase = .attempting ∧ s.inFlight = [] := by
  cases ht with
  | called sent hs =>
    have hctl := h.control
    rw [hs] at hctl
    obtain ⟨hj, hc, hb⟩ := hctl
    rcases mem_cons.mp hi with rfl | hi
    · exact ⟨hj, phase_of_base hb, h.grounded_armed hj hc⟩
    · exact (hn hi).elim
  | _ => exact (hn hi).elim

lemma inv_start (a : Account) : Inv a {} where
  ids := List.nodup_nil
  made := by simp
  shape := .inl rfl
  journal := fun _ hj => nomatch hj
  calls_nodup := nodup_nil
  calls := by simp
  flying_nodup := nodup_nil
  flying := by simp
  revs_nodup := nodup_nil
  revs := by simp
  control := trivial

end FileES.Commit
