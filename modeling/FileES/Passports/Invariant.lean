import FileES.Passports.Manager

/-! What the passports in memory, in the store and on the disk agree on about the lock calls made so far. -/

namespace FileES.Passports

open Go Lib.Maps Lib.Durable List

def Stage.past : Stage → Bool
  | .locking | .checking | .settling => true
  | .prepare | .canceling => false

def Call.resolves : Call → Bool
  | .confirm | .reconcile | .settle | .found => true
  | .prepare | .acquire | .cancel => false

def Entry.Commits (e : Entry) (epoch : ℕ) : Prop := e.call = .acquire ∨ (e.call = .found ∧ e.epoch = epoch)

variable (m : Manager)

def Acquired (id : ℕ) : Prop := ∃ e ∈ m.trace, e.id = id ∧ e.call = .acquire

def Committed (id : ℕ) : Prop := ∃ e ∈ m.trace, e.id = id ∧ e.Commits m.epoch

def FitsBy (C : ℕ → Prop) (m : Manager) (path : Path) (p : Passport) : Prop :=
  ∀ i, p.pending = some i → m.issued[i.id]? = some path ∧ (C i.id → i.stage.past = true)

abbrev Fits (path : Path) (p : Passport) : Prop := FitsBy (Committed m) m path p

def FitsAll (C : ℕ → Prop) (m : Manager) (passports : Map Path Passport) : Prop :=
  ∀ path p, passports.lookup path = some p → FitsBy C m path p

def Entry.Before (e f : Entry) : Prop := e.id = f.id → e.Commits f.epoch → f.call.resolves = true

structure Sound : Prop where
  memory : FitsAll (Committed m) m m.passports
  disk : FitsAll (Committed m) m m.store
  power : FitsAll (Acquired m) m m.synced
  known : ∀ e ∈ m.trace, e.id < m.issued.length ∧ e.epoch ≤ m.epoch
  ordered : m.trace.Pairwise Entry.Before
  durable : ∀ e ∈ m.trace, e.call = .acquire → e.durable = some .locking

def Holds (path : Path) (p : Passport) (m : Manager) : Prop := Sound m ∧ Fits m path p

variable {m : Manager} {id : ℕ} {C D : ℕ → Prop} {path : Path} {p q : Passport} {passports : Map Path Passport}
  {i : LockIntent} {stage : Stage} {e : Entry}

lemma Acquired.committed (h : Acquired m id) : Committed m id := by
  obtain ⟨e, he, hid, hcall⟩ := h
  exact ⟨e, he, hid, .inl hcall⟩

lemma FitsBy.mono (h : FitsBy C m path p) (hd : ∀ id, D id → C id) : FitsBy D m path p := by
  intro i hi
  exact ⟨(h i hi).1, fun hc => (h i hi).2 (hd i.id hc)⟩

lemma FitsAll.acquired (h : FitsAll (Committed m) m passports) : FitsAll (Acquired m) m passports := by
  intro path p hp
  exact (h path p hp).mono (fun _ hc => hc.committed)

lemma fits_of_pending_none (h : p.pending = none) : Fits m path p := by
  intro i hi
  rw [h] at hi
  cases hi

section

variable (h : Fits m path p)
include h

lemma FitsBy.of_pending (hq : q.pending = p.pending) : Fits m path q := by
  intro i hi
  exact h i (hq ▸ hi)

lemma FitsBy.atStage_past (hi : p.pending = some i) (hs : stage.past = true) : Fits m path (p.atStage i stage) := by
  intro j hj
  cases hj
  exact ⟨(h i hi).1, fun _ => hs⟩

lemma FitsBy.not_committed (hi : p.pending = some i) (hs : i.stage.past = false) : ¬ Committed m i.id := by
  intro hc
  rw [(h i hi).2 hc] at hs
  cases hs

lemma FitsBy.atStage (hi : p.pending = some i) (hs : i.stage.past = false) : Fits m path (p.atStage i stage) := by
  intro j hj
  cases hj
  exact ⟨(h i hi).1, fun hc => (h.not_committed (i := i) hi hs hc).elim⟩

end

lemma FitsAll.insert (h : FitsAll C m passports) (hp : FitsBy C m path p) :
    FitsAll C m (passports.insert path p) := by
  intro path' q hq
  rcases lookup_insert_eq_some.mp hq with ⟨rfl, rfl⟩ | ⟨_, hq⟩
  · exact hp
  · exact h path' q hq

lemma FitsAll.erase (h : FitsAll C m passports) : FitsAll C m (passports.erase path) := by
  intro path' q hq
  exact h path' q (lookup_erase_eq_some.mp hq).2

lemma fitsAll_empty (C : ℕ → Prop) (m : Manager) : FitsAll C m ∅ := by
  intro path p hp
  simp at hp

lemma Sound.put (h : Sound m) (hp : Fits m path p) : Sound { m with passports := m.passports.insert path p } :=
  { h with memory := h.memory.insert hp }

lemma Sound.delete (h : Sound m) : Sound { m with passports := m.passports.erase path } :=
  { h with memory := h.memory.erase }

lemma Sound.saved (h : Sound m) (w : Write) : Sound (saved w m) := by
  cases w with
  | done => exact { h with disk := h.memory, power := h.memory.acquired }
  | failed => exact { h with }
  | unsynced => exact { h with disk := h.memory }

lemma Holds.saved (h : Holds path p m) (w : Write) : Holds path p (saved w m) := ⟨h.1.saved w, h.2⟩

structure Allowed (m : Manager) (e : Entry) : Prop where
  known : e.id < m.issued.length
  now : e.epoch = m.epoch
  after : Committed m e.id → e.call.resolves = true
  durable : e.call = .acquire → e.durable = some .locking

def logged (m : Manager) (e : Entry) : Manager := { m with trace := m.trace ++ [e] }

lemma committed_logged : Committed (logged m e) id ↔ Committed m id ∨ (e.id = id ∧ e.Commits m.epoch) := by
  simp [Committed, logged, or_and_right, exists_or]

lemma acquired_logged : Acquired (logged m e) id ↔ Acquired m id ∨ (e.id = id ∧ e.call = .acquire) := by
  simp [Acquired, logged, or_and_right, exists_or]

lemma FitsBy.weaken (h : FitsBy C m path p)
    (hd : ∀ i, p.pending = some i → D i.id → C i.id ∨ i.stage.past = true) : FitsBy D m path p := by
  intro i hi
  refine ⟨(h i hi).1, fun hc => ?_⟩
  rcases hd i hi hc with hc | hs
  · exact (h i hi).2 hc
  · exact hs

lemma Sound.logged (h : Sound m) (ha : Allowed m e)
    (hread : e.Commits m.epoch → ∀ path p i, m.passports.lookup path = some p ∨ m.store.lookup path = some p →
      p.pending = some i → e.id = i.id → i.stage.past = true)
    (hpower : e.call = .acquire → ∀ path p i, m.synced.lookup path = some p → p.pending = some i → e.id = i.id →
      i.stage.past = true) : Sound (logged m e) where
  memory := by
    intro path p hp
    refine (h.memory path p hp).weaken (fun i hi hc => ?_)
    exact (committed_logged.mp hc).imp_right (fun he => hread he.2 path p i (.inl hp) hi he.1)
  disk := by
    intro path p hp
    refine (h.disk path p hp).weaken (fun i hi hc => ?_)
    exact (committed_logged.mp hc).imp_right (fun he => hread he.2 path p i (.inr hp) hi he.1)
  power := by
    intro path p hp
    refine (h.power path p hp).weaken (fun i hi hc => ?_)
    exact (acquired_logged.mp hc).imp_right (fun he => hpower he.2 path p i hp hi he.1)
  known := by
    intro f hf
    rcases mem_append.mp hf with hf | hf
    · exact h.known f hf
    · rw [mem_singleton.mp hf]
      exact ⟨ha.known, ha.now.le⟩
  ordered := by
    refine pairwise_append.mpr ⟨h.ordered, pairwise_singleton _ _, ?_⟩
    intro f hf g hg
    rw [mem_singleton.mp hg]
    intro hid hcall
    rw [ha.now] at hcall
    exact ha.after ⟨f, hf, hid, hcall⟩
  durable := by
    intro f hf
    rcases mem_append.mp hf with hf | hf
    · exact h.durable f hf
    · rw [mem_singleton.mp hf]
      exact ha.durable

lemma lt_of_issued (h : m.issued[id]? = some path) : id < m.issued.length := (List.getElem?_eq_some_iff.mp h).1

def Call.plain : Call → Bool
  | .acquire | .found => false
  | _ => true

lemma not_commits_of_plain {epoch : ℕ} (h : e.call.plain = true) : ¬ e.Commits epoch := by
  rintro (hc | ⟨hc, _⟩) <;> rw [hc] at h <;> cases h

lemma Holds.logged (h : Holds path p m) (hi : p.pending = some i) (hid : e.id = i.id) (hnow : e.epoch = m.epoch)
    (hcall : e.call.plain = true) (hafter : Committed m i.id → e.call.resolves = true) :
    Holds path p (logged m e) := by
  have hno : ¬ e.Commits m.epoch := not_commits_of_plain hcall
  have hacq : e.call ≠ .acquire := fun hc => hno (.inl hc)
  refine ⟨h.1.logged ⟨?_, hnow, ?_, fun hc => absurd hc hacq⟩ (fun hc => absurd hc hno) (fun hc => absurd hc hacq), ?_⟩
  · exact hid ▸ lt_of_issued (h.2 i hi).1
  · rw [hid]
    exact hafter
  · exact h.2.weaken (fun j _ hc => (committed_logged.mp hc).imp_right (fun he => absurd he.2 hno))

structure Ready (path : Path) (p : Passport) (i : LockIntent) (m : Manager) : Prop where
  sound : Sound m
  pending : p.pending = some i
  stage : i.stage = .locking
  issued : m.issued[i.id]? = some path
  fresh : ¬ Committed m i.id
  memory : m.passports.lookup path = some p
  disk : m.store = m.passports
  power : m.synced = m.passports

lemma Sound.unique {path' : Path} {j : LockIntent} (h : FitsAll C m passports)
    (hp : passports.lookup path = some p) (hi : p.pending = some i) (hq : passports.lookup path' = some q)
    (hj : q.pending = some j) (hid : i.id = j.id) : j = i := by
  have hpath := (h path' q hq j hj).1
  rw [← hid, (h path p hp i hi).1] at hpath
  cases hpath
  rw [hp] at hq
  cases hq
  rw [hi] at hj
  cases hj
  rfl

lemma Ready.acquired (h : Ready path p i m) :
    Holds path p (logged m ⟨.acquire, i.id, stageIn m.synced path i.id, m.epoch⟩) := by
  have hpast : ∀ path' q j, m.passports.lookup path' = some q → q.pending = some j → i.id = j.id →
      j.stage.past = true := by
    intro path' q j hq hj hid
    rw [Sound.unique h.sound.memory h.memory h.pending hq hj hid, h.stage]
    rfl
  have hsound : Sound (logged m ⟨.acquire, i.id, stageIn m.synced path i.id, m.epoch⟩) := by
    refine h.sound.logged ⟨lt_of_issued h.issued, rfl, fun hc => absurd hc h.fresh, ?_⟩ ?_ ?_
    · intro _
      simp [stageIn, h.power, h.memory, h.pending, h.stage]
    · intro _ path' q j hq
      rw [h.disk, or_self] at hq
      exact hpast path' q j hq
    · intro _ path' q j hq
      rw [h.power] at hq
      exact hpast path' q j hq
  exact ⟨hsound, hsound.memory path p h.memory⟩

lemma FitsAll.issue (h : FitsAll C m passports) : FitsAll C (issue path p m) passports := by
  intro path' q hq i hi
  have hid := (h path' q hq i hi).1
  refine ⟨?_, (h path' q hq i hi).2⟩
  simp only [Passports.issue]
  rw [getElem?_append_left (lt_of_issued hid)]
  exact hid

lemma Sound.issue (h : Sound m) (hi : p.pending = some i) (hid : i.id = m.issued.length) :
    Holds path p (issue path p m) := by
  have hnew : Fits (Passports.issue path p m) path p := by
    intro j hj
    rw [hi] at hj
    cases hj
    refine ⟨by simp [Passports.issue, hid], ?_⟩
    rintro ⟨e, he, heid, _⟩
    have := (h.known e he).1
    omega
  refine ⟨⟨h.memory.issue.insert hnew, h.disk.issue, h.power.issue, ?_, h.ordered, h.durable⟩, hnew⟩
  intro e he
  have := h.known e he
  simp only [Passports.issue, length_append, length_singleton]
  omega

lemma committed_power (h : Sound m) (hc : Committed (kill true m) id) : Acquired m id := by
  obtain ⟨e, he, hid, hcall | ⟨_, hepoch⟩⟩ := hc
  · exact ⟨e, he, hid, hcall⟩
  · have hle := (h.known e he).2
    have heq : e.epoch = m.epoch + 1 := hepoch
    omega

lemma Sound.kill (h : Sound m) (power : Bool) : Sound (kill power m) := by
  cases power with
  | false => exact { h with memory := fitsAll_empty _ _ }
  | true =>
    refine ⟨fitsAll_empty _ _, ?_, h.power, ?_, h.ordered, h.durable⟩
    · intro path p hp
      exact (h.power path p hp).mono (fun _ hc => committed_power h hc)
    · intro e he
      exact ⟨(h.known e he).1, Nat.le_succ_of_le (h.known e he).2⟩

lemma mem_foundEntries (h : e ∈ foundEntries m) :
    ∃ path p i, m.store.lookup path = some p ∧ p.pending = some i ∧ i.stage = .locking ∧ e.call = .found ∧
      e.id = i.id ∧ e.epoch = m.epoch := by
  obtain ⟨⟨path, p⟩, hp, he⟩ := mem_filterMap.mp h
  dsimp only at he
  split at he
  · rename_i i hi
    split at he
    · rename_i hstage
      cases he
      exact ⟨path, p, i, mem_entries_iff.mp hp, hi, hstage, rfl, rfl, rfl⟩
    · cases he
  · cases he

lemma Sound.found (h : Sound m) (hmem : m.passports = m.store) (hp : m.store.lookup path = some p)
    (hi : p.pending = some i) (hstage : i.stage = .locking) (hcall : e.call = .found) (hid : e.id = i.id)
    (hnow : e.epoch = m.epoch) : Sound (Passports.logged m e) := by
  have hne : e.call ≠ .acquire := by simp [hcall]
  refine h.logged ⟨?_, hnow, ?_, fun hc => absurd hc hne⟩ ?_ (fun hc => absurd hc hne)
  · exact hid ▸ lt_of_issued (h.disk path p hp i hi).1
  · intro _
    rw [hcall]
    rfl
  · intro _ path' q j hq hj hej
    rw [hmem, or_self] at hq
    rw [Sound.unique h.disk hp hi hq hj (hid ▸ hej), hstage]
    rfl

lemma Sound.found_all (h : Sound m) (hmem : m.passports = m.store) (es : List Entry)
    (hes : ∀ e ∈ es, ∃ path p i, m.store.lookup path = some p ∧ p.pending = some i ∧ i.stage = .locking ∧
      e.call = .found ∧ e.id = i.id ∧ e.epoch = m.epoch) : Sound { m with trace := m.trace ++ es } := by
  induction es generalizing m with
  | nil => simpa using h
  | cons e es ih =>
    obtain ⟨path, p, i, hp, hi, hstage, hcall, hid, hnow⟩ := hes e (by simp)
    have hone := h.found hmem hp hi hstage hcall hid hnow
    have hrest := ih hone hmem (fun f hf => hes f (by simp [hf]))
    simpa [Passports.logged] using hrest

lemma Sound.start {cfg : Config} {bound : Bool} (h : Sound m) : Sound (start cfg bound m) := by
  unfold Passports.start
  split
  · have hread : Sound { m with running := true, passports := m.store } := { h with memory := h.disk }
    exact hread.found_all rfl _ (fun e he => mem_foundEntries he)
  · exact h

lemma sound_empty : Sound Manager.empty :=
  ⟨fitsAll_empty _ _, fitsAll_empty _ _, fitsAll_empty _ _, by simp [Manager.empty], List.Pairwise.nil,
    by simp [Manager.empty]⟩

end FileES.Passports
