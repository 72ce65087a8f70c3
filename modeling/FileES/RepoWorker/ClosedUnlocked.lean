import FileES.RepoWorker.ExecutionJournal

/-! A closed acquisition leaves no lock behind, unless its process takes the lock after the worker has looked for it and
before the worker finds the process gone. -/

namespace FileES.RepoWorker

open Go Lib.Maps Lib.Durable Lib.Runs Server

variable (s : Server)

def Unlocked (key : Key) : Prop :=
  ∀ path lock, s.locks.lookup (key.1, path) = some lock → ¬ Carries lock key.2

def Unpermitted (key : Key) : Prop := ∀ p ∈ s.permits, p.key ≠ key

def ClosedUnlocked : Prop :=
  ∀ key r, s.journal.lookup key = some r → r.state = .closed →
    s.generations.lookup key.1 = some r.repositoryUUID → Unlocked s key

def Closing.blind (c : Closing) : Bool :=
  match c.point with
  | .observe lock | .live lock => !matching c.record lock
  | _ => false

/-- The step is not an executor taking its lock behind the back of the worker that is closing the same acquisition. -/
def NotBehind : Event → Prop
  | .takeLock p => ∀ c ∈ s.worker, c.key = p.key → c.blind = false
  | _ => True

instance (s : Server) (e : Event) : Decidable (NotBehind s e) := by
  unfold NotBehind
  split <;> infer_instance

structure Knows (c : Closing) : Prop where
  blind : c.blind = true → Unlocked s c.key
  held : ∀ lock, c.point = .observe (some lock) → matching c.record (some lock) = true →
    1 < c.record.executorPID ∧ ∀ t, c.record.observedToken = some t → t = lock.token
  token : ∀ lock, c.point = .live (some lock) ∨ c.point = .unlock (some lock) →
    matching c.record (some lock) = true → c.record.observedToken = some lock.token
  settled : ∀ lock, c.point = .unlock lock → Unpermitted s c.key ∧ (matching c.record lock = false → Unlocked s c.key)
  astray : c.point = .orphan → some c.record.repositoryUUID ≠ c.generation
  done : c.point = .finish → Unpermitted s c.key ∧
    (some c.record.repositoryUUID = c.generation → Unlocked s c.key)

structure Good : Prop where
  sound : Sound s
  closed : ∀ key r, s.journal.lookup key = some r → r.state = .closed → Unpermitted s key
  unlocked : ClosedUnlocked s
  knows : ∀ c, s.worker = some c → Knows s c

lemma good_empty : Good empty where
  sound := sound_empty
  closed := by simp [empty]
  unlocked := by
    intro key r hr
    simp [empty] at hr
  knows := by simp [empty]

variable {s s' : Server} {key : Key}

lemma Unlocked.less (h : Unlocked s key) (hl : ∀ k lock, s'.locks.lookup k = some lock → s.locks.lookup k = some lock) :
    Unlocked s' key := fun path lock hk => h path lock (hl _ _ hk)

lemma Unpermitted.less (h : Unpermitted s key) (hp : s'.permits.Sublist s.permits) : Unpermitted s' key :=
  fun p hp' => h p (hp.subset hp')

variable {c : Closing} {r : Execution}

lemma Knows.mono (h : Knows s c) (hlock : Unlocked s c.key → Unlocked s' c.key)
    (hpermit : Unpermitted s c.key → Unpermitted s' c.key) : Knows s' c :=
  ⟨fun hb => hlock (h.blind hb), h.held, h.token, fun lock hp => ⟨hpermit (h.settled lock hp).1,
    fun hm => hlock ((h.settled lock hp).2 hm)⟩, h.astray, fun hp => ⟨hpermit (h.done hp).1, fun hg => hlock ((h.done hp).2 hg)⟩⟩

lemma knows_plain (hseen : c.point.seen = none) (hb : c.blind = false) (hu : ∀ lock, c.point ≠ .unlock lock)
    (hp : c.point ≠ .orphan ∧ c.point ≠ .finish) : Knows s c := by
  refine ⟨fun h => ?_, fun lock h => ?_, fun lock h => ?_, fun lock h => absurd h (hu lock), fun h => absurd h hp.1,
    fun h => absurd h hp.2⟩
  · rw [hb] at h
    cases h
  · rw [h] at hseen
    cases hseen
  · rcases h with h | h <;> rw [h] at hseen <;> cases hseen

section

variable (h : Good s)
include h

lemma Good.less (hl : Less s s') (hg : s'.generations = s.generations) : Good s' where
  sound := h.sound.less hl
  closed := by
    intro key r hr hs
    rw [hl.journal] at hr
    exact (h.closed key r hr hs).less hl.permits
  unlocked := by
    intro key r hr hs hgen
    rw [hl.journal] at hr
    rw [hg] at hgen
    exact (h.unlocked key r hr hs hgen).less hl.locks
  knows := by
    intro c hc
    exact (h.knows c (hl.worker c hc).1).mono (·.less hl.locks) (·.less hl.permits)

lemma Good.idle : Good s.idle := h.less (Less.idle s) rfl

lemma Good.replace (repo : Str) (generation : Option Str) : Good (replace s repo generation) := by
  have hl := Less.replace s repo generation
  have hcase : (RepoWorker.replace s repo generation) = s ∨ s.worker = none ∧
      (RepoWorker.replace s repo generation).worker = none ∧
      (RepoWorker.replace s repo generation).locks = clearRepository repo s.locks ∧
      ∀ other, other ≠ repo → (RepoWorker.replace s repo generation).generations.lookup other =
        s.generations.lookup other := by
    unfold RepoWorker.replace
    split
    · exact .inl rfl
    · rename_i hw
      exact .inr ⟨hw, hw, rfl, fun other hne => AList.lookup_insert_ne hne⟩
    · rename_i hw
      exact .inr ⟨hw, hw, rfl, fun other hne => AList.lookup_erase_ne hne⟩
  rcases hcase with heq | ⟨_, hnone, hlocks, hgens⟩
  · rw [heq]
    exact h
  · refine ⟨h.sound.less hl, ?_, ?_, ?_⟩
    · intro key r hr hs
      rw [hl.journal] at hr
      exact (h.closed key r hr hs).less hl.permits
    · intro key r hr hs hgen path lock hk
      rw [hl.journal] at hr
      rw [hlocks] at hk
      obtain ⟨hk, hne⟩ := lookup_clearRepository hk
      rw [hgens key.1 hne] at hgen
      exact h.unlocked key r hr hs hgen path lock hk
    · intro c hc
      rw [hnone] at hc
      cases hc

lemma Good.write_armed {r' : Execution} (w : Write) (hr : Unused s key)
    (hrec : RecordOk key r') (hworker : ∀ c, s.worker = some c → c.key ≠ key) : Good (s.write w key r') := by
  have hsound := h.sound.write_armed w hr hrec hworker
  unfold write at hsound ⊢
  split
  · rename_i hlanded
    rw [if_pos hlanded] at hsound
    refine ⟨hsound, ?_, ?_, fun c hc => (h.knows c hc).mono id id⟩
    · intro key' q hq hs
      rcases lookup_insert_eq_some.mp hq with ⟨rfl, rfl⟩ | ⟨_, hq⟩
      · exact h.sound.no_permit hr
      · exact h.closed key' q hq hs
    · intro key' q hq hs hgen
      rcases lookup_insert_eq_some.mp hq with ⟨rfl, rfl⟩ | ⟨_, hq⟩
      · exact h.sound.no_lock hr hrec.named
      · exact h.unlocked key' q hq hs hgen
  · exact h

lemma Good.begin (hj : s.journal.lookup key = some r) :
    Good { s with worker := some ⟨key, r, s.generations.lookup key.1, .mark⟩ } := by
  refine ⟨h.sound.begin hj, h.closed, h.unlocked, ?_⟩
  intro c hc
  cases hc
  exact knows_plain rfl rfl (by simp) (by simp)

end

variable {k : Str × Path} {tokens : ℕ} {p : Permit}

lemma good_served : Served Good where
  records h := h.sound.records _ _
  write w h := h.write_armed w
  begin h := h.begin

lemma Good.preLock (h : Good s) (hook : Hook) : Good (admitPassportExecution s hook) := by
  have hcase := admission s hook
  generalize admitPassportExecution s hook = s' at hcase
  have hstart : ∀ r, Admissible s hook r → ∀ w, Good (s.write w hook.key (r.start hook.pid)) := by
    intro r ha w
    exact h.write_armed w ha.unused
      ((h.sound.records _ _ ha.record).same ⟨rfl, rfl, rfl, rfl, rfl⟩ (by simp [Execution.start])) ha.worker
  cases hcase with
  | refused => exact h
  | expired r ha =>
    exact h.write_armed _ ha.unused ((h.sound.records _ _ ha.record).same ⟨rfl, rfl, rfl, rfl, rfl⟩ (by simp)) ha.worker
  | failed r ha => exact hstart r ha _
  | done r ha =>
    have hnew : Good { s with journal := s.journal.insert hook.key (r.start hook.pid) } := by
      have := hstart r ha .done
      rwa [write_of_ok rfl] at this
    have hadd : ∀ key, key ≠ hook.key → Unpermitted s key →
        Unpermitted (admitted { s with journal := s.journal.insert hook.key (r.start hook.pid) } hook r.state) key := by
      intro key hne hun p hp
      change p ∈ (if hook.accepted then hook.permit :: s.permits else s.permits) at hp
      split at hp
      · rcases List.mem_cons.mp hp with rfl | hp
        · exact fun hk => hne hk.symm
        · exact hun p hp
      · exact hun p hp
    refine ⟨h.sound.admitted_hook ha, ?_, hnew.unlocked, ?_⟩
    · intro key q hq hs
      rcases lookup_insert_eq_some.mp hq with ⟨rfl, rfl⟩ | ⟨hne, hq⟩
      · cases hs
      · exact hadd key hne (h.closed key q hq hs)
    · intro c hc
      exact (h.knows c hc).mono id (hadd c.key (ha.worker c hc))

lemma Unlocked.insert {lock : SvnLock} (h : Unlocked s key) (hnew : key.1 = k.1 → ¬ Carries lock key.2) :
    Unlocked { s with locks := s.locks.insert k lock, tokens := tokens } key := by
  intro path other hk
  rcases lookup_insert_eq_some.mp hk with ⟨hat, rfl⟩ | ⟨_, hk⟩
  · exact hnew (Prod.ext_iff.mp hat).1
  · exact h path other hk

lemma Good.insert_lock {lock : SvnLock} (h : Good s) (hsound : Sound { s with locks := s.locks.insert k lock, tokens := tokens })
    (hclosed : ∀ key r, s.journal.lookup key = some r → r.state = .closed → key.1 = k.1 → ¬ Carries lock key.2)
    (hworker : ∀ c, s.worker = some c → Knows { s with locks := s.locks.insert k lock, tokens := tokens } c) :
    Good { s with locks := s.locks.insert k lock, tokens := tokens } :=
  ⟨hsound, h.closed, fun key r hr hs hgen => (h.unlocked key r hr hs hgen).insert (hclosed key r hr hs), hworker⟩

lemma Knows.of_permit (h : Knows s c) (hp : p ∈ s.permits) (hk : p.key = c.key)
    (hb : c.blind = false) : Knows s' c := by
  refine ⟨fun hb' => ?_, h.held, h.token, fun lock hpt => absurd hk ((h.settled lock hpt).1 p hp), h.astray,
    fun hpt => absurd hk ((h.done hpt).1 p hp)⟩
  rw [hb] at hb'
  cases hb'

lemma Good.takeLock (h : Good s) (hc : NotBehind s (.takeLock p)) : Good (takeLock s p) := by
  have hsound := h.sound.takeLock p
  unfold RepoWorker.takeLock at hsound ⊢
  split
  · rename_i hp
    rw [if_pos hp] at hsound
    have hless : Good { s with permits := s.permits.erase p } := h.less (.letGo List.erase_sublist) rfl
    dsimp only at hsound ⊢
    split
    · exact hless
    · rename_i hfree
      rw [hfree] at hsound
      refine hless.insert_lock hsound ?_ ?_
      · intro key r hr hs hrepo hcar
        exact h.closed key r hr hs p hp (Prod.ext hrepo.symm (carries_permit hcar))
      · intro c hw
        by_cases hk : p.key = c.key
        · exact (h.knows c hw).of_permit hp hk (hc c hw hk.symm)
        · refine (hless.knows c hw).mono (fun hun => hun.insert ?_) id
          intro hrepo hcar
          exact hk (Prod.ext hrepo.symm (carries_permit hcar))
  · exact h

lemma Good.plainLock (h : Good s) (repo : Str) (path : Path) (owner : Str) (comment : Option Comment) :
    Good (plainLock s repo path owner comment) := by
  have hsound := h.sound.plainLock repo path owner comment
  unfold RepoWorker.plainLock at hsound ⊢
  split
  · rename_i hfree
    rw [if_pos hfree] at hsound
    have hplain : ∀ key r, s.journal.lookup key = some r → ¬ Carries ⟨s.tokens, owner, comment⟩ key.2 := fun key r hr =>
      not_carries_plain hfree.2 (h.sound.records key r hr).named
    refine h.insert_lock hsound (fun key r hr _ _ => hplain key r hr) ?_
    intro c hw
    exact (h.knows c hw).mono (fun hun => hun.insert (fun _ => hplain _ _ (h.sound.worker c hw).record)) id
  · exact h

structure Kept (s : Server) : Prop where
  closed : ∀ key r, s.journal.lookup key = some r → r.state = .closed → Unpermitted s key
  unlocked : ClosedUnlocked s
  knows : ∀ c, s.worker = some c → Knows s c

lemma Good.kept (h : Good s) : Kept s := { h with }

variable {point : Point} {r' : Execution} {w : Write}

lemma kept_goto (h : Good s) (hk : Knows s { c with point := point }) : Kept (s.goto c point) := by
  refine ⟨h.closed, h.unlocked, ?_⟩
  intro c' hc'
  cases hc'
  exact hk.mono id id

lemma kept_write (worker : Option Closing) (h : Good s) (hclosed : r'.state = .closed → Unpermitted s key ∧
      (s.generations.lookup key.1 = some r'.repositoryUUID → Unlocked s key))
    (hk : ∀ c, worker = some c → Knows s c) : Kept { s.write w key r' with worker := worker } := by
  unfold write
  split
  · refine ⟨?_, ?_, fun c hc => (hk c hc).mono id id⟩
    · intro key' q hq hs
      rcases lookup_insert_eq_some.mp hq with ⟨rfl, rfl⟩ | ⟨_, hq⟩
      · exact (hclosed hs).1
      · exact h.closed key' q hq hs
    · intro key' q hq hs hgen
      rcases lookup_insert_eq_some.mp hq with ⟨rfl, rfl⟩ | ⟨_, hq⟩
      · exact (hclosed hs).2 hgen
      · exact h.unlocked key' q hq hs hgen
  · exact ⟨h.closed, h.unlocked, fun c hc => (hk c hc).mono id id⟩

lemma kept_saveThen (h : Good s) (hstate : r'.state ≠ .closed)
    (hk : Knows s { c with record := r', point := point }) : Kept (s.saveThen c r' w point) := by
  unfold saveThen
  split
  · refine kept_write (some { c with record := r', point := point }) h (fun hs => absurd hs hstate) ?_
    intro c' hc'
    cases hc'
    exact hk
  · exact kept_write none h (fun hs => absurd hs hstate) (fun _ hc' => by cases hc')

section

variable (ho : WorkerOk s c) (h : Sound s)
include ho h

lemma WorkerOk.permit (hp : p ∈ s.permits) (hk : p.key = c.key) :
    c.record.executorPID = p.pid ∧ 1 < p.pid ∧ p.pid ∈ s.alive ∧ c.record.observedToken = none := by
  obtain ⟨r, hr⟩ := h.permits p hp
  obtain rfl : r = c.record := Option.mem_unique hr.record (hk ▸ ho.record)
  exact ⟨hr.pid, hr.real, hr.alive, hr.unseen⟩

lemma WorkerOk.unpermitted_of_dead (hd : executorDead s c.record.executorPID = true) : Unpermitted s c.key := by
  intro p hp hk
  obtain ⟨hpid, _, halive, _⟩ := ho.permit h hp hk
  rw [hpid] at hd
  simp [executorDead, halive] at hd

lemma WorkerOk.unpermitted_of_none (hpid : ¬ 1 < c.record.executorPID) : Unpermitted s c.key := by
  intro p hp hk
  obtain ⟨heq, hreal, _, _⟩ := ho.permit h hp hk
  exact hpid (heq ▸ hreal)

lemma WorkerOk.lock {lock : SvnLock} {path : Path}
    (hk : s.locks.lookup (c.key.1, path) = some lock) (hc : Carries lock c.key.2) :
    (c.record.repoID, c.record.path) = (c.key.1, path) ∧ matching c.record (some lock) = true ∧
      1 < c.record.executorPID ∧ ∀ t, c.record.observedToken = some t → t = lock.token := by
  have hrec := h.records _ _ ho.record
  obtain ⟨r, hr⟩ := h.locks _ lock _ hk hc hrec.named
  obtain rfl : r = c.record := Option.mem_unique hr.record ho.record
  exact ⟨Prod.ext hrec.repo hr.path, matching_iff.mpr ⟨hr.owner.symm, hr.comment.symm⟩, hr.real, hr.seen⟩

lemma WorkerOk.unlocked_of_break : Unlocked (RepoWorker.breakLock s c.record) c.key := by
  intro path lock hk hc
  obtain ⟨hne, hk⟩ := lookup_erase_eq_some.mp hk
  exact hne (ho.lock h hk hc).1.symm

end

lemma knows_finish (hc : Unpermitted s c.key) (hl : some c.record.repositoryUUID = c.generation → Unlocked s c.key) :
    Knows s { c with point := .finish } := by
  refine ⟨nofun, nofun, fun _ h => ?_, nofun, nofun, fun _ => ⟨hc, hl⟩⟩
  rcases h with h | h <;> cases h

lemma kept_mark (h : Good s) (ho : WorkerOk s c) (a : Reply) (hp : c.point = .mark) : Kept (closeStep s c a) := by
  unfold closeStep
  rw [hp]
  dsimp only
  split
  · exact h.idle.kept
  · apply kept_saveThen h (by simp)
    split
    · rename_i hgen
      split
      · refine ⟨nofun, nofun, fun _ hpt => ?_, nofun, fun _ => hgen, nofun⟩
        rcases hpt with hpt | hpt <;> cases hpt
      · rename_i hpid
        have hun := ho.unpermitted_of_none h.sound hpid
        exact knows_finish (c := { c with record := { c.record with state := .closing } }) hun (fun hg => absurd hg hgen)
    · exact knows_plain rfl rfl (by simp) (by simp)

lemma knows_observe (h : Sound s) (ho : WorkerOk s c) :
    Knows s { c with point := .observe (s.locks.lookup (c.record.repoID, c.record.path)) } := by
  have hrec := h.records _ _ ho.record
  refine ⟨?_, ?_, fun _ hpt => ?_, nofun, nofun, nofun⟩
  · intro hb path lock hk hc
    obtain ⟨hat, hm, _⟩ := ho.lock h hk hc
    simp [Closing.blind, hat.symm ▸ hk, hm] at hb
  · intro lock hpt hm
    have hat : s.locks.lookup (c.record.repoID, c.record.path) = some lock := by injection hpt
    have hcar : Carries lock c.key.2 := ⟨c.record.comment, (matching_iff.mp hm).2, hrec.id⟩
    rw [hrec.repo] at hat
    exact (ho.lock h hat hcar).2.2
  · rcases hpt with hpt | hpt <;> cases hpt

lemma knows_live {lock : Option SvnLock} (hb : matching c.record lock = false → Unlocked s c.key)
    (ht : ∀ l, lock = some l → matching c.record (some l) = true → c.record.observedToken = some l.token) :
    Knows s { c with point := .live lock } := by
  refine ⟨?_, nofun, ?_, nofun, nofun, nofun⟩
  · intro h
    exact hb (by simpa [Closing.blind] using h)
  · intro l hpt
    rcases hpt with hpt | hpt
    · injection hpt with hpt
      exact ht l hpt
    · cases hpt

lemma knows_unlock {lock : Option SvnLock} (hun : Unpermitted s c.key)
    (hb : matching c.record lock = false → Unlocked s c.key)
    (ht : ∀ l, lock = some l → matching c.record (some l) = true → c.record.observedToken = some l.token) :
    Knows s { c with point := .unlock lock } := by
  refine ⟨nofun, nofun, ?_, ?_, nofun, nofun⟩
  · intro l hpt
    rcases hpt with hpt | hpt
    · cases hpt
    · injection hpt with hpt
      exact ht l hpt
  · intro l hpt
    injection hpt with hpt
    exact ⟨hun, hpt ▸ hb⟩

section

variable (h : Good s) (ho : WorkerOk s c)
include h ho

lemma kept_observe {lock : Option SvnLock} (hk : Knows s c) (a : Reply)
    (hp : c.point = .observe lock) : Kept (closeStep s c a) := by
  have hblind : matching c.record lock = false → Unlocked s c.key := fun hm => hk.blind (by simp [Closing.blind, hp, hm])
  have hclosing : c.record.state ≠ .closed := by simp [ho.state (by simp [hp])]
  unfold closeStep
  rw [hp]
  dsimp only
  split
  · rename_i l hnone
    split
    · rename_i hm
      refine kept_saveThen h (by exact hclosing) ?_
      refine knows_live (c := { c with record := { c.record with observedToken := some l.token } }) hblind ?_
      intro l' hl' _
      cases hl'
      rfl
    · rename_i hm
      apply kept_goto h
      refine knows_live hblind ?_
      intro l' hl' hmatch
      cases hl'
      exact absurd ⟨hmatch, (hk.held l hp hmatch).1⟩ hm
  · rename_i hne
    apply kept_goto h
    refine knows_live hblind ?_
    intro l hl hmatch
    cases ht : c.record.observedToken with
    | none => exact (hne l hl ht).elim
    | some t => rw [(hk.held l (hl ▸ hp) hmatch).2 t ht]

lemma kept_live {lock : Option SvnLock} (hk : Knows s c) (a : Reply)
    (hp : c.point = .live lock) : Kept (closeStep s c a) := by
  have hblind : matching c.record lock = false → Unlocked s c.key := fun hm => hk.blind (by simp [Closing.blind, hp, hm])
  have htoken : ∀ l, lock = some l → matching c.record (some l) = true → c.record.observedToken = some l.token :=
    fun l hl hm => hk.token l (.inl (hl ▸ hp)) hm
  unfold closeStep
  rw [hp]
  dsimp only
  split
  · split
    · rename_i hdead
      exact kept_goto h (knows_unlock (ho.unpermitted_of_dead h.sound hdead) hblind htoken)
    · exact h.idle.kept
  · rename_i hcond
    refine kept_goto h (knows_unlock ?_ hblind htoken)
    intro p hpm hkey
    obtain ⟨hpid, hreal, _, hnone⟩ := ho.permit h.sound hpm hkey
    exact hcond ⟨hnone, hpid ▸ hreal⟩

lemma kept_unlockIfCurrent (hun : Unpermitted s c.key) (token : ℕ) (w : Write) :
    Kept (unlockIfCurrent s c token w) := by
  have hbroken : Good (breakLock s c.record) := h.less (.unlock s _) rfl
  unfold unlockIfCurrent
  split
  · split
    · exact kept_goto hbroken (knows_finish hun (fun _ => ho.unlocked_of_break h.sound))
    · split
      · exact hbroken.idle.kept
      · exact h.idle.kept
  · exact h.idle.kept

lemma kept_unlock {lock : Option SvnLock} (hk : Knows s c) (a : Reply)
    (hp : c.point = .unlock lock) : Kept (closeStep s c a) := by
  obtain ⟨hun, hblind⟩ := hk.settled lock hp
  have htoken : ∀ l, lock = some l → matching c.record (some l) = true → c.record.observedToken = some l.token :=
    fun l hl hm => hk.token l (.inr (hl ▸ hp)) hm
  unfold closeStep
  rw [hp]
  dsimp only
  split
  · rename_i l token htok
    split
    · exact kept_unlockIfCurrent h ho hun _ _
    · rename_i hcond
      refine kept_goto h (knows_finish hun (fun _ => hblind ?_))
      by_contra hm
      have hm : matching c.record (some l) = true := by simpa using hm
      have := htoken l rfl hm
      rw [htok] at this
      exact hcond ⟨hm, Option.some.inj this⟩
  · rename_i lock _ _ hne
    refine kept_goto h (knows_finish hun (fun _ => hblind ?_))
    cases hl : lock with
    | none => rfl
    | some l =>
      by_contra hm
      have hm : matching c.record (some l) = true := by simpa using hm
      exact (hne l l.token hl (htoken l hl hm)).elim

end

lemma kept_closeStep (h : Good s) (hw : s.worker = some c) (a : Reply) : Kept (closeStep s c a) := by
  have ho := h.sound.worker c hw
  have hk := h.knows c hw
  cases hp : c.point with
  | mark => exact kept_mark h ho a hp
  | orphan =>
    unfold closeStep
    rw [hp]
    dsimp only
    split
    · rename_i hdead
      exact kept_goto h (knows_finish (ho.unpermitted_of_dead h.sound hdead) (fun hg => absurd hg (hk.astray hp)))
    · exact h.idle.kept
  | inspect =>
    unfold closeStep
    rw [hp]
    dsimp only
    split
    · exact kept_goto h (knows_observe h.sound ho)
    · exact h.idle.kept
  | observe lock => exact kept_observe h ho hk a hp
  | live lock => exact kept_live h ho hk a hp
  | unlock lock => exact kept_unlock h ho hk a hp
  | finish =>
    obtain ⟨hun, hfree⟩ := hk.done hp
    unfold closeStep
    rw [hp]
    dsimp only
    refine kept_write none h (fun _ => ⟨hun, fun hg => hfree ?_⟩) nofun
    rw [ho.generation, hg]

lemma Good.closeStep (h : Good s) (hw : s.worker = some c) (a : Reply) : Good (closeStep s c a) :=
  have hk := kept_closeStep h hw a
  { hk with sound := h.sound.closeStep (h.sound.worker c hw) a }

lemma Good.step (h : Good s) {e : Event} (hc : NotBehind s e) : Good (step s e) := by
  cases e with
  | handle q a => exact good_served.handle h q a
  | expirePath repo path io now => exact good_served.expirePath h repo path io now
  | reap key io now => exact good_served.reap h key io now
  | close a =>
    simp only [RepoWorker.step]
    split
    · rename_i c hw
      exact h.closeStep hw a
    · exact h
  | restart => exact h.idle
  | spawn pid => exact h.less (.spawn s pid) rfl
  | preLock hook => exact h.preLock hook
  | takeLock p => exact h.takeLock hc
  | refuse p => exact h.less (.letGo List.erase_sublist) rfl
  | exit pid => exact h.less (.exit s pid) rfl
  | plainLock repo path owner comment => exact h.plainLock repo path owner comment
  | unlock repo path => exact h.less (.unlock s (repo, path)) rfl
  | replace repo generation => exact h.replace repo generation

/-- If no executor takes its lock between the worker's two looks, a closed record of the present generation has no
lock. -/
theorem closed_means_unlocked {es : List Event} (h : Admits step NotBehind Server.empty es) :
    Along step ClosedUnlocked Server.empty es := by
  have hgood : Along step Good empty es := along_of_admits step (fun s e hs hc => hs.step hc) good_empty h
  intro pre hp
  exact (hgood pre hp).unlocked

def granted : Permit := ⟨7, ['a'], ['f'], ['c'], acquisition⟩

def prepared : List Event := [.replace ['a'] (some ['g']), .spawn 7, arming ['a'], .preLock (hookCall ['a'])]

def reply : Event := .close ⟨true, .done⟩

def lockedInTime : List Event :=
  prepared ++ [settling ['a'], reply, .takeLock granted, reply, reply, reply, reply, reply]

theorem closed_means_unlocked_when_in_time :
    ((run step Server.empty lockedInTime).journal.lookup (['a'], acquisition.acquisitionID)).map Execution.state =
        some .closed ∧ Along step ClosedUnlocked Server.empty lockedInTime := by
  exact ⟨by decide +kernel, closed_means_unlocked (by decide +kernel)⟩

def lockedBehind : List Event :=
  prepared ++ [settling ['a'], reply, reply, reply, .takeLock granted, .exit 7, reply, reply, reply]

theorem closed_with_lock_held :
    ((run step Server.empty lockedBehind).journal.lookup (['a'], acquisition.acquisitionID)).map
        (fun r => (r.state, r.repositoryUUID)) = some (.closed, ['g']) ∧
      (run step Server.empty lockedBehind).generations.lookup ['a'] = some ['g'] ∧
      ((run step Server.empty lockedBehind).locks.lookup (['a'], ['f'])).map (·.comment) = some (some acquisition) := by
  decide +kernel

end FileES.RepoWorker
