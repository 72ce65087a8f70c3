import FileES.Lib.Runs
import FileES.RepoWorker.PassportExecutions

/-! What holds of journal, permissions, locks and worker in every run of the server. -/

namespace FileES.RepoWorker

open Go Lib.Maps Lib.Durable Lib.Runs Server List Option

def Point.sameGeneration : Point → Bool
  | .mark | .orphan | .finish => false
  | _ => true

def Carries (lock : SvnLock) (id : Str) : Prop := ∃ c, lock.comment = some c ∧ c.acquisitionID = id

def Point.seen : Point → Option SvnLock
  | .observe lock | .live lock | .unlock lock => lock
  | _ => none

variable (s : Server)

structure Sight (key : Key) (lock : SvnLock) : Prop where
  unpermitted : ∀ p ∈ s.permits, p.key ≠ key
  only : ∀ path other, s.locks.lookup (key.1, path) = some other → Carries other key.2 → other.token = lock.token

structure WorkerOk (c : Closing) : Prop where
  record : s.journal.lookup c.key = some c.record
  generation : c.generation = s.generations.lookup c.key.1
  state : c.point ≠ .mark → c.record.state = .closing
  same : c.point.sameGeneration = true → some c.record.repositoryUUID = c.generation
  sight : ∀ lock, c.point.seen = some lock → matching c.record (some lock) = true → Sight s c.key lock

structure PermitOk (p : Permit) (r : Execution) : Prop where
  record : s.journal.lookup p.key = some r
  state : r.state ≠ .armed
  pid : r.executorPID = p.pid
  real : 1 < p.pid
  alive : p.pid ∈ s.alive
  path : r.path = p.path
  owner : r.clientID = p.owner
  comment : r.comment = p.comment
  unseen : r.observedToken = none

structure LockOk (k : Str × Path) (lock : SvnLock) (id : Str) (r : Execution) : Prop where
  record : s.journal.lookup (k.1, id) = some r
  state : r.state ≠ .armed
  real : 1 < r.executorPID
  path : r.path = k.2
  owner : r.clientID = lock.owner
  comment : some r.comment = lock.comment
  seen : ∀ t, r.observedToken = some t → t = lock.token

structure RecordOk (key : Key) (r : Execution) : Prop where
  repo : r.repoID = key.1
  id : r.comment.acquisitionID = key.2
  named : key.2 ≠ []
  fresh : r.state = .armed → r.executorPID = 0 ∧ r.observedToken = none

structure Sound : Prop where
  records : ∀ key r, s.journal.lookup key = some r → RecordOk key r
  worker : ∀ c, s.worker = some c → WorkerOk s c
  permits : ∀ p ∈ s.permits, ∃ r, PermitOk s p r
  locks : ∀ k lock id, s.locks.lookup k = some lock → Carries lock id → id ≠ [] → ∃ r, LockOk s k lock id r
  single : s.permits.Pairwise (fun p q => p.key ≠ q.key)
  apart : ∀ p ∈ s.permits, ∀ path lock, s.locks.lookup (p.repo, path) = some lock →
    ¬ Carries lock p.comment.acquisitionID
  admitted : ∀ e ∈ s.trace, e.2 = .armed ∧ ∃ r, s.journal.lookup e.1 = some r ∧ r.state ≠ .armed
  once : (s.trace.map Prod.fst).Nodup

lemma sound_empty : Sound empty where
  records := by simp [empty]
  worker := by simp [empty]
  permits := by simp [empty]
  locks := by simp [empty]
  single := List.Pairwise.nil
  apart := by simp [empty]
  admitted := by simp [empty]
  once := nodup_nil

structure Less (s s' : Server) : Prop where
  journal : s'.journal = s.journal
  trace : s'.trace = s.trace
  locks : ∀ k lock, s'.locks.lookup k = some lock → s.locks.lookup k = some lock
  permits : s'.permits.Sublist s.permits
  alive : ∀ p ∈ s'.permits, p.pid ∈ s.alive → p.pid ∈ s'.alive
  worker : ∀ c, s'.worker = some c → s.worker = some c ∧ s'.generations = s.generations

variable {s : Server} {k : Str × Path} {lock : SvnLock} {c : Closing} {io : Bool} {key : Key} {r : Execution}
  {q : Request} {generation id : Str} {hook : Hook} {p : Permit}

lemma Sound.less {s' : Server} (h : Sound s) (hl : Less s s') : Sound s' where
  records := by
    rw [hl.journal]
    exact h.records
  worker := by
    intro c hc
    obtain ⟨hw, hg⟩ := hl.worker c hc
    have ho := h.worker c hw
    refine ⟨hl.journal ▸ ho.record, hg ▸ ho.generation, ho.state, ho.same, ?_⟩
    intro lock hseen hm
    have hs := ho.sight lock hseen hm
    exact ⟨fun p hp => hs.unpermitted p (hl.permits.subset hp), fun path other hk => hs.only path other (hl.locks _ _ hk)⟩
  permits := by
    intro p hp
    obtain ⟨r, hr⟩ := h.permits p (hl.permits.subset hp)
    exact ⟨r, { hr with record := hl.journal ▸ hr.record, alive := hl.alive p hp hr.alive }⟩
  locks := by
    intro k lock id hk hc hid
    obtain ⟨r, hr⟩ := h.locks k lock id (hl.locks k lock hk) hc hid
    exact ⟨r, { hr with record := hl.journal ▸ hr.record }⟩
  single := h.single.sublist hl.permits
  apart := by
    intro p hp path lock hk
    exact h.apart p (hl.permits.subset hp) path lock (hl.locks _ _ hk)
  admitted := by
    rw [hl.journal, hl.trace]
    exact h.admitted
  once := hl.trace ▸ h.once

lemma Less.idle (s : Server) : Less s s.idle :=
  ⟨rfl, rfl, fun _ _ h => h, List.Sublist.refl _, fun _ _ h => h, fun _ h => by cases h⟩

lemma lookup_clearRepository {repo : Str} {locks : Map (Str × Path) SvnLock}
    (h : (clearRepository repo locks).lookup k = some lock) : locks.lookup k = some lock ∧ k.1 ≠ repo := by
  have hgone : ∀ (ks : List (Str × Path)) (m : Map (Str × Path) SvnLock),
      (ks.foldl (fun m k => m.erase k) m).lookup k = some lock → m.lookup k = some lock ∧ k ∉ ks := by
    intro ks
    induction ks with
    | nil =>
      intro m hm
      exact ⟨hm, by simp⟩
    | cons k' ks ih =>
      intro m hm
      obtain ⟨hm, hks⟩ := ih _ hm
      obtain ⟨hne, hm⟩ := lookup_erase_eq_some.mp hm
      exact ⟨hm, by simp [hne, hks]⟩
  obtain ⟨hm, hks⟩ := hgone _ _ h
  refine ⟨hm, fun hr => hks ?_⟩
  have hmem : k ∈ locks.keys := by
    rw [← AList.mem_keys, ← AList.lookup_isSome, hm]
    rfl
  simp [hmem, hr]

lemma Less.replace (s : Server) (repo : Str) (generation : Option Str) : Less s (replace s repo generation) := by
  have hidle : ∀ g, s.worker = none →
      Less s { s with generations := g, locks := clearRepository repo s.locks } := by
    intro g hw
    refine ⟨rfl, rfl, fun k lock hk => (lookup_clearRepository hk).1, List.Sublist.refl _, fun _ _ h => h, ?_⟩
    intro c hc
    rw [hw] at hc
    cases hc
  unfold RepoWorker.replace
  split
  · exact ⟨rfl, rfl, fun _ _ h => h, List.Sublist.refl _, fun _ _ h => h, fun _ h => ⟨h, rfl⟩⟩
  · exact hidle _ ‹_›
  · exact hidle _ ‹_›

structure Execution.Same (r r' : Execution) : Prop where
  repo : r'.repoID = r.repoID
  uuid : r'.repositoryUUID = r.repositoryUUID
  client : r'.clientID = r.clientID
  path : r'.path = r.path
  comment : r'.comment = r.comment

variable {r' : Execution}

/-- The hook has not admitted the execution. -/
def Unused (s : Server) (key : Key) : Prop := ∀ r, s.journal.lookup key = some r → r.state = .armed

lemma unused_of_armed (hj : s.journal.lookup key = some r) (hs : r.state = .armed) : Unused s key := by
  intro r' hr'
  rwa [mem_unique hr' hj]

section

variable (h : Sound s) (hr : Unused s key)
include h hr

lemma Sound.no_permit : ∀ p ∈ s.permits, p.key ≠ key := by
  rintro p hp rfl
  obtain ⟨r, ho⟩ := h.permits p hp
  exact ho.state (hr r ho.record)

lemma Sound.no_lock (hid : key.2 ≠ []) :
    ∀ path lock, s.locks.lookup (key.1, path) = some lock → ¬ Carries lock key.2 := by
  intro path lock hk hc
  obtain ⟨r, ho⟩ := h.locks _ lock _ hk hc hid
  exact ho.state (hr r ho.record)

lemma Sound.no_admission : key ∉ s.trace.map Prod.fst := by
  intro hk
  obtain ⟨e, he, rfl⟩ := mem_map.mp hk
  obtain ⟨_, r, hj, hs⟩ := h.admitted e he
  exact hs (hr r hj)

end

lemma Sound.write (h : Sound s) (worker : Option Closing) (hrec : RecordOk key r')
    (hpermit : ∀ p ∈ s.permits, p.key = key → PermitOk { s with journal := s.journal.insert key r' } p r')
    (hlock : ∀ path lock, s.locks.lookup (key.1, path) = some lock → Carries lock key.2 →
      LockOk { s with journal := s.journal.insert key r' } (key.1, path) lock key.2 r')
    (htrace : key ∈ s.trace.map Prod.fst → r'.state ≠ .armed)
    (hworker : ∀ c, worker = some c → (c.key ≠ key ∧ s.worker = some c) ∨
      WorkerOk { s with journal := s.journal.insert key r' } c) :
    Sound { s with journal := s.journal.insert key r', worker := worker } where
  __ := h
  records := by
    intro key' q hq
    rcases lookup_insert_eq_some.mp hq with ⟨rfl, rfl⟩ | ⟨_, hq⟩
    · exact hrec
    · exact h.records key' q hq
  worker := by
    intro c hc
    rcases hworker c hc with ⟨hne, hw⟩ | ho
    · have ho := h.worker c hw
      exact { ho with
        record := lookup_insert_eq_some.mpr (.inr ⟨hne, ho.record⟩)
        sight := fun lock hs hm => { ho.sight lock hs hm with } }
    · exact { ho with sight := fun lock hs hm => { ho.sight lock hs hm with } }
  permits := by
    intro p hp
    by_cases hk : p.key = key
    · have ho := hpermit p hp hk
      exact ⟨r', { ho with }⟩
    · obtain ⟨q, ho⟩ := h.permits p hp
      exact ⟨q, { ho with record := lookup_insert_eq_some.mpr (.inr ⟨hk, ho.record⟩) }⟩
  locks := by
    intro k lock id hk hc hid
    by_cases hkey : (k.1, id) = key
    · cases hkey
      have ho := hlock k.2 lock hk hc
      exact ⟨r', { ho with }⟩
    · obtain ⟨q, ho⟩ := h.locks k lock id hk hc hid
      exact ⟨q, { ho with record := lookup_insert_eq_some.mpr (.inr ⟨hkey, ho.record⟩) }⟩
  admitted := by
    intro e he
    obtain ⟨harm, q, hq, hs⟩ := h.admitted e he
    refine ⟨harm, ?_⟩
    by_cases hk : e.1 = key
    · exact ⟨r', lookup_insert_eq_some.mpr (.inl ⟨hk, rfl⟩), htrace (hk ▸ mem_map_of_mem he)⟩
    · exact ⟨q, lookup_insert_eq_some.mpr (.inr ⟨hk, hq⟩), hs⟩

lemma Sound.write_unused (h : Sound s) (hr : Unused s key) (hrec : RecordOk key r')
    (hworker : ∀ c, s.worker = some c → c.key ≠ key) :
    Sound { s with journal := s.journal.insert key r' } := by
  refine h.write s.worker hrec ?_ ?_ (fun hk => absurd hk (h.no_admission hr)) (fun c hc => .inl ⟨hworker c hc, hc⟩)
  · intro p hp hk
    exact absurd hk (h.no_permit hr p hp)
  · intro path lock hk hc
    exact absurd hc (h.no_lock hr hrec.named path lock hk)

lemma RecordOk.same (h : RecordOk key r) (hs : r.Same r') (hstate : r'.state ≠ .armed) : RecordOk key r' :=
  ⟨hs.repo.trans h.repo, hs.comment ▸ h.id, h.named, fun ha => absurd ha hstate⟩

lemma Sound.rewrite (h : Sound s) (worker : Option Closing) (hj : s.journal.lookup key = some r)
    (hsame : r.Same r') (hstate : r'.state ≠ .armed) (hpid : r'.executorPID = r.executorPID)
    (hseen : r'.observedToken = r.observedToken ∨ ∃ lock, r'.observedToken = some lock.token ∧ Sight s key lock)
    (hworker : ∀ c, worker = some c → WorkerOk { s with journal := s.journal.insert key r' } c) :
    Sound { s with journal := s.journal.insert key r', worker := worker } := by
  have hrec := h.records key r hj
  refine h.write worker (hrec.same hsame hstate) ?_ ?_ (fun _ => hstate) (fun c hc => .inr (hworker c hc))
  · intro p hp hk
    obtain ⟨q, ho⟩ := h.permits p hp
    obtain rfl : q = r := mem_unique ho.record (hk ▸ hj)
    refine ⟨lookup_insert_eq_some.mpr (.inl ⟨hk, rfl⟩), hstate, hpid.trans ho.pid, ho.real, ho.alive,
      hsame.path.trans ho.path, hsame.client.trans ho.owner, hsame.comment.trans ho.comment, ?_⟩
    rcases hseen with hseen | ⟨lock, _, hsight⟩
    · exact hseen.trans ho.unseen
    · exact absurd hk (hsight.unpermitted p hp)
  · intro path lock hk hc
    obtain ⟨q, ho⟩ := h.locks _ lock _ hk hc hrec.named
    obtain rfl : q = r := mem_unique ho.record hj
    refine ⟨lookup_insert_eq_some.mpr (.inl ⟨rfl, rfl⟩), hstate, hpid ▸ ho.real, hsame.path.trans ho.path,
      hsame.client.trans ho.owner, hsame.comment ▸ ho.comment, ?_⟩
    intro t ht
    rcases hseen with hseen | ⟨seen, hseen, hsight⟩
    · exact ho.seen t (hseen ▸ ht)
    · rw [hseen] at ht
      cases ht
      exact (hsight.only path lock hk hc).symm

lemma Sound.work (h : Sound s) (hc : WorkerOk s c) : Sound { s with worker := some c } where
  __ := h
  worker := by
    intro c' hc'
    cases hc'
    exact { hc with sight := fun lock hs hm => { hc.sight lock hs hm with } }
  permits := by
    intro p hp
    obtain ⟨r, ho⟩ := h.permits p hp
    exact ⟨r, { ho with }⟩
  locks := by
    intro k lock id hk hl hid
    obtain ⟨r, ho⟩ := h.locks k lock id hk hl hid
    exact ⟨r, { ho with }⟩

lemma Sound.goto {point : Point} (h : Sound s) (hc : WorkerOk s { c with point := point }) :
    Sound (s.goto c point) := h.work hc

lemma Sound.idle (h : Sound s) : Sound s.idle := h.less (Less.idle s)

variable {point : Point} {w : Write}

lemma WorkerOk.sound_write (ho : WorkerOk s c) (h : Sound s) (w : Write) (hsame : c.record.Same r')
    (hstate : r'.state ≠ .armed) (hpid : r'.executorPID = c.record.executorPID)
    (hseen : r'.observedToken = c.record.observedToken ∨
      ∃ lock, r'.observedToken = some lock.token ∧ Sight s c.key lock) : Sound (s.write w c.key r').idle := by
  unfold write
  split
  · exact h.rewrite none ho.record hsame hstate hpid hseen nofun
  · exact h.idle

lemma WorkerOk.sound_saveThen (ho : WorkerOk s c) (h : Sound s) (hsame : c.record.Same r')
    (hstate : r'.state = .closing) (hpid : r'.executorPID = c.record.executorPID)
    (hseen : r'.observedToken = c.record.observedToken ∨
      ∃ lock, r'.observedToken = some lock.token ∧ Sight s c.key lock)
    (hgen : point.sameGeneration = true → some c.record.repositoryUUID = c.generation)
    (hsight : ∀ lock, point.seen = some lock → matching r' (some lock) = true → Sight s c.key lock) :
    Sound (s.saveThen c r' w point) := by
  have hne : r'.state ≠ .armed := by simp [hstate]
  unfold saveThen
  split
  · rename_i hok
    unfold write goto
    rw [if_pos (Write.landed_of_ok hok)]
    refine h.rewrite (some { c with record := r', point := point }) ho.record hsame hne hpid hseen ?_
    intro c' hc'
    cases hc'
    refine ⟨lookup_insert_eq_some.mpr (.inl ⟨rfl, rfl⟩), ho.generation, fun _ => hstate, ?_, ?_⟩
    · intro hp
      have := hgen hp
      simpa [hsame.uuid] using this
    · intro lock hs hm
      exact { hsight lock hs hm with }
  · exact ho.sound_write h w hsame hne hpid hseen

lemma WorkerOk.move (ho : WorkerOk s c) (hm : c.point ≠ .mark)
    (hgen : point.sameGeneration = true → some c.record.repositoryUUID = c.generation)
    (hsight : ∀ lock, point.seen = some lock → matching c.record (some lock) = true → Sight s c.key lock) :
    WorkerOk s { c with point := point } :=
  ⟨ho.record, ho.generation, fun _ => ho.state hm, hgen, hsight⟩

lemma matching_iff : matching r (some lock) = true ↔ lock.owner = r.clientID ∧ lock.comment = some r.comment := by
  simp [matching]

lemma WorkerOk.inspected (ho : WorkerOk s c) (h : Sound s)
    (hl : s.locks.lookup (c.record.repoID, c.record.path) = some lock)
    (hm : matching c.record (some lock) = true) : Sight s c.key lock := by
  have hrec := h.records _ _ ho.record
  rw [hrec.repo] at hl
  have hc : Carries lock c.key.2 := ⟨c.record.comment, (matching_iff.mp hm).2, hrec.id⟩
  refine ⟨?_, ?_⟩
  · rintro p hp hk
    have hrepo : p.repo = c.key.1 := congrArg Prod.fst hk
    have hid : p.comment.acquisitionID = c.key.2 := congrArg Prod.snd hk
    exact h.apart p hp _ lock (hrepo ▸ hl) (hid ▸ hc)
  · intro path other hk hother
    obtain ⟨q, hq⟩ := h.locks _ other _ hk hother hrec.named
    obtain rfl : q = c.record := mem_unique hq.record ho.record
    rw [hq.path, hk] at hl
    cases hl
    rfl

lemma Sound.breakLock (h : Sound s) (r : Execution) : Sound (breakLock s r) :=
  h.less ⟨rfl, rfl, fun _ _ hk => (lookup_erase_eq_some.mp hk).2, List.Sublist.refl _, fun _ _ ha => ha,
    fun _ hw => ⟨hw, rfl⟩⟩

lemma WorkerOk.breakLock (ho : WorkerOk s c) : WorkerOk (breakLock s c.record) c :=
  { ho with sight := fun lock hs hm => { ho.sight lock hs hm with
    only := fun path other hk => (ho.sight lock hs hm).only path other (lookup_erase_eq_some.mp hk).2 } }

lemma Sound.unlockIfCurrent (h : Sound s) (ho : WorkerOk s c) (hm : c.point ≠ .mark) (token : ℕ) (w : Write) :
    Sound (unlockIfCurrent s c token w) := by
  unfold RepoWorker.unlockIfCurrent
  split
  · split
    · exact (h.breakLock c.record).goto (ho.breakLock.move hm (fun hp => by cases hp) (fun _ hs => by cases hs))
    · split
      · exact (h.breakLock c.record).idle
      · exact h.idle
  · exact h.idle

lemma Sound.closeStep (h : Sound s) (ho : WorkerOk s c) (a : Reply) : Sound (closeStep s c a) := by
  have hfinish : c.point ≠ .mark → Sound (s.goto c .finish) := fun hm =>
    h.goto (ho.move hm (fun hp => by cases hp) (fun _ hs => by cases hs))
  unfold RepoWorker.closeStep
  split
  · split
    · exact h.idle
    · refine ho.sound_saveThen h ⟨rfl, rfl, rfl, rfl, rfl⟩ rfl rfl (.inl rfl) ?_ ?_
      · intro hp
        by_contra hne
        rw [if_pos hne] at hp
        split at hp <;> cases hp
      · intro lock hs
        split at hs
        · split at hs <;> cases hs
        · cases hs
  · rename_i hp
    split
    · exact hfinish (by simp [hp])
    · exact h.idle
  · rename_i hp
    have hsame := ho.same (by simp [hp, Point.sameGeneration])
    split
    · refine h.goto (ho.move (by simp [hp]) (fun _ => hsame) ?_)
      intro lock hs hm
      exact ho.inspected h hs hm
    · exact h.idle
  · rename_i lock hp
    have hsame := ho.same (by simp [hp, Point.sameGeneration])
    have hlive : Sound (s.goto c (.live lock)) := by
      refine h.goto (ho.move (by simp [hp]) (fun _ => hsame) ?_)
      intro l hs hm
      exact ho.sight l (by rw [hp]; exact hs) hm
    split
    · rename_i l hnone
      split
      · rename_i hmatch
        have hsight := ho.sight l (by rw [hp]; rfl) hmatch.1
        refine ho.sound_saveThen h ⟨rfl, rfl, rfl, rfl, rfl⟩ (ho.state (by simp [hp])) rfl (.inr ⟨l, rfl, hsight⟩)
          (fun _ => hsame) ?_
        intro l' hs _
        cases hs
        exact hsight
      · exact hlive
    · exact hlive
  · rename_i lock hp
    have hsame := ho.same (by simp [hp, Point.sameGeneration])
    have hunlock : Sound (s.goto c (.unlock lock)) := by
      refine h.goto (ho.move (by simp [hp]) (fun _ => hsame) ?_)
      intro l hs hm
      exact ho.sight l (by rw [hp]; exact hs) hm
    split
    · split
      · exact hunlock
      · exact h.idle
    · exact hunlock
  · rename_i lock hp
    split
    · split
      · exact h.unlockIfCurrent ho (by simp [hp]) _ _
      · exact hfinish (by simp [hp])
    · exact hfinish (by simp [hp])
  · exact ho.sound_write h a.write ⟨rfl, rfl, rfl, rfl, rfl⟩ (by simp) rfl (.inl rfl)

lemma readExecution_some (h : readExecution s io key = .ok (some r)) : s.journal.lookup key = some r := by
  unfold readExecution at h
  split at h
  · cases h
  · rename_i q hq
    split at h
    · cases h
      exact hq
    · cases h

lemma readExecution_none (h : readExecution s io key = .ok none) : Unused s key := by
  unfold readExecution at h
  split at h
  · rename_i hnone
    rw [Unused, hnone]
    nofun
  · split at h <;> cases h

lemma named_of_metadata {c : Comment} (h : executionMetadata c = true) : c.acquisitionID ≠ [] := by
  intro hid
  have hnil : canonicalUUID [] = false := by decide +kernel
  simp [executionMetadata, hid, hnil] at h

lemma Sound.begin (h : Sound s) (hj : s.journal.lookup key = some r) :
    Sound { s with worker := some ⟨key, r, s.generations.lookup key.1, .mark⟩ } := by
  refine h.work ⟨hj, rfl, fun hp => absurd rfl hp, ?_, ?_⟩
  · intro hp
    cases hp
  · intro lock hs
    cases hs

lemma Sound.write_armed (h : Sound s) (w : Write) (hr : Unused s key)
    (hrec : RecordOk key r') (hworker : ∀ c, s.worker = some c → c.key ≠ key) : Sound (s.write w key r') := by
  unfold Server.write
  split
  · exact h.write_unused hr hrec hworker
  · exact h

lemma write_of_ok (h : w.ok = true) : s.write w key r = { s with journal := s.journal.insert key r } := by
  unfold write
  rw [if_pos (Write.landed_of_ok h)]

lemma recordOk_new {now : ℕ} (h : executionMetadata q.comment = true) :
    RecordOk (q.repoID, q.comment.acquisitionID) (newExecution q generation now) :=
  ⟨rfl, rfl, named_of_metadata h, fun _ => ⟨rfl, rfl⟩⟩

structure Served (I : Server → Prop) : Prop where
  records {s : Server} {key : Key} {r : Execution} : I s → s.journal.lookup key = some r → RecordOk key r
  write {s : Server} {key : Key} {r' : Execution} (w : Write) : I s →
    Unused s key → RecordOk key r' → (∀ c, s.worker = some c → c.key ≠ key) → I (s.write w key r')
  begin {s : Server} {key : Key} {r : Execution} : I s → s.journal.lookup key = some r →
    I { s with worker := some ⟨key, r, s.generations.lookup key.1, .mark⟩ }

lemma sound_served : Served Sound where
  records h := h.records _ _
  write w h := h.write_armed w
  begin h := h.begin

section

variable {I : Server → Prop} (hI : Served I)
include hI

lemma Served.handleRecord {a : Answer} (h : I s) (hw : s.worker = none)
    (hg : s.generations.lookup key.1 = some generation) (hj : s.journal.lookup key = some r) :
    I (handleRecord s q a generation key r) := by
  unfold RepoWorker.handleRecord
  split
  · split
    · split
      · rename_i hexp
        have hrec : RecordOk key { r with state := .closed } :=
          (hI.records h hj).same ⟨rfl, rfl, rfl, rfl, rfl⟩ (by simp)
        exact hI.write _ h (unused_of_armed hj hexp.1) hrec (fun c hc => by rw [hw] at hc; cases hc)
      · exact h
    · rw [← hg]
      exact hI.begin h hj
  · exact h

lemma Served.handle (h : I s) (q : Request) (a : Answer) : I (handle s q a) := by
  unfold RepoWorker.handle
  split
  · rename_i generation hw hg
    have hidle : ∀ c, s.worker = some c → c.key ≠ (q.repoID, q.comment.acquisitionID) := by
      intro c hc
      rw [hw] at hc
      cases hc
    split
    · rename_i hok
      have hmeta : executionMetadata q.comment = true := by
        simp only [Bool.and_eq_true] at hok
        exact hok.1.2
      dsimp only
      split
      · exact h
      · rename_i r hr
        exact hI.handleRecord h hw hg (readExecution_some hr)
      · rename_i hr
        have hrec : RecordOk _ (newExecution q generation a.now) := recordOk_new hmeta
        have hnew := hI.write a.first h (readExecution_none hr) hrec hidle
        split
        · exact h
        · split
          · rename_i hfirst
            refine hI.handleRecord hnew ?_ ?_ ?_
            · rw [write_of_ok hfirst]
              exact hw
            · rw [write_of_ok hfirst]
              exact hg
            · rw [write_of_ok hfirst]
              exact lookup_insert_eq_some.mpr (.inl ⟨rfl, rfl⟩)
          · exact hnew
    · exact h
  · exact h

lemma Served.expirePath (h : I s) (repo : Str) (path : Path) (io : Bool) (now : ℕ) :
    I (expirePath s repo path io now) := by
  unfold RepoWorker.expirePath
  split
  · split
    · rename_i generation _ hg
      split
      · split
        · rename_i r hr
          split
          · rw [← hg]
            exact hI.begin h (readExecution_some hr)
          · exact h
        · exact h
      · exact h
    · exact h
  · exact h

lemma Served.reap (h : I s) (key : Key) (io : Bool) (now : ℕ) : I (reap s key io now) := by
  unfold RepoWorker.reap
  split
  · rename_i r _ hr
    split
    · exact hI.begin h (readExecution_some hr)
    · exact h
  · exact h

end

structure Admissible (s : Server) (hook : Hook) (r : Execution) : Prop where
  record : s.journal.lookup hook.key = some r
  armed : r.state = .armed
  pid : 1 < hook.pid
  alive : hook.pid ∈ s.alive
  owner : r.clientID = hook.owner
  path : r.path = hook.path
  comment : r.comment = hook.comment
  worker : ∀ c, s.worker = some c → c.key ≠ hook.key

lemma Admissible.unused (ha : Admissible s hook r) : Unused s hook.key := unused_of_armed ha.record ha.armed

lemma Sound.write_started (h : Sound s) (ha : Admissible s hook r) (w : Write) :
    Sound (s.write w hook.key (r.start hook.pid)) :=
  h.write_armed w ha.unused ((h.records _ _ ha.record).same ⟨rfl, rfl, rfl, rfl, rfl⟩ (by simp [Execution.start])) ha.worker

lemma Sound.admitted_hook (h : Sound s) (ha : Admissible s hook r) :
    Sound (Server.admitted { s with journal := s.journal.insert hook.key (r.start hook.pid) } hook r.state) := by
  have hnew : Sound { s with journal := s.journal.insert hook.key (r.start hook.pid) } := by
    have := h.write_started ha .done
    rwa [write_of_ok rfl] at this
  have hnone : ∀ p ∈ s.permits, p.key ≠ hook.key := h.no_permit ha.unused
  have hfree := h.no_lock ha.unused (h.records _ _ ha.record).named
  have hfirst : hook.key ∉ s.trace.map Prod.fst := h.no_admission ha.unused
  have hpermits : ∀ p ∈ (if hook.accepted then hook.permit :: s.permits else s.permits), p = hook.permit ∨ p ∈ s.permits := by
    intro p hp
    split at hp
    · exact mem_cons.mp hp
    · exact .inr hp
  have hkey : hook.permit.key = hook.key := rfl
  refine ⟨hnew.records, ?_, ?_, ?_, ?_, ?_, ?_, ?_⟩
  · intro c hc
    have ho := hnew.worker c hc
    refine { ho with sight := fun lock hs hm => { ho.sight lock hs hm with unpermitted := ?_ } }
    intro p hp
    rcases hpermits p hp with rfl | hp
    · exact fun hk => ha.worker c hc (hk.symm.trans hkey)
    · exact (ho.sight lock hs hm).unpermitted p hp
  · intro p hp
    rcases hpermits p hp with rfl | hp
    · exact ⟨r.start hook.pid, lookup_insert_eq_some.mpr (.inl ⟨rfl, rfl⟩), by simp [Execution.start], rfl, ha.pid, ha.alive,
        ha.path, ha.owner, ha.comment, ((h.records _ _ ha.record).fresh ha.armed).2⟩
    · obtain ⟨q, ho⟩ := hnew.permits p hp
      exact ⟨q, { ho with }⟩
  · intro k lock id hk hc hid
    obtain ⟨q, ho⟩ := hnew.locks k lock id hk hc hid
    exact ⟨q, { ho with }⟩
  · change (if hook.accepted then hook.permit :: s.permits else s.permits).Pairwise _
    split
    · refine pairwise_cons.mpr ⟨fun p hp hk => hnone p hp (hk.symm.trans hkey), h.single⟩
    · exact h.single
  · intro p hp path lock hk
    rcases hpermits p hp with rfl | hp
    · exact hfree path lock hk
    · exact h.apart p hp path lock hk
  · intro e he
    rcases mem_append.mp he with he | he
    · exact hnew.admitted e he
    · rw [mem_singleton.mp he]
      exact ⟨ha.armed, r.start hook.pid, lookup_insert_eq_some.mpr (.inl ⟨rfl, rfl⟩), by simp [Execution.start]⟩
  · change ((s.trace ++ [(hook.key, r.state)]).map Prod.fst).Nodup
    rw [map_append, nodup_append]
    refine ⟨h.once, by simp, ?_⟩
    intro k hk k' hk'
    rw [map_singleton, mem_singleton] at hk'
    intro heq
    rw [heq, hk'] at hk
    exact hfirst hk

inductive Admission (s : Server) (hook : Hook) : Server → Prop
  | refused : Admission s hook s
  | expired (r : Execution) (ha : Admissible s hook r) :
      Admission s hook (s.write hook.write hook.key { r with state := .closed })
  | failed (r : Execution) (ha : Admissible s hook r) : Admission s hook (s.write hook.write hook.key (r.start hook.pid))
  | done (r : Execution) (ha : Admissible s hook r) :
      Admission s hook (Server.admitted { s with journal := s.journal.insert hook.key (r.start hook.pid) } hook r.state)

lemma admission (s : Server) (hook : Hook) : Admission s hook (admitPassportExecution s hook) := by
  unfold admitPassportExecution
  split
  · rename_i generation r _ hr
    split
    · rename_i hok
      obtain ⟨_, hpid, halive, hworker, hmatch⟩ := hok
      simp only [Hook.matches, Bool.and_eq_true, decide_eq_true_eq] at hmatch
      obtain ⟨⟨⟨⟨⟨harm, _⟩, howner⟩, hpath⟩, hcomment⟩, _⟩ := hmatch
      have ha : Admissible s hook r := by
        refine ⟨readExecution_some hr, harm, hpid, halive, howner, hpath, hcomment, ?_⟩
        intro c hc hk
        exact hworker (by rw [hc, map_some, hk])
      split
      · exact .expired r ha
      · split
        · rename_i hwrite
          rw [write_of_ok hwrite]
          exact .done r ha
        · exact .failed r ha
    · exact .refused
  · exact .refused

lemma Sound.preLock (h : Sound s) (hook : Hook) : Sound (admitPassportExecution s hook) := by
  have hcase := admission s hook
  generalize admitPassportExecution s hook = s' at hcase
  cases hcase with
  | refused => exact h
  | expired r ha =>
    exact h.write_armed _ ha.unused ((h.records _ _ ha.record).same ⟨rfl, rfl, rfl, rfl, rfl⟩ (by simp)) ha.worker
  | failed r ha => exact h.write_started ha _
  | done r ha => exact h.admitted_hook ha

lemma Sound.insert_lock (h : Sound s) (tokens : ℕ) (hok : ∀ id, Carries lock id → id ≠ [] → ∃ r, LockOk s k lock id r)
    (hpermit : ∀ p ∈ s.permits, p.repo = k.1 → ¬ Carries lock p.comment.acquisitionID)
    (hworker : ∀ c, s.worker = some c → ∀ seen, c.point.seen = some seen → matching c.record (some seen) = true →
      c.key.1 = k.1 → ¬ Carries lock c.key.2) :
    Sound { s with locks := s.locks.insert k lock, tokens := tokens } where
  __ := h
  worker := by
    intro c hc
    have ho := h.worker c hc
    refine { ho with sight := fun seen hs hm => { ho.sight seen hs hm with only := ?_ } }
    intro path other hk hcar
    rcases lookup_insert_eq_some.mp hk with ⟨hat, rfl⟩ | ⟨_, hk⟩
    · exact absurd hcar (hworker c hc seen hs hm (Prod.ext_iff.mp hat).1)
    · exact (ho.sight seen hs hm).only path other hk hcar
  permits := by
    intro p hp
    obtain ⟨r, ho⟩ := h.permits p hp
    exact ⟨r, { ho with }⟩
  locks := by
    intro k' lock' id hk hc hid
    rcases lookup_insert_eq_some.mp hk with ⟨rfl, rfl⟩ | ⟨_, hk⟩
    · obtain ⟨r, ho⟩ := hok id hc hid
      exact ⟨r, { ho with }⟩
    · obtain ⟨r, ho⟩ := h.locks k' lock' id hk hc hid
      exact ⟨r, { ho with }⟩
  apart := by
    intro p hp path lock' hk
    rcases lookup_insert_eq_some.mp hk with ⟨hat, rfl⟩ | ⟨_, hk⟩
    · exact hpermit p hp (Prod.ext_iff.mp hat).1
    · exact h.apart p hp path lock' hk

lemma Less.letGo {permits : List Permit} (hsub : permits.Sublist s.permits) : Less s { s with permits := permits } :=
  ⟨rfl, rfl, fun _ _ hk => hk, hsub, fun _ _ ha => ha, fun _ hw => ⟨hw, rfl⟩⟩

lemma Sound.used (h : Sound s) (hp : p ∈ s.permits) : ∀ q ∈ s.permits.erase p, q.key ≠ p.key := by
  have hkeys : (s.permits.map Permit.key).Nodup := pairwise_map.mpr h.single
  intro q hq hk
  obtain ⟨hne, hq⟩ := hkeys.of_map.mem_erase_iff.mp hq
  exact hne (inj_on_of_nodup_map hkeys hq hp hk)

lemma carries_permit {token : ℕ} (h : Carries ⟨token, p.owner, some p.comment⟩ id) :
    p.comment.acquisitionID = id := by
  obtain ⟨c, hc, hid⟩ := h
  cases hc
  exact hid

lemma Sound.takeLock (h : Sound s) (p : Permit) : Sound (takeLock s p) := by
  unfold RepoWorker.takeLock
  split
  · rename_i hp
    have hless : Sound { s with permits := s.permits.erase p } := h.less (.letGo erase_sublist)
    dsimp only
    split
    · exact hless
    · obtain ⟨r, hr⟩ := h.permits p hp
      refine hless.insert_lock (s.tokens + 1) ?_ ?_ ?_
      · intro id hc _
        cases carries_permit hc
        refine ⟨r, hr.record, hr.state, hr.pid ▸ hr.real, hr.path, hr.owner, congrArg some hr.comment, ?_⟩
        intro t ht
        rw [hr.unseen] at ht
        cases ht
      · intro q hq hrepo hc
        exact h.used hp q hq (Prod.ext hrepo (carries_permit hc).symm)
      · intro c hc seen hs hm hrepo hcar
        exact ((h.worker c hc).sight seen hs hm).unpermitted p hp (Prod.ext hrepo.symm (carries_permit hcar))
  · exact h

lemma not_carries_plain (h : ∀ c ∈ lock.comment, c.acquisitionID = []) (hid : id ≠ []) : ¬ Carries lock id := by
  rintro ⟨c, hc, rfl⟩
  exact hid (h c hc)

lemma Sound.plainLock (h : Sound s) (repo : Str) (path : Path) (owner : Str)
    (comment : Option Comment) : Sound (plainLock s repo path owner comment) := by
  unfold RepoWorker.plainLock
  split
  · rename_i hfree
    have hplain : ∀ id, id ≠ [] → ¬ Carries ⟨s.tokens, owner, comment⟩ id := fun _ hid => not_carries_plain hfree.2 hid
    refine h.insert_lock (s.tokens + 1) (fun id hc hid => absurd hc (hplain id hid)) ?_ ?_
    · intro p hp _
      obtain ⟨r, hr⟩ := h.permits p hp
      exact hplain _ (h.records _ _ hr.record).named
    · intro c hc _ _ _ _
      exact hplain _ (h.records _ _ (h.worker c hc).record).named
  · exact h

lemma Less.spawn (s : Server) (pid : ℕ) : Less s { s with alive := pid :: s.alive } :=
  ⟨rfl, rfl, fun _ _ hk => hk, List.Sublist.refl _, fun _ _ ha => mem_cons_of_mem _ ha, fun _ hw => ⟨hw, rfl⟩⟩

lemma Less.exit (s : Server) (pid : ℕ) :
    Less s { s with alive := s.alive.filter (· ≠ pid), permits := s.permits.filter (·.pid ≠ pid) } := by
  refine ⟨rfl, rfl, fun _ _ hk => hk, filter_sublist, ?_, fun _ hw => ⟨hw, rfl⟩⟩
  intro p hp ha
  have hne := (mem_filter.mp hp).2
  exact mem_filter.mpr ⟨ha, hne⟩

lemma Less.unlock (s : Server) (k : Str × Path) : Less s { s with locks := s.locks.erase k } :=
  ⟨rfl, rfl, fun _ _ hk => (lookup_erase_eq_some.mp hk).2, List.Sublist.refl _, fun _ _ ha => ha, fun _ hw => ⟨hw, rfl⟩⟩

lemma Sound.step (h : Sound s) (e : Event) : Sound (step s e) := by
  cases e with
  | handle q a => exact sound_served.handle h q a
  | expirePath repo path io now => exact sound_served.expirePath h repo path io now
  | reap key io now => exact sound_served.reap h key io now
  | close a =>
    simp only [RepoWorker.step]
    split
    · rename_i c hc
      exact h.closeStep (h.worker c hc) a
    · exact h
  | restart => exact h.idle
  | spawn pid => exact h.less (.spawn s pid)
  | preLock hook => exact h.preLock hook
  | takeLock p => exact h.takeLock p
  | refuse p => exact h.less (.letGo erase_sublist)
  | exit pid => exact h.less (.exit s pid)
  | plainLock repo path owner comment => exact h.plainLock repo path owner comment
  | unlock repo path => exact h.less (.unlock s (repo, path))
  | replace repo generation => exact h.less (.replace s repo generation)

lemma sound_run (es : List Event) : Sound (run step empty es) :=
  run_invariant step (fun _ e h => h.step e) sound_empty es

end FileES.RepoWorker
