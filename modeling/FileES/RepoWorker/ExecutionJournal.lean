import FileES.RepoWorker.ExecutionInvariant

/-! The journal's own promises: one admission, states that only advance, and no lock broken but the recorded one. -/

namespace FileES.RepoWorker

open Go Lib.Maps Lib.Durable Lib.Runs Server

def ExecutionState.rank : ExecutionState → ℕ
  | .armed => 0
  | .started => 1
  | .closing => 2
  | .closed => 3

def Later (s s' : Server) : Prop :=
  ∀ key r, s.journal.lookup key = some r → ∃ r', s'.journal.lookup key = some r' ∧ r.state.rank ≤ r'.state.rank

variable {s s' : Server} {w : Write} {key : Key} {r' r : Execution} {c : Closing} {k : Str × Path} {lock : SvnLock}

lemma Later.of_eq (h : s'.journal = s.journal) : Later s s' := by
  intro key r hr
  exact ⟨r, h ▸ hr, le_rfl⟩

lemma Later.trans {s'' : Server} (h : Later s s') (h' : Later s' s'') : Later s s'' := by
  intro key r hr
  obtain ⟨q, hq, hle⟩ := h key r hr
  obtain ⟨q', hq', hle'⟩ := h' key q hq
  exact ⟨q', hq', hle.trans hle'⟩

lemma later_write (h : ∀ r, s.journal.lookup key = some r → r.state.rank ≤ r'.state.rank) :
    Later s (s.write w key r') := by
  unfold write
  split
  · intro key' r hr
    by_cases hk : key' = key
    · subst hk
      exact ⟨r', lookup_insert_eq_some.mpr (.inl ⟨rfl, rfl⟩), h r hr⟩
    · exact ⟨r, lookup_insert_eq_some.mpr (.inr ⟨hk, hr⟩), le_rfl⟩
  · exact .of_eq rfl

lemma rank_le_closed (state : ExecutionState) : state.rank ≤ ExecutionState.closed.rank := by cases state <;> decide

lemma rank_le_closing {state : ExecutionState} (h : state ≠ .closed) : state.rank ≤ ExecutionState.closing.rank := by
  cases state with
  | closed => exact absurd rfl h
  | armed => decide
  | started => decide
  | closing => decide

lemma later_write_unused (h : Unused s key) : Later s (s.write w key r') := by
  apply later_write
  intro q hq
  rw [h q hq]
  exact Nat.zero_le _

lemma later_handleRecord {q : Request} {a : Answer} {generation : Str} :
    Later s (handleRecord s q a generation key r) := by
  unfold handleRecord
  split
  · split
    · split
      · exact later_write (fun _ _ => rank_le_closed _)
      · exact .of_eq rfl
    · exact .of_eq rfl
  · exact .of_eq rfl

lemma later_handle (s : Server) (q : Request) (a : Answer) : Later s (handle s q a) := by
  unfold handle
  split
  · rename_i generation _ _
    split
    · dsimp only
      split
      · exact .of_eq rfl
      · exact later_handleRecord
      · rename_i hr
        have hnew : Later s (s.write a.first (q.repoID, q.comment.acquisitionID) (newExecution q generation a.now)) :=
          later_write_unused (readExecution_none hr)
        split
        · exact .of_eq rfl
        · split
          · exact hnew.trans later_handleRecord
          · exact hnew
    · exact .of_eq rfl
  · exact .of_eq rfl

lemma journal_expirePath (s : Server) (repo : Str) (path : Path) (io : Bool) (now : ℕ) :
    (expirePath s repo path io now).journal = s.journal := by
  unfold expirePath
  repeat' split
  all_goals rfl

lemma journal_reap (s : Server) (key : Key) (io : Bool) (now : ℕ) : (reap s key io now).journal = s.journal := by
  unfold reap
  repeat' split
  all_goals rfl

lemma later_saveThen {point : Point} (hr : s.journal.lookup c.key = some c.record)
    (hle : c.record.state.rank ≤ r'.state.rank) : Later s (s.saveThen c r' w point) := by
  have hwrite : Later s (s.write w c.key r') := by
    apply later_write
    intro q hq
    rw [hr] at hq
    cases hq
    exact hle
  unfold saveThen
  split
  · exact hwrite.trans (.of_eq rfl)
  · exact hwrite.trans (.of_eq rfl)

lemma journal_unlockIfCurrent (s : Server) (c : Closing) (token : ℕ) (w : Write) :
    (unlockIfCurrent s c token w).journal = s.journal := by
  unfold unlockIfCurrent
  repeat' split
  all_goals rfl

lemma later_closeStep (ho : WorkerOk s c) (a : Reply) : Later s (closeStep s c a) := by
  unfold closeStep
  split
  · split
    · exact .of_eq rfl
    · rename_i hstate
      exact later_saveThen ho.record (rank_le_closing hstate)
  · split <;> exact .of_eq rfl
  · split <;> exact .of_eq rfl
  · split
    · split
      · exact later_saveThen ho.record le_rfl
      · exact .of_eq rfl
    · exact .of_eq rfl
  · split
    · split <;> exact .of_eq rfl
    · exact .of_eq rfl
  · split
    · split
      · exact .of_eq (journal_unlockIfCurrent _ _ _ _)
      · exact .of_eq rfl
    · exact .of_eq rfl
  · exact (later_write (fun _ _ => rank_le_closed _)).trans (.of_eq rfl)

lemma later_preLock (s : Server) (hook : Hook) : Later s (admitPassportExecution s hook) := by
  have hcase := admission s hook
  generalize admitPassportExecution s hook = s' at hcase
  cases hcase with
  | refused => exact .of_eq rfl
  | expired r ha => exact later_write_unused ha.unused
  | failed r ha => exact later_write_unused ha.unused
  | done r ha =>
    have hwrite : Later s (s.write .done hook.key (r.start hook.pid)) := later_write_unused ha.unused
    exact hwrite.trans (.of_eq rfl)

lemma journal_takeLock (s : Server) (p : Permit) : (takeLock s p).journal = s.journal := by
  unfold takeLock
  split
  · dsimp only
    split <;> rfl
  · rfl

lemma journal_plainLock (s : Server) (repo : Str) (path : Path) (owner : Str)
    (comment : Option Comment) : (plainLock s repo path owner comment).journal = s.journal := by
  unfold plainLock
  split <;> rfl

lemma later_step (h : Sound s) (e : Event) : Later s (step s e) := by
  cases e with
  | handle q a => exact later_handle s q a
  | expirePath repo path io now => exact .of_eq (journal_expirePath s repo path io now)
  | reap key io now => exact .of_eq (journal_reap s key io now)
  | close a =>
    simp only [step]
    split
    · rename_i c hc
      exact later_closeStep (h.worker c hc) a
    · exact .of_eq rfl
  | restart => exact .of_eq rfl
  | spawn pid => exact .of_eq rfl
  | preLock hook => exact later_preLock s hook
  | takeLock p => exact .of_eq (journal_takeLock s p)
  | refuse p => exact .of_eq rfl
  | exit pid => exact .of_eq rfl
  | plainLock repo path owner comment => exact .of_eq (journal_plainLock s repo path owner comment)
  | unlock repo path => exact .of_eq rfl
  | replace repo generation => exact .of_eq (Less.replace s repo generation).journal

lemma later_run (h : Sound s) (es : List Event) : Later s (run step s es) := by
  induction es generalizing s with
  | nil => exact .of_eq rfl
  | cons e es ih => exact (later_step h e).trans (ih (h.step e))

def Recorded (s : Server) (k : Str × Path) (lock : SvnLock) : Prop :=
  ∃ key r, s.journal.lookup key = some r ∧ r.state = .closing ∧ k = (r.repoID, r.path) ∧
    r.observedToken = some lock.token ∧ r.clientID = lock.owner ∧
    s.generations.lookup r.repoID = some r.repositoryUUID

lemma locks_write (s : Server) (w : Write) (key : Key) (r : Execution) : (s.write w key r).locks = s.locks := by
  unfold write
  split <;> rfl

lemma locks_saveThen (s : Server) (c : Closing) (r : Execution) (w : Write) (point : Point) :
    (s.saveThen c r w point).locks = s.locks := by
  unfold saveThen
  split
  · exact locks_write s w c.key r
  · exact locks_write s w c.key r

lemma locks_unlockIfCurrent {token : ℕ} (hk : s.locks.lookup k = some lock)
    (hgone : (unlockIfCurrent s c token w).locks.lookup k ≠ some lock) :
    k = (c.record.repoID, c.record.path) ∧ lock.token = token ∧ lock.owner = c.record.clientID := by
  have hbreak : current s c.record token = true → (breakLock s c.record).locks.lookup k ≠ some lock →
      k = (c.record.repoID, c.record.path) ∧ lock.token = token ∧ lock.owner = c.record.clientID := by
    intro hcur hne
    have hat : k = (c.record.repoID, c.record.path) := by
      by_contra hk'
      exact hne (lookup_erase_eq_some.mpr ⟨hk', hk⟩)
    unfold current at hcur
    rw [← hat, hk] at hcur
    simp only [Bool.and_eq_true, decide_eq_true_eq] at hcur
    exact ⟨hat, hcur⟩
  unfold unlockIfCurrent at hgone
  split at hgone
  · rename_i hcur
    split at hgone
    · exact hbreak hcur hgone
    · split at hgone
      · exact hbreak hcur hgone
      · exact absurd hk hgone
  · exact absurd hk hgone

lemma broken_recorded {a : Reply} (h : Sound s) (ho : WorkerOk s c) (hk : s.locks.lookup k = some lock)
    (hgone : (closeStep s c a).locks.lookup k ≠ some lock) : Recorded s k lock := by
  unfold closeStep at hgone
  split at hgone
  · split at hgone
    · exact absurd hk hgone
    · rw [locks_saveThen] at hgone
      exact absurd hk hgone
  · split at hgone <;> exact absurd hk hgone
  · split at hgone <;> exact absurd hk hgone
  · split at hgone
    · split at hgone
      · rw [locks_saveThen] at hgone
        exact absurd hk hgone
      · exact absurd hk hgone
    · exact absurd hk hgone
  · split at hgone
    · split at hgone <;> exact absurd hk hgone
    · exact absurd hk hgone
  · rename_i seen hp
    split at hgone
    · rename_i l token htok
      split at hgone
      · obtain ⟨hat, htoken, howner⟩ := locks_unlockIfCurrent hk hgone
        have hsame := ho.same (by simp [hp, Point.sameGeneration])
        rw [ho.generation] at hsame
        refine ⟨c.key, c.record, ho.record, ho.state (by simp [hp]), hat, htoken ▸ htok, howner.symm, ?_⟩
        rw [(h.records _ _ ho.record).repo]
        exact hsame.symm
      · exact absurd hk hgone
    · exact absurd hk hgone
  · have hlocks : ((s.write a.write c.key { c.record with state := .closed }).idle).locks = s.locks :=
      locks_write s a.write c.key _
    rw [hlocks] at hgone
    exact absurd hk hgone

/-- A journal file admits one request, while armed; no record is lost or goes back; closing takes away only the lock
that its record holds. -/
theorem execution_journal_safe (es : List Event) :
    ((run step Server.empty es).trace.map Prod.fst).Nodup ∧
    (∀ e ∈ (run step Server.empty es).trace, e.2 = .armed) ∧
    (∀ more, Later (run step Server.empty es) (run step Server.empty (es ++ more))) ∧
    (∀ a k lock, (run step Server.empty es).locks.lookup k = some lock →
      (step (run step Server.empty es) (.close a)).locks.lookup k ≠ some lock →
      Recorded (run step Server.empty es) k lock) := by
  have h := sound_run es
  refine ⟨h.once, fun e he => (h.admitted e he).1, ?_, ?_⟩
  · intro more
    rw [run_append]
    exact later_run h more
  · intro a k lock hk hgone
    simp only [step] at hgone
    split at hgone
    · rename_i c hc
      exact broken_recorded h (h.worker c hc) hk hgone
    · exact absurd hk hgone

def acquisition : Comment where
  acquisitionID := "6ba7b810-9dad-11d1-80b4-00c04fd430c8"
  passportID := "6ba7b811-9dad-11d1-80b4-00c04fd430c8"
  instanceUID := "6ba7b812-9dad-11d1-80b4-00c04fd430c8"
  previousToken := []
  realmID := []
  issuedAt := 1
  expiresAt := 10
  hardExpiresAt := 10

def arming (repo : Str) : Event :=
  .handle ⟨true, repo, ['f'], acquisition, ['c'], ['r']⟩ ⟨true, true, 2, .done, .done⟩

def settling (repo : Str) : Event :=
  .handle ⟨false, repo, ['f'], acquisition, ['c'], ['r']⟩ ⟨true, true, 2, .done, .done⟩

def hookCall (repo : Str) : Hook := ⟨7, repo, ['f'], ['c'], acquisition, 3, true, .done, true⟩

/-- The journal is kept per repository, so the same acquisition ID is admitted once in each of two repositories. -/
theorem acquisition_admitted_in_two_repositories :
    (run step Server.empty [.replace ['a'] (some ['g']), .replace ['b'] (some ['h']), .spawn 7, arming ['a'],
      arming ['b'], .preLock (hookCall ['a']), .preLock (hookCall ['b'])]).trace =
      [((['a'], acquisition.acquisitionID), .armed), ((['b'], acquisition.acquisitionID), .armed)] := by
  decide +kernel

end FileES.RepoWorker
