import FileES.Whale.Conduct

/-! A finished upload leaves the queue of its path, unless its worker dies or fails between the end and the release. -/

namespace FileES.Whale

open Go Lib.Processes Lib.Runs

/-- No generation that is over is queued again, its end and release do not fail halfway, and no worker dies in
between. -/
def Orderly (c : System) : Happening → Prop
  | .advance pid w => ∀ k next, c.task pid = some (.call k next) → Allowed True k c.shared w
  | .die pid => MayDie True pid c.shared
  | _ => True

def Settled (c : System) : Prop := (∀ pid, ¬ c.Running pid) → ∀ g, c.shared.terminal g → ¬ c.shared.queued g

theorem finished_leaves_queue (env : Env) (s : Store) (h : s.Initial) (es : List Happening)
    (hes : Admits (exec env) Orderly (fresh s) es) : Along (exec env) Settled (fresh s) es := by
  have hes' : Admits (exec env) (rules env True).Admitted (fresh s) es := by
    refine hes.mono _ (fun c e he => ?_)
    cases e with
    | start request => trivial
    | advance pid w => exact he
    | die pid => exact he
    | outside e => trivial
  intro pre hpre hrun g hterm hqueued
  have hsound : Sound (rules env True) (Answers env) (run (exec env) (fresh s) pre) := h.sound.along keeps hes' pre hpre
  refine hsound.inv.queues.tidy trivial g hterm hqueued ?_
  cases hw : (run (exec env) (fresh s) pre).shared.window g with
  | none => rfl
  | some pid => exact absurd hw (hsound.idle_of_not_running (hrun pid) g)

def abandoned : List Happening :=
  uploading 20 ++ .die 0 :: .start (.commit [] sampleIdentity) :: List.replicate 4 (.advance 1 .done)

def finished (c : System) (g : Str) : Bool := (c.shared.journal g).any (fun r => r.state.terminal)

def calm (c : System) : Happening → Bool
  | .start _ => true
  | .advance pid .done =>
    match c.task pid with
    | some (.call (.claim i) _) => !finished c i.generationID
    | _ => true
  | _ => false

variable {c : System}

lemma terminal_iff_finished {g : Str} : c.shared.terminal g ↔ finished c g = true := by
  rw [Store.terminal, finished, Option.any_eq_true]

lemma not_running_of_returned {pid : ℕ} (h : returned c pid = true) : ¬ c.Running pid := by
  rintro ⟨k, next, ht⟩
  rw [returned, ht] at h
  cases h

lemma orderly_of_calm {e : Happening} (h : calm c e = true) : Orderly c e := by
  cases e with
  | start request => trivial
  | outside e => cases h
  | die pid => cases h
  | advance pid w =>
    intro k next ht
    cases w with
    | done =>
      rw [calm, ht] at h
      cases k with
      | claim i =>
        intro _ hterm
        rw [terminal_iff_finished] at hterm
        have hnot : (!finished c i.generationID) = true := h
        rw [hterm] at hnot
        cases hnot
      | writeRecord r => exact fun _ _ hw => by cases hw
      | release i => exact fun _ => .inl rfl
      | _ => trivial
    | _ => cases h

theorem finished_leaves_queue_rejected : finished (run (exec sampleEnv) (fresh sampleStore) (uploading 23)) sampleGeneration = true ∧
    Along (exec sampleEnv) Settled (fresh sampleStore) (uploading 23) := by
  refine ⟨by decide +kernel, finished_leaves_queue sampleEnv sampleStore sampleStore_initial (uploading 23) ?_⟩
  have hcalm : Admits (exec sampleEnv) (fun c e => calm c e = true) (fresh sampleStore) (uploading 23) := by decide +kernel
  exact hcalm.mono _ (fun _ _ => orderly_of_calm)

/-- Nobody is at work and the last request has been answered, but the rejected generation holds its path. -/
theorem rejected_holds_path : ∃ c, c = run (exec sampleEnv) (fresh sampleStore) abandoned ∧ (∀ pid, ¬ c.Running pid) ∧
    c.requests.length = 2 ∧ returned c 1 = true ∧ c.shared.terminal sampleGeneration ∧
    c.shared.holds sampleGeneration sampleIdentity.path := by
  have hrun : (run (exec sampleEnv) (fresh sampleStore) abandoned).requests.length = 2 ∧
      ((run (exec sampleEnv) (fresh sampleStore) abandoned).task 0).isNone = true ∧
      returned (run (exec sampleEnv) (fresh sampleStore) abandoned) 1 = true ∧
      finished (run (exec sampleEnv) (fresh sampleStore) abandoned) sampleGeneration = true ∧
      (run (exec sampleEnv) (fresh sampleStore) abandoned).shared.queue sampleIdentity.path = some ⟨sampleGeneration, []⟩ := by
    decide +kernel
  have hsound : Sound (rules sampleEnv False) (Answers sampleEnv) (run (exec sampleEnv) (fresh sampleStore) abandoned) :=
    sound_run sampleStore_initial abandoned
  obtain ⟨c, hc⟩ : ∃ c, c = run (exec sampleEnv) (fresh sampleStore) abandoned := ⟨_, rfl⟩
  rw [← hc] at hrun hsound
  obtain ⟨hlen, hnone, hret, hfin, hqueue⟩ := hrun
  refine ⟨c, hc, fun pid hrunning => ?_, hlen, hret, terminal_iff_finished.mpr hfin, ⟨_, hqueue, rfl⟩⟩
  match pid with
  | 0 =>
    obtain ⟨k, next, ht⟩ := hrunning
    rw [ht] at hnone
    cases hnone
  | 1 => exact not_running_of_returned hret hrunning
  | pid + 2 =>
    obtain ⟨k, next, ht⟩ := hrunning
    rw [hsound.task_of_length_le (by omega)] at ht
    cases ht

/-- The journal can be read back, and a generation is queued once, under its own path. -/
def WellFormed (s : Store) : Prop :=
  (∀ g r, s.journal g = some r → validateRecord r = .ok () ∧ r.identity.generationID = g ∧ r.direction = .put) ∧
  ∀ k q, s.queue k = some q → q.members.Nodup ∧ ∀ g ∈ q.members, ∃ r, s.journal g = some r ∧ r.identity.path = k

theorem files_well_formed (env : Env) (s : Store) (h : s.Initial) (es : List Happening) :
    Along (exec env) (fun c => WellFormed c.shared) (fresh s) es := by
  intro pre _
  have hi : Inv env False (run (exec env) (fresh s) pre).shared := (sound_run h pre).inv
  exact ⟨hi.uploads.valid, fun k q hq => ⟨hi.queues.nodup k q hq, fun g => hi.queues.known k q g hq⟩⟩

theorem files_well_formed_sample : WellFormed (run (exec sampleEnv) (fresh sampleStore) (uploading 23)).shared :=
  (files_well_formed sampleEnv sampleStore sampleStore_initial (uploading 23)).last

end FileES.Whale
