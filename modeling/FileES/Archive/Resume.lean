import FileES.Archive.Rules

/-! A freeze of the guard that was interrupted, any number of times, and is called again. -/

namespace FileES.Archive

open Go Lib.Durable Lib.Effects Lib.Fallible ArchiveProtectionRecord List Option AList

variable {env : Env} {want : ArchiveProtectionRecord} {s s' : Repo} {now : Time}

def undated (r : ArchiveProtectionRecord) : ArchiveProtectionRecord := { r with atTime := 0 }

variable {p r : ArchiveProtectionRecord}

lemma eq_dated_iff : p = dated r (some p) ↔ undated p = undated r := by
  cases p
  cases r
  simp [dated, undated]

@[simp] lemma undated_dated {prior : Option ArchiveProtectionRecord} : undated (dated r prior) = undated r := by
  cases prior <;> rfl

lemma event_of_undated (h : undated p = undated r) : p.event = r.event := congrArg (fun r => (r.epoch, r.state)) h

lemma validate_of_undated (h : undated p = undated r) (hr : r.validate = .ok ()) (hp : p.atTime ≠ 0) :
    p.validate = .ok () := by
  have hp' : p = { r with atTime := p.atTime } := eq_dated_iff.mpr h
  rw [hp']
  simp only [validate, bind_ok, require_ok, Bool.and_eq_true, decide_eq_true_eq] at hr ⊢
  obtain ⟨_, ⟨⟨⟨hschema, hepoch⟩, hrevision⟩, _⟩, hrest⟩ := hr
  exact ⟨(), ⟨⟨⟨hschema, hepoch⟩, hrevision⟩, hp⟩, hrest⟩

lemma atTime_ne_zero (h : r.validate = .ok ()) : r.atTime ≠ 0 := by
  simp only [validate, bind_ok, require_ok, Bool.and_eq_true, decide_eq_true_eq] at h
  obtain ⟨_, ⟨_, h⟩, _⟩ := h
  exact h

lemma validate_archived (h : r.validate = .ok ()) :
    ({ r with state := .archived } : ArchiveProtectionRecord).validate = .ok () := by
  simp only [validate, bind_ok, require_ok, Bool.and_eq_true, decide_eq_true_eq] at h ⊢
  obtain ⟨_, hfields, _, hids, _, ⟨htext, _⟩, hdigest⟩ := h
  exact ⟨(), hfields, (), hids, (), ⟨htext, by simp⟩, hdigest⟩

variable (env : Env) (want : ArchiveProtectionRecord) (s : Repo)

def plan : ArchiveProtectionRecord :=
  match s.policy with
  | none => freezingRecord 0 want
  | some e =>
    if e.state = .released then { freezingRecord 0 want with previousSHA256 := env.recordDigest e }
    else { e with state := .freezing, atTime := 0 }

def sealed : ArchiveProtectionRecord :=
  { plan env want s with state := .archived }

def Repo.archived : Prop := ∃ e, s.policy = some e ∧ e.state = .archived

def Start : Prop :=
  (s.guard = none ∧ want.epoch = 1 ∧ want.previousSHA256 = []) ∨
    ∃ e, InForce env s e ∧
      ((e.state = .released ∧ e.epoch ≠ maxEpoch ∧ want.epoch = e.epoch + 1 ∧ want.operationID ≠ e.operationID ∧
          ∀ key r, s.event key = some r → Unused want.operationID want.epoch key r) ∨
        (e.state ≠ .released ∧ e.binding = want.binding))

structure Freezable : Prop where
  fileLocks : env.fileLocksSupported = true
  canonical : canonicalUUID env.repository = true
  valid : ∀ t, t ≠ 0 → (freezingRecord t want).validate = .ok ()
  repo : want.repoID = env.repository
  hooks : inspectArchiveHooks env false s = .ok ()
  uuid : s.uuid = want.repositoryUUID
  youngest : s.youngest = want.revision
  unlocked : s.locked = false
  start : Start env want s
  freezing : ¬ s.archived → ∀ p, s.event (want.epoch, .freezing) = some p →
    p.validate = .ok () ∧ undated p = plan env want s
  archived : ∀ p, s.event (want.epoch, .archived) = some p → p.validate = .ok () ∧ undated p = sealed env want s

def Planned (r : ArchiveProtectionRecord) : Prop :=
  r.atTime ≠ 0 ∧ (undated r = plan env want s ∨ undated r = sealed env want s)

structure Underway (s' : Repo) : Prop where
  uuid : s'.uuid = s.uuid
  youngest : s'.youngest = s.youngest
  locked : s'.locked = s.locked
  hooks : ∀ name, s'.hooks name = s.hooks name ∨
    (s.hooks name = none ∧ s'.hooks name = some (.symlink env.executable))
  guarded : s.guard.isSome → s'.guard.isSome
  event : ∀ key, s'.event key = s.event key ∨
    (s.event key = none ∧ ¬ s.archived ∧ ∃ r, s'.event key = some r ∧ key = r.event ∧ Planned env want s r)
  policy : s'.policy = s.policy ∨
    ¬ s.archived ∧ ∃ r f, s'.policy = some r ∧ Planned env want s r ∧ s'.event r.event = some r ∧
      s'.event (want.epoch, .freezing) = some f ∧ undated f = plan env want s

structure Frozen (s' : Repo) : Prop where
  uuid : s'.uuid = s.uuid
  youngest : s'.youngest = s.youngest
  locked : s'.locked = s.locked
  hooks : ∀ name, s'.hooks name = some (.symlink env.executable)
  guarded : s'.guard.isSome
  policy : s'.policy.map undated = some (sealed env want s)
  sealed : (s'.event (want.epoch, .archived)).map undated = some (sealed env want s)
  freezing : ¬ s.archived → (s'.event (want.epoch, .freezing)).map undated = some (plan env want s)
  event : ∀ key, key ≠ (want.epoch, .archived) → (s.archived ∨ key ≠ (want.epoch, .freezing)) →
    s'.event key = s.event key

structure SameButDates (s' : Repo) : Prop where
  uuid : s.uuid = s'.uuid
  youngest : s.youngest = s'.youngest
  locked : s.locked = s'.locked
  hooks : s.hooks = s'.hooks
  guarded : s.guard.isSome = s'.guard.isSome
  policy : s.policy.map undated = s'.policy.map undated
  event : ∀ key, (s.event key).map undated = (s'.event key).map undated

variable {env want s}

lemma Frozen.sameButDates {s₁ s₂ : Repo} (h₁ : Frozen env want s s₁) (h₂ : Frozen env want s s₂) : SameButDates s₁ s₂ where
  uuid := h₁.uuid.trans h₂.uuid.symm
  youngest := h₁.youngest.trans h₂.youngest.symm
  locked := h₁.locked.trans h₂.locked.symm
  hooks := funext (fun name => (h₁.hooks name).trans (h₂.hooks name).symm)
  guarded := h₁.guarded.trans h₂.guarded.symm
  policy := h₁.policy.trans h₂.policy.symm
  event key := by
    by_cases ha : key = (want.epoch, .archived)
    · subst ha
      exact h₁.sealed.trans h₂.sealed.symm
    · by_cases hf : s.archived ∨ key ≠ (want.epoch, .freezing)
      · rw [h₁.event key ha hf, h₂.event key ha hf]
      · obtain ⟨hs, hk⟩ := not_or.mp hf
        rw [not_not.mp hk]
        exact (h₁.freezing hs).trans (h₂.freezing hs).symm

lemma Underway.refl : Underway env want s s where
  uuid := rfl
  youngest := rfl
  locked := rfl
  hooks _ := .inl rfl
  guarded := id
  event _ := .inl rfl
  policy := .inl rfl

variable {e : ArchiveProtectionRecord} {name : HookName}

lemma plan_of_none (h : s.policy = none) : plan env want s = freezingRecord 0 want := by rw [plan, h]

lemma plan_of_released (h : s.policy = some e) (he : e.state = .released) :
    plan env want s = { freezingRecord 0 want with previousSHA256 := env.recordDigest e } := by
  rw [plan, h]
  exact if_pos he

lemma plan_of_live (h : s.policy = some e) (he : e.state ≠ .released) :
    plan env want s = { e with state := .freezing, atTime := 0 } := by
  rw [plan, h]
  exact if_neg he

lemma policy_of_guard (h : s.guard = none) : s.policy = none := by
  rw [Repo.policy, h]
  rfl

lemma plan_state : (plan env want s).state = .freezing := by
  rw [plan]
  split
  · rfl
  · split <;> rfl

section

variable (h : Start env want s)
include h

lemma Start.plan_cases : plan env want s = freezingRecord 0 want ∨
    (∃ e, plan env want s = { freezingRecord 0 want with previousSHA256 := env.recordDigest e }) ∨
      ∃ e, InForce env s e ∧ e.binding = want.binding ∧ plan env want s = { e with state := .freezing, atTime := 0 } := by
  rcases h with ⟨hg, _⟩ | ⟨e, he, ⟨hreleased, _⟩ | ⟨hstate, hbinding⟩⟩
  · exact .inl (plan_of_none (policy_of_guard hg))
  · exact .inr (.inl ⟨e, plan_of_released he.policy hreleased⟩)
  · exact .inr (.inr ⟨e, he, hbinding, plan_of_live he.policy hstate⟩)

lemma Start.plan_binding : (plan env want s).binding = want.binding := by
  rcases h.plan_cases with hp | ⟨e, hp⟩ | ⟨e, _, hbinding, hp⟩ <;> rw [hp]
  · rfl
  · rfl
  · exact hbinding

lemma Start.plan_event : (plan env want s).event = (want.epoch, .freezing) :=
  Prod.ext (congrArg Binding.epoch h.plan_binding) plan_state

lemma Start.sealed_event : (sealed env want s).event = (want.epoch, .archived) := by
  have := congrArg Prod.fst h.plan_event
  exact congrArg (fun n => (n, GuardState.archived)) this

end

lemma undated_plan : undated (plan env want s) = plan env want s := by
  rw [plan]
  split
  · rfl
  · split <;> rfl

lemma undated_sealed : undated (sealed env want s) = sealed env want s := by
  rw [sealed, undated]
  conv_rhs => rw [← undated_plan]
  rfl

lemma Planned.binding (h : Planned env want s r) (hs : Start env want s) : r.binding = want.binding := by
  rw [← hs.plan_binding]
  rcases h.2 with h | h
  · have hb := congrArg ArchiveProtectionRecord.binding h
    exact hb
  · have hb := congrArg ArchiveProtectionRecord.binding h
    exact hb

section

variable (h : Freezable env want s)
include h

lemma Freezable.validate_plan (hr : undated r = plan env want s) (ht : r.atTime ≠ 0) : r.validate = .ok () := by
  rcases h.start.plan_cases with hp | ⟨e, hp⟩ | ⟨e, he, _, hp⟩ <;> rw [hp] at hr
  · exact validate_of_undated (r := freezingRecord r.atTime want) hr (h.valid _ ht) ht
  · refine validate_of_undated (r := { freezingRecord r.atTime want with previousSHA256 := env.recordDigest e }) hr ?_ ht
    have hvalid := h.valid _ ht
    simp only [validate, bind_ok, require_ok] at hvalid ⊢
    obtain ⟨_, hfields, _, hids, _, htext, _⟩ := hvalid
    refine ⟨(), hfields, (), hids, (), ?_, ?_⟩
    · simpa [freezingRecord] using htext
    · simp [env.recordDigest_isDigest]
  · refine validate_of_undated (r := { e with state := .freezing }) hr ?_ ht
    have hvalid := he.valid
    simp only [validate, bind_ok, require_ok, Bool.and_eq_true] at hvalid ⊢
    obtain ⟨_, hfields, _, hids, _, ⟨htext, _⟩, hdigest⟩ := hvalid
    exact ⟨(), hfields, (), hids, (), ⟨htext, by simp⟩, hdigest⟩

lemma Freezable.validate_planned (hr : Planned env want s r) : r.validate = .ok () := by
  obtain ⟨ht, hr | hr⟩ := hr
  · exact h.validate_plan hr ht
  · have hfirst : ({ plan env want s with atTime := r.atTime } : ArchiveProtectionRecord).validate = .ok () :=
      h.validate_plan undated_plan ht
    have hsame : undated { plan env want s with state := .archived, atTime := r.atTime } = sealed env want s := by
      rw [← undated_sealed]
      rfl
    exact validate_of_undated (hr.trans hsame.symm) (validate_archived hfirst) ht

lemma Freezable.planned_event (hr : Planned env want s r) :
    r.event = (want.epoch, .freezing) ∧ undated r = plan env want s ∨
      r.event = (want.epoch, .archived) ∧ undated r = sealed env want s := by
  obtain ⟨_, hr | hr⟩ := hr
  · exact .inl ⟨(event_of_undated (hr.trans undated_plan.symm)).trans h.start.plan_event, hr⟩
  · exact .inr ⟨(event_of_undated (hr.trans undated_sealed.symm)).trans h.start.sealed_event, hr⟩

lemma Freezable.planned_repo (hr : Planned env want s r) :
    r.repoID = env.repository ∧ s.uuid = r.repositoryUUID ∧ s.youngest = r.revision := by
  have hb := hr.binding h.start
  refine ⟨?_, h.uuid.trans (congrArg Binding.repositoryUUID hb).symm, h.youngest.trans (congrArg Binding.revision hb).symm⟩
  have hplan : (plan env want s).repoID = env.repository := by
    rcases h.start.plan_cases with hp | ⟨e, hp⟩ | ⟨e, he, _, hp⟩ <;> rw [hp]
    · exact h.repo
    · exact h.repo
    · exact he.repo
  rw [← hplan]
  obtain ⟨_, hr | hr⟩ := hr
  · have hid := congrArg repoID hr
    exact hid
  · have hid := congrArg repoID hr
    exact hid

end

lemma Planned.not_released (hr : Planned env want s r) : r.state ≠ .released := by
  obtain ⟨_, hr | hr⟩ := hr
  · have : r.state = .freezing := (congrArg state hr).trans plan_state
    rw [this]
    decide
  · have : r.state = .archived := congrArg state hr
    rw [this]
    decide

lemma planned_of_inForce (he : InForce env s e) (hstate : e.state ≠ .released) : Planned env want s e := by
  refine ⟨atTime_ne_zero he.valid, ?_⟩
  rw [sealed, plan_of_live he.policy hstate]
  cases e with
  | mk schema repoID uuid operationID epoch state revision reason previous time =>
    cases state with
    | freezing => exact .inl rfl
    | archived => exact .inr rfl
    | released => exact absurd rfl hstate

lemma Underway.event_of_some (hu : Underway env want s s') {key : ℕ × GuardState} (h : s.event key = some r) :
    s'.event key = some r := by
  rcases hu.event key with he | ⟨he, _⟩
  · rw [he, h]
  · rw [h] at he
    cases he

lemma Planned.record (hr : Planned env want s r) (hw : Writable s' r) : Planned env want s (s'.record r) := by
  refine ⟨?_, by rw [Repo.record, undated_dated]; exact hr.2⟩
  rw [Repo.record]
  cases hp : s'.event r.event with
  | none => exact hr.1
  | some p =>
    have hp' := atTime_ne_zero (hw.prior p hp).1
    exact hp'

lemma link_fields (s : Repo) (r : ArchiveProtectionRecord) : (s.link r).uuid = s.uuid ∧ (s.link r).youngest = s.youngest ∧
    (s.link r).locked = s.locked ∧ (s.link r).hooks = s.hooks := by
  rw [Repo.link]
  split <;> exact ⟨rfl, rfl, rfl, rfl⟩

lemma Underway.link (hu : Underway env want s s') (hr : Planned env want s r) (hnot : ¬ s.archived)
    (hw : Writable s' r) : Underway env want s (s'.link (s'.record r)) := by
  obtain ⟨huuid, hyoungest, hlocked, hhooks⟩ := link_fields s' (s'.record r)
  have hevent : ∀ key p, s'.event key = some p → (s'.link (s'.record r)).event key = some p := by
    intro key p hp
    rw [link_event hw.guarded, if_neg (fun h => by rw [hp] at h; cases h.2)]
    exact hp
  refine ⟨huuid.trans hu.uuid, hyoungest.trans hu.youngest, hlocked.trans hu.locked, ?_, ?_, ?_, ?_⟩
  · rw [hhooks]
    exact hu.hooks
  · rw [link_isSome]
    exact hu.guarded
  · intro key
    rw [link_event hw.guarded]
    split
    · rename_i hkey
      rcases hu.event key with he | ⟨_, _, _, he, _⟩
      · exact .inr ⟨he ▸ hkey.2, hnot, _, rfl, hkey.1, hr.record hw⟩
      · rw [hkey.2] at he
        cases he
    · exact hu.event key
  · rw [link_policy]
    rcases hu.policy with hp | ⟨hs, p, f, hp, hplanned, hpe, hf, hff⟩
    · exact .inl hp
    · exact .inr ⟨hs, p, f, hp, hplanned, hevent _ _ hpe, hevent _ _ hf, hff⟩

section

variable (hf : Freezable env want s) (hu : Underway env want s s')
include hf hu

lemma Underway.put (hr : Planned env want s r) (hnot : ¬ s.archived) (hw : Writable s' r)
    (hfirst : undated r = plan env want s ∨ ∃ f, s'.event (want.epoch, .freezing) = some f ∧ undated f = plan env want s) :
    Underway env want s ((s'.link (s'.record r)).putPolicy (s'.record r)) := by
  have hu' := hu.link hr hnot hw
  have hwritten := hw.record_written
  refine ⟨hu'.uuid, hu'.youngest, hu'.locked, hu'.hooks, ?_, ?_, .inr ⟨hnot, s'.record r, ?_⟩⟩
  · rw [putPolicy_isSome]
    exact hu'.guarded
  · simp only [putPolicy_event]
    exact hu'.event
  · have hput : ((s'.link (s'.record r)).putPolicy (s'.record r)).policy = some (s'.record r) :=
      putPolicy_policy (by rw [link_isSome]; exact hw.guarded)
    simp only [putPolicy_event, record_event]
    rcases hfirst with hfirst | ⟨f, hfe, hff⟩
    · refine ⟨s'.record r, hput, hr.record hw, hwritten, ?_, by rw [Repo.record, undated_dated, hfirst]⟩
      rw [← hf.start.plan_event, ← event_of_undated (hfirst.trans undated_plan.symm)]
      exact hwritten
    · refine ⟨f, hput, hr.record hw, hwritten, ?_, hff⟩
      rw [link_event hw.guarded, if_neg (fun h => by rw [hfe] at h; cases h.2)]
      exact hfe

lemma Underway.inForce (hp : s'.policy = some r) :
    InForce env s' r ∧ (s.policy = some r ∧ r.state = .released ∨ Planned env want s r ∧
      (s.archived ∨ ∃ f, s'.event (want.epoch, .freezing) = some f ∧ undated f = plan env want s)) := by
  rcases hu.policy with hsame | ⟨hnot, r', f, hp', hr, he, hfe, hff⟩
  · rw [hsame] at hp
    rcases hf.start with ⟨hg, _⟩ | ⟨e, he, hstart⟩
    · rw [Repo.policy, hg] at hp
      cases hp
    · obtain rfl := mem_unique he.policy hp
      refine ⟨⟨hsame.trans hp, hu.event_of_some he.event, he.valid, he.repo, hu.uuid.trans he.uuid⟩, ?_⟩
      rcases hstart with ⟨hreleased, _⟩ | ⟨hstate, hbinding⟩
      · exact .inl ⟨hp, hreleased⟩
      · have hplanned : Planned env want s e := planned_of_inForce he hstate
        refine .inr ⟨hplanned, ?_⟩
        rcases hf.planned_event hplanned with ⟨hev, hun⟩ | ⟨hev, _⟩
        · exact .inr ⟨e, by rw [← hev]; exact hu.event_of_some he.event, hun⟩
        · exact .inl ⟨e, hp, congrArg Prod.snd hev⟩
  · obtain rfl := mem_unique hp' hp
    obtain ⟨hrepo, huuid, _⟩ := hf.planned_repo hr
    exact ⟨⟨hp, he, hf.validate_planned hr, hrepo, hu.uuid.trans huuid⟩, .inr ⟨hr, .inr ⟨f, hfe, hff⟩⟩⟩

lemma Underway.writable (hr : Planned env want s r) (hnot : ¬ s.archived) (hg : s'.guard.isSome) : Writable s' r := by
  refine ⟨hf.validate_planned hr, hg, fun p hp => ?_⟩
  have hagree : p.validate = .ok () ∧ undated p = undated r := by
    rcases hu.event r.event with he | ⟨_, _, p', hp', hkey, hplanned⟩
    · rw [he] at hp
      rcases hf.planned_event hr with ⟨hkey, hun⟩ | ⟨hkey, hun⟩
      · rw [hkey] at hp
        rw [hun]
        exact hf.freezing hnot p hp
      · rw [hkey] at hp
        rw [hun]
        exact hf.archived p hp
    · obtain rfl := mem_unique hp' hp
      refine ⟨hf.validate_planned hplanned, ?_⟩
      rcases hf.planned_event hr with ⟨hk, hun⟩ | ⟨hk, hun⟩ <;> rcases hf.planned_event hplanned with ⟨hk', hun'⟩ | ⟨hk', hun'⟩
      · rw [hun, hun']
      · rw [hk, hk'] at hkey
        cases hkey
      · rw [hk, hk'] at hkey
        cases hkey
      · rw [hun, hun']
  exact ⟨hagree.1, eq_dated_iff.mpr hagree.2⟩

end

structure Entered (env : Env) (want : ArchiveProtectionRecord) (s : Repo) (r : ArchiveProtectionRecord) (s' : Repo) : Prop where
  underway : Underway env want s s'
  planned : Planned env want s r
  inForce : ∃ p, s'.policy = some p ∧ undated p = undated r ∧ s'.event p.event = some p
  archived : s.archived → r.state = .archived
  freezing : s.archived ∨ ∃ f, s'.event (want.epoch, .freezing) = some f ∧ undated f = plan env want s

lemma Repo.isSome_of_policy (h : s.policy = some r) : s.guard.isSome := by
  cases hg : s.guard with
  | none =>
    rw [Repo.policy, hg] at h
    cases h
  | some g => rfl

lemma Entered.isSome (h : Entered env want s r s') : s'.guard.isSome := by
  obtain ⟨p, hp, _⟩ := h.inForce
  exact Repo.isSome_of_policy hp

lemma Underway.entered (hf : Freezable env want s) (hu : Underway env want s s') (hr : Planned env want s r)
    (hnot : ¬ s.archived) (hw : Writable s' r)
    (hfirst : undated r = plan env want s ∨ ∃ f, s'.event (want.epoch, .freezing) = some f ∧ undated f = plan env want s) :
    Entered env want s r ((s'.link (s'.record r)).putPolicy (s'.record r)) := by
  have hput := hu.put hf hr hnot hw hfirst
  have hpolicy : ((s'.link (s'.record r)).putPolicy (s'.record r)).policy = some (s'.record r) :=
    putPolicy_policy (by rw [link_isSome]; exact hw.guarded)
  refine ⟨hput, hr, ⟨s'.record r, hpolicy, undated_dated, ?_⟩, fun h => absurd h hnot, ?_⟩
  · rw [putPolicy_event, record_event]
    exact hw.record_written
  · rcases hput.policy with hsame | ⟨_, _, f, _, _, _, hfe, hff⟩
    · rcases (hput.inForce hf hpolicy).2 with ⟨_, hreleased⟩ | ⟨_, hfound⟩
      · exact absurd hreleased (hr.record hw).not_released
      · exact hfound
    · exact .inr ⟨f, hfe, hff⟩

lemma Entered.frozen (hf : Freezable env want s) (h : Entered env want s r s') (hr : r.state = .archived)
    (hhooks : ∀ name, s'.hooks name = some (.symlink env.executable)) : Frozen env want s s' := by
  obtain ⟨p, hp, hpr, hpe⟩ := h.inForce
  have hsealed : r.event = (want.epoch, .archived) ∧ undated r = sealed env want s := by
    rcases hf.planned_event h.planned with ⟨hkey, _⟩ | hsealed
    · have := congrArg Prod.snd hkey
      rw [event, hr] at this
      cases this
    · exact hsealed
  have hkey : p.event = (want.epoch, .archived) := (event_of_undated hpr).trans hsealed.1
  refine ⟨h.underway.uuid, h.underway.youngest, h.underway.locked, hhooks, h.isSome, ?_, ?_, ?_, ?_⟩
  · rw [hp, map_some, hpr, hsealed.2]
  · rw [← hkey, hpe, map_some, hpr, hsealed.2]
  · intro hnot
    rcases h.freezing with ha | ⟨f, hfe, hff⟩
    · exact absurd ha hnot
    · rw [hfe, map_some, hff]
  · intro key hk hk'
    rcases h.underway.event key with he | ⟨_, hnot, r', _, hkr, hplanned⟩
    · exact he
    · rcases hf.planned_event hplanned with ⟨hev, _⟩ | ⟨hev, _⟩
      · exact absurd (hkr.trans hev) (hk'.resolve_left hnot)
      · exact absurd (hkr.trans hev) hk

lemma Entered.withHooks (h : Entered env want s r s') {hooks : HookName → Option Hook}
    (hh : ∀ name, hooks name = s'.hooks name ∨ (s'.hooks name = none ∧ hooks name = some (.symlink env.executable))) :
    Entered env want s r { s' with hooks := hooks } := by
  refine ⟨{ h.underway with hooks := fun name => ?_ }, h.planned, h.inForce, h.archived, h.freezing⟩
  change hooks name = _ ∨ _ ∧ hooks name = _
  rcases hh name with heq | ⟨hnone, heq⟩
  · rw [heq]
    exact h.underway.hooks name
  · rcases h.underway.hooks name with hsame | ⟨_, hsome⟩
    · exact .inr ⟨hsame ▸ hnone, heq⟩
    · rw [hnone] at hsome
      cases hsome

lemma planned_freezing (hpolicy : s.policy = none) (ht : now ≠ 0) : Planned env want s (freezingRecord now want) :=
  ⟨ht, .inl (plan_of_none hpolicy).symm⟩

lemma planned_refreeze (hpolicy : s.policy = some e) (he : e.state = .released) (ht : now ≠ 0) :
    Planned env want s { freezingRecord now want with previousSHA256 := env.recordDigest e } :=
  ⟨ht, .inl (plan_of_released hpolicy he).symm⟩

lemma not_archived_of_none (h : s.policy = none) : ¬ s.archived := by
  rintro ⟨e, he, _⟩
  rw [h] at he
  cases he

lemma not_archived_of_released (h : s.policy = some e) (he : e.state = .released) : ¬ s.archived := by
  rintro ⟨e', he', hstate⟩
  obtain rfl := mem_unique h he'
  rw [he] at hstate
  cases hstate

lemma Underway.directory (hu : Underway env want s s') (hg : s'.guard = none) :
    Underway env want s { s' with guard := some ⟨none, ∅⟩ } ∧ s.policy = none := by
  have hs : s.guard = none := by
    cases h : s.guard with
    | none => rfl
    | some g =>
      have := hu.guarded (by rw [h]; rfl)
      rw [hg] at this
      cases this
  have hpolicy : s.policy = none := policy_of_guard hs
  refine ⟨⟨hu.uuid, hu.youngest, hu.locked, hu.hooks, fun _ => rfl, fun key => .inl ?_, .inl ?_⟩, hpolicy⟩
  · rw [Repo.event, Repo.event, hs]
    exact lookup_empty key
  · rw [hpolicy]
    rfl

lemma Underway.lands (hf : Freezable env want s) (hu : Underway env want s s') (hr : Planned env want s r)
    (hfirst : undated r = plan env want s) (hnot : ¬ s.archived) : Lands (Underway env want s) (Entered env want s) s' r :=
  fun hw => ⟨hu.link hr hnot hw, hu.put hf hr hnot hw (.inl hfirst), hu.entered hf hr hnot hw (.inl hfirst)⟩

lemma ensures_enterFreezing (hf : Freezable env want s) (hu : Underway env want s s') (ht : now ≠ 0) :
    Ensures (· = s') (enterFreezing env (freezingRecord now want)) (Entered env want s) (Underway env want s) := by
  refine ensures_enterFreezing_of hu (fun hguard _ => ?_) (fun e he hreleased _ _ => ?_) (fun e he hreleased _ => ?_)
  · obtain ⟨hu', hpolicy⟩ := hu.directory hguard
    exact ⟨hu', hu'.lands hf (planned_freezing hpolicy ht) (plan_of_none hpolicy).symm (not_archived_of_none hpolicy)⟩
  · obtain ⟨_, ⟨hpolicy, _⟩ | ⟨hplanned, _⟩⟩ := hu.inForce hf he.policy
    · exact hu.lands hf (planned_refreeze hpolicy hreleased ht) (plan_of_released hpolicy hreleased).symm
        (not_archived_of_released hpolicy hreleased)
    · exact absurd hreleased hplanned.not_released
  · obtain ⟨_, ⟨_, hstate⟩ | ⟨hplanned, hfound⟩⟩ := hu.inForce hf he.policy
    · exact absurd hstate hreleased
    · refine ⟨hu, hplanned, ⟨e, he.policy, rfl, he.event⟩, ?_, hfound⟩
      rintro ⟨e', he', hstate⟩
      rcases hu.policy with hsame | ⟨hnot, _⟩
      · rw [← hsame, he.policy] at he'
        cases he'
        exact hstate
      · exact absurd ⟨e', he', hstate⟩ hnot

lemma Entered.putHook (h : Entered env want s r s') (hnone : s'.hooks name = none) :
    Entered env want s r (s'.putHook name (.symlink env.executable)) := by
  refine h.withHooks (fun n => ?_)
  split
  · subst n
    exact .inr ⟨hnone, rfl⟩
  · exact .inl rfl

lemma ensures_installHook {done : List HookName} :
    Ensures (fun x => Entered env want s r x ∧ ∀ n ∈ done, x.hooks n ≠ none) (installHook env name)
      (fun _ x => Entered env want s r x ∧ ∀ n ∈ done ++ [name], x.hooks n ≠ none) (Underway env want s) := by
  refine .seq (.command (fun x hx => hx.1.underway)) (.fix ?_)
  rintro s' ⟨hs, hdone⟩
  refine .read_at (.onlyIf_of (fun hnone => ?_) (fun hsome => ?_))
  · have hput := hs.putHook (isNone_iff_eq_none.mp hnone)
    refine .save_at hs.underway ⟨hput, fun n hn => ?_⟩ hput.underway
    simp only [Repo.putHook]
    split
    · simp
    · rcases mem_append.mp hn with hn | hn
      · exact hdone n hn
      · exact absurd (mem_singleton.mp hn) ‹_›
  · rintro _ rfl
    refine ⟨hs, fun n hn => ?_⟩
    rcases mem_append.mp hn with hn | hn
    · exact hdone n hn
    · rw [mem_singleton.mp hn]
      intro h
      rw [h] at hsome
      cases hsome

lemma Entered.planned_archived (hf : Freezable env want s) (he : Entered env want s r s')
    (hstate : r.state ≠ .archived) : Planned env want s { r with state := .archived } := by
  refine ⟨he.planned.1, .inr ?_⟩
  rcases hf.planned_event he.planned with ⟨_, hun⟩ | ⟨hkey, _⟩
  · rw [sealed, ← hun]
    rfl
  · exact absurd (congrArg Prod.snd hkey) hstate

lemma ensures_enterArchived (hf : Freezable env want s) (he : Entered env want s r s')
    (hhooks : ∀ name, s'.hooks name = some (.symlink env.executable)) :
    Ensures (· = s') (enterArchived r) (fun _ x => Frozen env want s x ∧ Underway env want s x)
      (Underway env want s) := by
  have hhere : ∀ x, x = s' → Underway env want s x := by
    rintro _ rfl
    exact he.underway
  refine .bind (ensures_checkSnapshot he.underway) (fun head => ?_)
  refine .pre (P := fun x => x = s') ?_ (fun _ hx => hx.1)
  refine .except hhere (fun _ _ => .onlyIf_of (fun hstate => ?_) (fun hstate => ?_))
  · have hstate : r.state ≠ .archived := of_decide_eq_true hstate
    have hnot : ¬ s.archived := fun h => hstate (he.archived h)
    obtain ⟨f, hfe, hff⟩ := he.freezing.resolve_left hnot
    have hplanned := he.planned_archived hf hstate
    refine ensures_writeArchiveProtection he.underway (fun hw => ?_)
    have hentered := he.underway.entered hf hplanned hnot hw (.inr ⟨f, hfe, hff⟩)
    refine ⟨he.underway.link hplanned hnot hw, hentered.underway, hentered.frozen hf rfl ?_, hentered.underway⟩
    intro name
    rw [← hhooks name, ← (link_fields s' (s'.record { r with state := .archived })).2.2.2]
    rfl
  · rintro _ rfl
    exact ⟨he.frozen hf (not_not.mp (of_decide_eq_false hstate)) hhooks, he.underway⟩

lemma ensures_freeze (hf : Freezable env want s) : Ensures (Underway env want s) (freeze env now want)
    (fun _ x => Frozen env want s x ∧ Underway env want s x) (Underway env want s) := by
  refine .fix (fun s' hu => ?_)
  refine ensures_freeze_of (E := Entered env want s) hu (fun _ _ hx => hx.underway) (fun _ _ hx => hx.2)
    (fun hvalid => ensures_enterFreezing hf hu (atTime_ne_zero hvalid)) (fun _ _ _ hx hnone => hx.putHook hnone)
    (fun r x _ _ _ _ _ _ hx hhooks => ensures_enterArchived hf hx (fun name => ?_))
  simpa using inspectArchiveHooks_ok.mp hhooks name

structure Began (env : Env) (want : ArchiveProtectionRecord) (s : Repo) (r : ArchiveProtectionRecord) (x : Repo) : Prop where
  start : Start env want s
  record : undated r = plan env want s ∨ undated r = sealed env want s ∧ s.archived
  freezing : ¬ s.archived → ∀ p, s.event (want.epoch, .freezing) = some p → p.validate = .ok () ∧ undated p = plan env want s
  archived : s.archived → ∀ p, s.event (want.epoch, .archived) = some p → p.validate = .ok () ∧ undated p = sealed env want s
  event : ∀ key, key ≠ (want.epoch, .freezing) → x.event key = s.event key
  locked : x.locked = s.locked

lemma began_of_write {x : Repo} (hstart : Start env want s) (hnot : ¬ s.archived)
    (hr : undated r = plan env want s) (hevent : ∀ key, x.event key = s.event key) (hlocked : x.locked = s.locked)
    (hw : Writable x r) : Began env want s r ((x.link (x.record r)).putPolicy (x.record r)) := by
  have hkey : r.event = (want.epoch, .freezing) := (event_of_undated (hr.trans undated_plan.symm)).trans hstart.plan_event
  refine ⟨hstart, .inl hr, fun _ p hp => ?_, fun h => absurd h hnot, fun key hk => ?_, ?_⟩
  · rw [← hkey, ← hevent] at hp
    obtain ⟨hvalid, hsame⟩ := hw.prior p hp
    exact ⟨hvalid, (eq_dated_iff.mp hsame).trans hr⟩
  · rw [putPolicy_event, link_event hw.guarded, record_event, if_neg (fun h => hk (h.1.trans hkey))]
    exact hevent key
  · exact (link_fields x (x.record r)).2.2.1.trans hlocked

lemma began_of_resume (he : InForce env s e) (hstate : e.state ≠ .released)
    (hbinding : e.binding = want.binding) : Began env want s e s := by
  have hepoch : e.epoch = want.epoch := congrArg Binding.epoch hbinding
  have hown : ∀ p, s.event (e.epoch, e.state) = some p → p.validate = .ok () ∧ undated p = undated e := by
    intro p hp
    obtain rfl := mem_unique he.event hp
    exact ⟨he.valid, rfl⟩
  have hrecord : undated e = plan env want s ∧ e.state = .freezing ∨ undated e = sealed env want s ∧ e.state = .archived := by
    have hplanned : Planned env want s e := planned_of_inForce he hstate
    rcases hplanned.2 with h | h
    · exact .inl ⟨h, (congrArg state h).trans plan_state⟩
    · exact .inr ⟨h, congrArg state h⟩
  rw [hepoch] at hown
  refine ⟨.inr ⟨e, he, .inr ⟨hstate, hbinding⟩⟩, ?_, fun hnot p hp => ?_, fun harchived p hp => ?_, fun _ _ => rfl, rfl⟩
  · rcases hrecord with ⟨h, _⟩ | ⟨h, ha⟩
    · exact .inl h
    · exact .inr ⟨h, e, he.policy, ha⟩
  · rcases hrecord with ⟨h, hf⟩ | ⟨_, ha⟩
    · rw [hf, h] at hown
      exact hown p hp
    · exact absurd ⟨e, he.policy, ha⟩ hnot
  · rcases hrecord with ⟨_, hf⟩ | ⟨h, ha⟩
    · obtain ⟨e', he', ha⟩ := harchived
      obtain rfl := mem_unique he.policy he'
      rw [hf] at ha
      cases ha
    · rw [ha, h] at hown
      exact hown p hp

lemma ensures_enterFreezing_began :
    Ensures (· = s) (enterFreezing env (freezingRecord now want)) (Began env want s) (fun _ => True) := by
  refine ensures_enterFreezing_of trivial (fun hguard hfirst => ⟨trivial, fun hw => ⟨trivial, trivial, ?_⟩⟩)
    (fun e he hreleased hnext hunused hw => ⟨trivial, trivial, ?_⟩)
    (fun e he hreleased hbinding => began_of_resume he hreleased hbinding)
  · have hpolicy := policy_of_guard hguard
    refine began_of_write (.inl ⟨hguard, hfirst⟩) (not_archived_of_none hpolicy) (plan_of_none hpolicy).symm (fun key => ?_)
      rfl hw
    rw [Repo.event, Repo.event, hguard]
    exact lookup_empty key
  · exact began_of_write (.inr ⟨e, he, .inl ⟨hreleased, hnext.1.1, hnext.1.2, hnext.2,
      (checkArchiveOperationReuse_ok.mp hunused).2⟩⟩) (not_archived_of_released he.policy hreleased)
      (plan_of_released he.policy hreleased).symm (fun _ => rfl) rfl hw

lemma ensures_enterArchived_began : Ensures (Began env want s r) (enterArchived r)
    (fun _ _ => s.locked = false ∧ Start env want s ∧
      (¬ s.archived → ∀ p, s.event (want.epoch, .freezing) = some p → p.validate = .ok () ∧ undated p = plan env want s) ∧
      ∀ p, s.event (want.epoch, .archived) = some p → p.validate = .ok () ∧ undated p = sealed env want s)
    (fun _ => True) := by
  refine .fix (fun x hx => ?_)
  refine .bind (ensures_checkSnapshot trivial) (fun head => ?_)
  refine .pre (P := fun y => y = x ∧ head = x) ?_ (fun _ hy => ⟨hy.1, hy.2.1⟩)
  refine .given ?_
  rintro rfl
  refine .checked (fun _ hlocked => ?_)
  have hunlocked : s.locked = false := by
    rw [require_ok, Bool.not_eq_true'] at hlocked
    rw [← hx.locked, hlocked]
  refine .onlyIf_of (fun hstate => ?_) (fun hstate => ?_)
  · have hstate : r.state ≠ .archived := of_decide_eq_true hstate
    have hplan : undated r = plan env want s := by
      rcases hx.record with h | ⟨h, _⟩
      · exact h
      · exact absurd (congrArg state h) hstate
    refine ensures_writeArchiveProtection trivial (fun hw => ⟨trivial, trivial, hunlocked, hx.start, hx.freezing, fun p hp => ?_⟩)
    have hkey : ({ r with state := .archived } : ArchiveProtectionRecord).event = (want.epoch, .archived) := by
      have := congrArg Prod.fst ((event_of_undated (hplan.trans undated_plan.symm)).trans hx.start.plan_event)
      exact congrArg (fun n => (n, GuardState.archived)) this
    rw [← hx.event _ (by simp), ← hkey] at hp
    obtain ⟨hvalid, hsame⟩ := hw.prior p hp
    refine ⟨hvalid, (eq_dated_iff.mp hsame).trans ?_⟩
    rw [sealed, ← hplan]
    rfl
  · have hstate : r.state = .archived := not_not.mp (of_decide_eq_false hstate)
    rintro _ rfl
    have harchived : s.archived := by
      rcases hx.record with h | ⟨_, h⟩
      · have := congrArg state h
        rw [plan_state] at this
        exact absurd (this.symm.trans hstate) (by decide)
      · exact h
    exact ⟨hunlocked, hx.start, hx.freezing, hx.archived harchived⟩

lemma freezingRecord_valid (h : (freezingRecord now want).validate = .ok ()) (t : Time) (ht : t ≠ 0) :
    (freezingRecord t want).validate = .ok () :=
  validate_of_undated (r := freezingRecord now want) rfl h ht

lemma ensures_freezable :
    Ensures (· = s) (freeze env now want) (fun _ _ => Freezable env want s) (fun _ => True) := by
  refine ensures_freeze_of (E := Began env want s) trivial (fun _ _ _ => trivial) (fun _ _ _ => trivial)
    (fun _ => ensures_enterFreezing_began)
    (fun _ _ _ hx _ => { hx with })
    (fun r x hlocks hvalid hcanonical hrepo hhooks hhead hx _ => ?_)
  refine ensures_enterArchived_began.conseq (by rintro _ rfl; exact hx) ?_
  rintro _ _ ⟨hunlocked, hstart, hfreezing, harchived⟩
  exact ⟨hlocks, hcanonical, freezingRecord_valid hvalid, hrepo, hhooks, hhead.1, hhead.2, hunlocked, hstart, hfreezing,
    harchived⟩

lemma completes_readProtection {existing : Option ArchiveProtectionRecord} (h : readArchiveProtection env s = .ok existing) :
    Completes Write.done (· = s) (readProtection env) (fun e x => e = existing ∧ x = s) := by
  refine .seq (.command rfl) (.read_at ?_)
  rw [h]
  exact .pure (fun _ hx => ⟨rfl, hx⟩)

lemma completes_inspectHooks {required : Bool} (h : inspectArchiveHooks env required s = .ok ()) :
    Completes Write.done (· = s) (inspectHooks env required) (fun _ x => x = s) := by
  refine .read_at ?_
  rw [h]
  exact .done

lemma completes_checkSnapshot {uuid message : Str} {revision : ℤ} (huuid : s.uuid = uuid) (hrevision : s.youngest = revision) :
    Completes Write.done (· = s) (checkSnapshot uuid revision message) (fun head x => head = s ∧ x = s) := by
  have hsnapshot : Completes Write.done (· = s) snapshot (fun head x => head = s ∧ x = s) :=
    .seq (.command rfl) (.read_at (.pure (fun _ hx => ⟨rfl, hx⟩)))
  refine .bind hsnapshot (fun head => .given ?_)
  rintro rfl
  refine .except (a := ()) ?_ (.pure (fun _ hx => ⟨rfl, hx⟩))
  rw [require_ok, huuid, hrevision]
  simp

lemma completes_paths (h : canonicalUUID env.repository = true) :
    Completes Write.done (· = s) (paths env) (fun _ x => x = s) :=
  .seq (.command rfl) (.ofExcept (a := ()) (require_ok.mpr h) (fun _ hx => hx))

lemma Underway.inspect (hf : Freezable env want s) (hu : Underway env want s s') : inspectArchiveHooks env false s' = .ok () := by
  refine inspectArchiveHooks_ok.mpr (fun name => ?_)
  rcases hu.hooks name with hsame | ⟨_, hsome⟩
  · rw [hsame]
    exact inspectArchiveHooks_ok.mp hf.hooks name
  · exact .inl hsome

lemma Underway.unused (hf : Freezable env want s) (hu : Underway env want s s')
    (h : ∀ key r, s.event key = some r → Unused want.operationID want.epoch key r) (key : ℕ × GuardState)
    (r : ArchiveProtectionRecord) (hr : s'.event key = some r) : Unused want.operationID want.epoch key r := by
  rcases hu.event key with he | ⟨_, _, r', hr', hkey, hplanned⟩
  · exact h key r (he ▸ hr)
  · obtain rfl := mem_unique hr' hr
    have hepoch : r'.epoch = want.epoch := congrArg Binding.epoch (hplanned.binding hf.start)
    exact ⟨hf.validate_planned hplanned, hkey, hepoch.le, fun hlt => absurd hlt (by omega)⟩

lemma completes_writeFirst (hf : Freezable env want s) (hu : Underway env want s s') (hr : Planned env want s r)
    (hnot : ¬ s.archived) (hg : s'.guard.isSome) :
    Completes Write.done (· = s') (do writeArchiveProtection r; pure r) (fun _ _ => True) :=
  .seq (completes_writeArchiveProtection (hu.writable hf hr hnot hg)) .any

def Repo.resumable (s : Repo) : Bool := s.guard.all (fun g => g.policy.isSome)

lemma Repo.resumable_iff : s.resumable = true ↔ s.guard = none ∨ ∃ r, s.policy = some r := by
  rw [Repo.resumable, Repo.policy]
  cases s.guard with
  | none => simp
  | some g => simp [isSome_iff_exists]

lemma completes_enterFreezing (hf : Freezable env want s) (hu : Underway env want s s') (hc : s'.resumable = true)
    (ht : now ≠ 0) : Completes Write.done (· = s') (enterFreezing env (freezingRecord now want)) (Entered env want s) := by
  refine .ensuring ?_ (ensures_enterFreezing hf hu ht)
  rcases Repo.resumable_iff.mp hc with hguard | ⟨e, hpolicy⟩
  · have hread : readArchiveProtection env s' = .ok none := readArchiveProtection_ok_none.mpr ⟨hf.canonical, hguard⟩
    obtain ⟨hu', hnone⟩ := hu.directory hguard
    refine .bind (completes_readProtection hread) (fun _ => .given ?_)
    rintro rfl
    have hfirst : want.epoch = 1 ∧ want.previousSHA256 = [] := by
      rcases hf.start with ⟨_, hfirst⟩ | ⟨e, he, _⟩
      · exact hfirst
      · have := he.policy
        rw [hnone] at this
        cases this
    refine .except (a := ()) ?_ ?_
    · rw [require_ok]
      simp [freezingRecord, hfirst]
    · refine .bind (Q := fun _ x => x = { s' with guard := some ⟨none, ∅⟩ }) (.save rfl ?_) (fun _ => ?_)
      · rintro _ rfl
        rfl
      · exact completes_writeFirst hf hu' (planned_freezing hnone ht) (not_archived_of_none hnone) rfl
  · obtain ⟨he, hcase⟩ := hu.inForce hf hpolicy
    have hread : readArchiveProtection env s' = .ok (some e) := readArchiveProtection_ok_some.mpr ⟨hf.canonical, he⟩
    refine .bind (completes_readProtection hread) (fun _ => .given ?_)
    rintro rfl
    rcases hcase with ⟨hsame, hreleased⟩ | ⟨hplanned, _⟩
    · simp only [if_pos hreleased]
      obtain ⟨hmax, hepoch, hoperation, hunused⟩ : e.epoch ≠ maxEpoch ∧ want.epoch = e.epoch + 1 ∧
          want.operationID ≠ e.operationID ∧ ∀ key r, s.event key = some r → Unused want.operationID want.epoch key r := by
        rcases hf.start with ⟨hg, _⟩ | ⟨e', he', hstart⟩
        · rw [Repo.policy, hg] at hsame
          cases hsame
        · obtain rfl := mem_unique he'.policy hsame
          rcases hstart with ⟨_, hstart⟩ | ⟨hstate, _⟩
          · exact hstart
          · exact absurd hreleased hstate
      refine .except (a := ()) ?_ (.read_at (.except (a := ()) ?_ ?_))
      · rw [require_ok]
        simp [freezingRecord, hmax, hepoch, hoperation]
      · have := hu.unused hf hunused
        exact checkArchiveOperationReuse_ok.mpr ⟨Repo.isSome_of_policy hpolicy, this⟩
      · refine .seq (.command rfl) ?_
        exact completes_writeFirst hf hu (planned_refreeze hsame hreleased ht) (not_archived_of_released hsame hreleased)
          (Repo.isSome_of_policy hpolicy)
    · simp only [if_neg hplanned.not_released]
      refine .except (a := ()) ?_ (.any)
      rw [require_ok, decide_eq_true_eq]
      exact hplanned.binding hf.start

lemma completes_installHook {P : Repo → Prop} : Completes Write.done P (installHook env name) (fun _ _ => True) := by
  refine .seq (.command rfl) (.fix (fun x _ => .read_at (.onlyIf ?_)))
  exact .save rfl (fun _ _ => trivial)

lemma completes_enterArchived (hf : Freezable env want s) (he : Entered env want s r s') :
    Completes Write.done (· = s') (enterArchived r) (fun _ _ => True) := by
  obtain ⟨_, huuid, hrevision⟩ := hf.planned_repo he.planned
  refine .bind (completes_checkSnapshot (he.underway.uuid.trans huuid) (he.underway.youngest.trans hrevision))
    (fun head => .given ?_)
  rintro rfl
  refine .except (a := ()) ?_ ?_
  · rw [require_ok, he.underway.locked, hf.unlocked]
    rfl
  · by_cases hstate : r.state = .archived
    · rw [onlyIf, if_neg (by simp [hstate])]
      exact .any
    · have hnot : ¬ s.archived := fun h => hstate (he.archived h)
      have hplanned : Planned env want s { r with state := .archived } := he.planned_archived hf hstate
      refine .onlyIf ?_
      exact (completes_writeArchiveProtection (he.underway.writable hf hplanned hnot he.isSome)).post
        (fun _ _ _ => trivial)

lemma completes_freeze (hf : Freezable env want s) (hu : Underway env want s s') (hc : s'.resumable = true) (ht : now ≠ 0) :
    Completes Write.done (· = s') (freeze env now want) (fun _ => Frozen env want s) := by
  have hensures : Ensures (· = s') (freeze env now want) (fun _ => Frozen env want s) (Underway env want s) :=
    (ensures_freeze hf).conseq (by rintro _ rfl; exact hu) (fun _ _ hx => hx.1)
  refine .ensuring ?_ hensures
  refine .except (a := ()) (require_ok.mpr hf.fileLocks) (.except (hf.valid now ht) ?_)
  refine .bind (.command rfl) (fun _ => .bind (completes_paths hf.canonical) (fun _ => ?_))
  refine .except (a := ()) ?_ (.bind (.command rfl) (fun _ => ?_))
  · rw [require_ok, decide_eq_true_eq]
    exact hf.repo
  refine .bind (completes_inspectHooks (hu.inspect hf)) (fun _ => completes_withBarrier ?_)
  refine .bind (.command rfl) (fun _ => ?_)
  refine .bind (completes_checkSnapshot (hu.uuid.trans hf.uuid) (hu.youngest.trans hf.youngest)) (fun _ => ?_)
  refine .pre (P := fun x => x = s') ?_ (fun _ hx => hx.2)
  refine .bind (completes_enterFreezing hf hu hc ht) (fun r => ?_)
  have hinstall : Completes Write.done (Entered env want s r) (each (installHook env) archiveGuardHooks)
      (fun _ x => Entered env want s r x ∧ ∀ n ∈ archiveGuardHooks, x.hooks n ≠ none) := by
    refine .pre (.each_done (J := fun done x => Entered env want s r x ∧ ∀ n ∈ done, x.hooks n ≠ none) ?_) ?_
    · exact fun done name rest _ => .ensuring completes_installHook ensures_installHook
    · exact fun x hx => ⟨hx, by simp⟩
  refine .seq hinstall (.seq (.command rfl) (.fix ?_))
  rintro x ⟨hx, hhooks⟩
  have hinspect : inspectArchiveHooks env true x = .ok () := by
    refine inspectArchiveHooks_ok.mpr (fun name => .inl ?_)
    have := hhooks name (mem_archiveGuardHooks name)
    rcases inspectArchiveHooks_ok.mp (hx.underway.inspect hf) name with h | ⟨h, _⟩
    · exact h
    · exact absurd h this
  refine .seq (completes_inspectHooks hinspect) (.seq (.command rfl) ?_)
  exact completes_enterArchived hf hx

def Produces (env : Env) (now : Time) (want : ArchiveProtectionRecord) (s s' : Repo) : Prop :=
  ∃ n, freeze env now want s (List.replicate n .done) = (.ok (), s', [])

def Interrupted (env : Env) (want : ArchiveProtectionRecord) : Repo → Repo → Prop :=
  Relation.ReflTransGen (fun s s' => ∃ now as, s' = (freeze env now want s as).2.1)

def Admitted (env : Env) (want : ArchiveProtectionRecord) (s : Repo) : Prop :=
  (∃ now as, (freeze env now want s as).1 = .ok ()) ∨
    ∃ now expected operationID reason as, (release env now expected operationID reason s as).1 = .ok ()

lemma Interrupted.underway (hf : Freezable env want s) (h : Interrupted env want s s') : Underway env want s s' := by
  induction h with
  | refl => exact Underway.refl
  | tail _ hstep ih =>
    obtain ⟨now, as, rfl⟩ := hstep
    exact ((ensures_freeze hf).post (fun _ _ hx => hx.2)).final ih as

lemma readArchiveProtection_of_not_resumable (h : s.resumable = false)
    (existing : Option ArchiveProtectionRecord) : readArchiveProtection env s ≠ .ok existing := by
  have hnot : ¬ (s.guard = none ∨ ∃ r, s.policy = some r) := by
    rw [← Repo.resumable_iff, h]
    decide
  intro hread
  cases existing with
  | none => exact hnot (.inl (readArchiveProtection_ok_none.mp hread).2)
  | some r => exact hnot (.inr ⟨r, (readArchiveProtection_ok_some.mp hread).2.policy⟩)

lemma Start.resumable (h : Start env want s) : s.resumable = true := by
  rw [Repo.resumable_iff]
  rcases h with ⟨hguard, _⟩ | ⟨e, he, _⟩
  · exact .inl hguard
  · exact .inr ⟨e, he.policy⟩

lemma ensures_release_refused (h : s.resumable = false) {expected : ArchiveProtectionRecord} {operationID reason : Str} :
    Ensures (· = s) (release env now expected operationID reason) (fun _ _ => False) (fun _ => True) := by
  have hany : ∀ x, x = s → True := fun _ _ => trivial
  refine .except hany (fun _ _ => .seq (ensures_paths trivial) (.given (fun _ => ?_)))
  refine .seq (.command hany) (ensures_withBarrier ?_ hany (fun _ _ _ => trivial))
  refine .seq (.command hany) ?_
  refine .bind (ensures_readProtection trivial) (fun existing => .given (fun hread => ?_))
  exact absurd hread (readArchiveProtection_of_not_resumable h existing)

lemma not_admitted (h : s.resumable = false) : ¬ Admitted env want s := by
  rintro (⟨now, as, hok⟩ | ⟨now, expected, operationID, reason, as, hok⟩)
  · have hf : Freezable env want s := ensures_freezable.of_run rfl (run_eq_of_result hok)
    rw [hf.start.resumable] at h
    cases h
  · exact (ensures_release_refused h).of_run rfl (run_eq_of_result hok)

lemma Completes.produces (h : Completes .done (· = s) (freeze env now want) (fun _ => Frozen env want s')) :
    ∃ x, Produces env now want s x ∧ Frozen env want s' x := by
  obtain ⟨k, _, x, hx, hrun⟩ := h s rfl
  exact ⟨x, ⟨k, hrun 0⟩, hx⟩

/-- An interrupted freeze can be resumed exactly when the directory of the guard is not there or has its policy. -/
theorem freeze_resumable_iff (env : Env) (want : ArchiveProtectionRecord) (t : Time) (s s₁ s' : Repo)
    (hcall : Produces env t want s s₁) (hcut : Interrupted env want s s') :
    ((∀ now, now ≠ 0 → ∃ s₂, Produces env now want s' s₂ ∧ SameButDates s₂ s₁) ↔ s'.resumable = true) ∧
      (Admitted env want s' ↔ s'.resumable = true) := by
  obtain ⟨n, hrun⟩ := hcall
  have hf : Freezable env want s := ensures_freezable.of_run rfl hrun
  have hfrozen : Frozen env want s s₁ := ((ensures_freeze hf).of_run Underway.refl hrun).1
  have hresumes : s'.resumable = true → ∀ now, now ≠ 0 → ∃ s₂, Produces env now want s' s₂ ∧ SameButDates s₂ s₁ := by
    intro hc now ht
    obtain ⟨s₂, hproduces, hs₂⟩ := Completes.produces (completes_freeze hf (hcut.underway hf) hc ht)
    exact ⟨s₂, hproduces, hs₂.sameButDates hfrozen⟩
  have hadmitted : (∀ now, now ≠ 0 → ∃ s₂, Produces env now want s' s₂ ∧ SameButDates s₂ s₁) → Admitted env want s' := by
    intro h
    obtain ⟨_, ⟨n, hn⟩, _⟩ := h 1 (by decide)
    exact .inl ⟨1, replicate n .done, by rw [hn]⟩
  have hneeded : Admitted env want s' → s'.resumable = true := by
    intro h
    cases hc : s'.resumable with
    | true => rfl
    | false => exact absurd h (not_admitted hc)
  exact ⟨⟨fun h => hneeded (hadmitted h), hresumes⟩, ⟨hneeded, fun hc => hadmitted (hresumes hc)⟩⟩

def sampleDigest (n : ℕ) : Str := List.replicate 63 '0' ++ [hexDigit (n % 16)]

lemma isDigest_sampleDigest (n : ℕ) : isDigest (sampleDigest n) = true := by
  have hall : ∀ k < 16, isDigest (replicate 63 '0' ++ [hexDigit k]) = true := by decide +kernel
  exact hall _ (Nat.mod_lt n (by decide))

def sampleRepository : Str := "11111111-1111-4111-8111-111111111111"

def sampleUUID : Str := "22222222-2222-4222-8222-222222222222"

def sampleOperation : Str := "33333333-3333-4333-8333-333333333333"

def sampleEnv : Env where
  fileLocksSupported := true
  repository := sampleRepository
  executable := "/usr/libexec/filees-worker"
  recordDigest r := sampleDigest r.epoch
  policyDigest p := sampleDigest p.epoch
  recordDigest_isDigest r := isDigest_sampleDigest r.epoch

def samplePlan : ArchiveProtectionRecord :=
  ⟨[], sampleRepository, sampleUUID, sampleOperation, 1, .freezing, 5, [], [], 0⟩

def ordinaryRepo : Repo := ⟨fun _ => none, none, sampleUUID, 5, false, []⟩

def cutAfter (n : ℕ) : Repo := (freeze sampleEnv 100 samplePlan ordinaryRepo (List.replicate n .done)).2.1

lemma cutAfter_interrupted (n : ℕ) : Interrupted sampleEnv samplePlan ordinaryRepo (cutAfter n) :=
  .single ⟨100, replicate n .done, rfl⟩

lemma sample_ends : ∃ s₁, Produces sampleEnv 100 samplePlan ordinaryRepo s₁ := by
  have hok : (freeze sampleEnv 100 samplePlan ordinaryRepo (replicate 30 .done)).1 = .ok () := by decide +kernel
  have hrest : (freeze sampleEnv 100 samplePlan ordinaryRepo (replicate 30 .done)).2.2 = [] := by decide +kernel
  exact ⟨_, 30, by rw [run_eq_of_result hok, hrest]⟩

/-- The process dies after the policy has been put in place. -/
theorem freeze_resumed_after_policy : (cutAfter 13).resumable = true ∧ (cutAfter 13).policy ≠ none ∧
    Admitted sampleEnv samplePlan (cutAfter 13) := by
  have hc : (cutAfter 13).resumable = true := by decide +kernel
  obtain ⟨s₁, hs₁⟩ := sample_ends
  exact ⟨hc, by decide +kernel, (freeze_resumable_iff sampleEnv samplePlan 100 ordinaryRepo s₁ (cutAfter 13) hs₁
    (cutAfter_interrupted 13)).2.mpr hc⟩

/-- The process dies after the directory has been created: neither the freeze nor a release gets past the reader again. -/
theorem directory_refuses_retry : (∃ s₁, Produces sampleEnv 100 samplePlan ordinaryRepo s₁) ∧
    Interrupted sampleEnv samplePlan ordinaryRepo (cutAfter 9) ∧ (cutAfter 9).guard.isSome ∧
    ¬ Admitted sampleEnv samplePlan (cutAfter 9) :=
  ⟨sample_ends, cutAfter_interrupted 9, by decide +kernel, not_admitted (by decide +kernel)⟩

end FileES.Archive
