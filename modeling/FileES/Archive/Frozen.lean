import FileES.Archive.Archived
import FileES.Archive.Resume

/-! After a freeze has been acknowledged, writes are refused until a release has replaced the guard, and from then on the
fence is held until that release lifts it. -/

namespace FileES.Archive

open Go Lib.Durable Lib.Effects Lib.Fallible Lib.Runs ArchiveAdmissionBinding List Option

variable {env : Env} {s s₀ : Host} {now : Time} {p : RepositoryArchivePolicy} {g : ArchiveProtectionRecord} {b : Binding}

variable (p : RepositoryArchivePolicy)

def Pending (r : RepositoryRecord) : Prop :=
  r.archivePolicy = some p ∨ ∃ q, r.archivePolicy = some q ∧ q.state = .releasing ∧ q.epoch = p.epoch + 1

def Passing (b : Binding) (r : RepositoryRecord) : Prop :=
  Pending p r ∨ ∃ q, r.archivePolicy = some q ∧ q.state = .released ∧ q.binding = b

def FenceFor (b : Binding) (s : Host) : Prop := ∃ r, s.fence = some r ∧ r.binding = b ∧ r.state = .held

structure StillFrozen (g : ArchiveProtectionRecord) (s : Host) : Prop where
  chain : Chain s.repo
  guard : s.repo.policy = some g
  wc : Pending p s.wc.record
  committed : Pending p s.committed.record

structure Releasing (env : Env) (p : RepositoryArchivePolicy) (g : ArchiveProtectionRecord) (b : Binding) (s : Host) : Prop where
  chain : Chain s.repo
  fence : FenceFor b s
  epoch : b.epoch = p.epoch + 1
  guard : ∃ g', s.repo.policy = some g' ∧ ReleaseOf env g b.operationID g'
  wc : Passing p b s.wc.record
  committed : Passing p b s.committed.record

def Completed (env : Env) (p : RepositoryArchivePolicy) (g : ArchiveProtectionRecord) (s : Host) : Prop :=
  ∃ r g' q, s.fence = some r ∧ r.state = .opened ∧ r.epoch = p.epoch + 1 ∧
    s.repo.policy = some g' ∧ ReleaseOf env g r.operationID g' ∧ g'.binding = r.binding ∧
    s.committed.record.archivePolicy = some q ∧ q.state = .released ∧ q.binding = r.binding

def Watched (env : Env) (p : RepositoryArchivePolicy) (g : ArchiveProtectionRecord) (s : Host) : Prop :=
  StillFrozen p g s ∨ (∃ b, Releasing env p g b s) ∨ Completed env p g s

variable {p}

variable {repo : Str} {plan : PolicyCore} {record : RepositoryRecord}

lemma Holds.same (h : Holds now repo plan s₀ s) :
    FenceFor plan.binding s ∧ s.repo = s₀.repo ∧ s.wc = s₀.wc ∧ s.committed = s₀.committed := by
  rcases h with ⟨rfl, r, hr, hstate, hmatch⟩ | ⟨_, rfl⟩
  · exact ⟨⟨r, hr, (isFor_iff.mp hmatch).2, hstate⟩, rfl, rfl, rfl⟩
  · exact ⟨⟨_, rfl, rfl, rfl⟩, rfl, rfl, rfl⟩

lemma Holds.binding (h : Holds now repo plan s₀ s) (hf : FenceFor b s₀) : s = s₀ ∧ plan.binding = b := by
  obtain ⟨r₀, hr₀, hb, hheld⟩ := hf
  rcases h with ⟨rfl, r, hr, _, hmatch⟩ | ⟨hopen, _⟩
  · obtain rfl := mem_unique hr hr₀
    exact ⟨rfl, (isFor_iff.mp hmatch).2.symm.trans hb⟩
  · have := hopen r₀ hr₀
    rw [hheld] at this
    cases this

lemma StillFrozen.publishes (h : StillFrozen p g s₀) (hrecord : Pending p record) (hp : Publishes record s₀ s) :
    StillFrozen p g s := by
  refine ⟨by rw [hp.repo]; exact h.chain, by rw [hp.repo]; exact h.guard, ?_, ?_⟩
  · rcases hp.wc with hw | hw <;> rw [hw]
    · exact h.wc
    · exact hrecord
  · rcases hp.committed with hc | hc <;> rw [hc]
    · exact h.committed
    · exact hrecord

lemma Releasing.publishes (h : Releasing env p g b s₀) (hrecord : Passing p b record)
    (hp : Publishes record s₀ s) : Releasing env p g b s := by
  refine ⟨by rw [hp.repo]; exact h.chain, by rw [FenceFor, hp.fence]; exact h.fence, h.epoch, by rw [hp.repo]; exact h.guard, ?_, ?_⟩
  · rcases hp.wc with hw | hw <;> rw [hw]
    · exact h.wc
    · exact hrecord
  · rcases hp.committed with hc | hc <;> rw [hc]
    · exact h.committed
    · exact hrecord

lemma archived_eta (h : p.state = .archived) : { p with state := .archived } = p := by rw [← h]

variable {req : FreezeRequest} {want : RepositoryArchivePolicy} {actor : Str} {t : Repo}

section

variable (hp : p.state = .archived)
include hp

lemma freezePlan_frozen (hrecord : Pending p record) (h : freezePlan now req record = .ok want) : want = p := by
  rcases freezePlan_ok h with hnone | ⟨q, hq, hreleased, _⟩ | ⟨hq, _, hreleasing⟩
  · rcases hrecord with hr | ⟨q, hr, _⟩ <;> rw [hnone] at hr <;> cases hr
  · rcases hrecord with hr | ⟨q', hr, hstate, _⟩ <;> obtain rfl := mem_unique hq hr
    · rw [hp] at hreleased
      cases hreleased
    · rw [hstate] at hreleased
      cases hreleased
  · rcases hrecord with hr | ⟨q', hr, hstate, _⟩ <;> obtain rfl := mem_unique hq hr
    · rfl
    · exact absurd hstate hreleasing

lemma ensures_freezeArchive_frozen (hg : g.state = .archived) :
    Ensures (StillFrozen p g) (freezeArchive env now req) (fun _ => StillFrozen p g) (StillFrozen p g) := by
  refine .fix (fun s₀ h => ensures_freezeArchive h (fun _ _ hs => hs) (fun want hwant => ?_))
  obtain rfl := freezePlan_frozen hp h.wc hwant
  refine ensures_freezeCutOver (H := StillFrozen want g) (G := fun _ _ => StillFrozen want g) (Q := fun _ _ => StillFrozen want g) h
    ?_ ?_ ?_ ?_ ?_ ?_
  · intro _ s hs
    obtain ⟨_, hrepo, hwc, hcommitted⟩ := hs.same
    exact ⟨by rw [hrepo]; exact h.chain, by rw [hrepo]; exact h.guard, by rw [hwc]; exact h.wc, by rw [hcommitted]; exact h.committed⟩
  · exact fun s hs => ⟨hs.chain, hs⟩
  · exact fun _ s s' hs hpub => hs.publishes (.inl rfl) hpub
  · exact fun s t hs ht => ⟨ht.chain, ht.archived g hs.guard hg, hs.wc, hs.committed⟩
  · intro s s' runtime next waiting hs _ _ _ hreached hpub
    rcases reached_ok hreached with ⟨_, hstate, _⟩ | ⟨_, _, rfl⟩
    · exact absurd hp hstate
    · rw [archived_eta hp] at hpub
      exact ⟨hs.publishes (.inl rfl) hpub, fun _ _ => hs.publishes (.inl rfl) hpub⟩
  · intro s s' next waiting hs
    refine ⟨hs, ?_⟩
    rintro ⟨_, _, _, _, rfl, _, _⟩
    exact ⟨{ hs with }, { hs with }⟩

lemma freezePlan_releasing (hb : b.epoch = p.epoch + 1)
    (hrecord : Passing p b record) (h : freezePlan now req record = .ok want) : want.binding ≠ b := by
  intro hwant
  have hepoch : want.epoch = b.epoch := congrArg Binding.epoch hwant
  rcases hrecord with hpending | ⟨q, hq, hreleased, hqb⟩
  · rw [freezePlan_frozen hp hpending h] at hepoch
    omega
  · have hqe : q.epoch = b.epoch := congrArg Binding.epoch hqb
    rcases freezePlan_ok h with hnone | ⟨q', hq', _, hnext⟩ | ⟨hq', hnot, _⟩
    · rw [hnone] at hq
      cases hq
    · obtain rfl := mem_unique hq hq'
      omega
    · obtain rfl := mem_unique hq hq'
      exact hnot hreleased

lemma ensures_freezeArchive_releasing :
    Ensures (Releasing env p g b) (freezeArchive env now req) (fun _ => Releasing env p g b) (Releasing env p g b) := by
  refine .fix (fun s₀ h => ensures_freezeArchive h (fun _ _ hs => hs) (fun want hwant => ?_))
  have hother := freezePlan_releasing hp h.epoch h.wc hwant
  exact ensures_freezeCutOver (H := fun _ => False) (G := fun _ _ _ => False) (Q := fun _ _ => Releasing env p g b) h
    (fun _ _ hs => hother (hs.binding h.fence).2) (fun _ hs => hs.elim) (fun _ _ _ hs => hs.elim) (fun _ _ hs => hs.elim)
    (fun _ _ _ _ _ hs => hs.elim) (fun _ _ _ _ hs => hs.elim)

lemma releasePlan_follows {req : ArchiveReleaseRequest} {current : RepositoryArchivePolicy}
    {runtime : ArchiveProtectionRecord} (h : StillFrozen p g s₀ ∨ ∃ b, Releasing env p g b s₀)
    (hcurrent : s₀.wc.record.archivePolicy = some current) (hforce : InForce env s₀.repo runtime)
    (hwant : releasePlan env now actor req s₀.wc current runtime = .ok want) :
    want.epoch = p.epoch + 1 ∧ (current.state = .archived → want.state = .releasing) := by
  have hpending : Pending p s₀.wc.record → (current = p ∧ current.state = .archived) ∨
      (current.state = .releasing ∧ current.epoch = p.epoch + 1) := by
    rintro (hr | ⟨q, hr, hstate, hepoch⟩) <;> obtain rfl := mem_unique hcurrent hr
    · exact .inl ⟨rfl, hp⟩
    · exact .inr ⟨hstate, hepoch⟩
  rcases (releasePlan_ok hwant).2 with ⟨harchived, hruntime, hepoch, hreleasing⟩ | ⟨rfl, hstate⟩
  · refine ⟨?_, fun _ => hreleasing⟩
    rcases h with h | ⟨b, h⟩
    · rcases hpending h.wc with ⟨rfl, _⟩ | ⟨hc, _⟩
      · exact hepoch
      · rw [harchived] at hc
        cases hc
    · -- the guard of a release under way is not archived
      obtain ⟨g', hg', hrelease⟩ := h.guard
      obtain rfl := mem_unique hforce.policy hg'
      rw [hrelease.state] at hruntime
      cases hruntime
  · have hnot : want.state ≠ .archived := by
      intro ha
      rcases hstate with hs | hs <;> rw [ha] at hs <;> cases hs
    refine ⟨?_, fun ha => absurd ha hnot⟩
    rcases h with h | ⟨b, h⟩
    · rcases hpending h.wc with ⟨_, ha⟩ | ⟨_, hepoch⟩
      · exact absurd ha hnot
      · exact hepoch
    · rcases h.wc with hw | ⟨q, hq, _, hqb⟩
      · rcases hpending hw with ⟨_, ha⟩ | ⟨_, hepoch⟩
        · exact absurd ha hnot
        · exact hepoch
      · obtain rfl := mem_unique hcurrent hq
        exact (congrArg Binding.epoch hqb).trans h.epoch

end

def Cutting (env : Env) (p : RepositoryArchivePolicy) (g : ArchiveProtectionRecord) (b : Binding) (s : Host) : Prop :=
  (StillFrozen p g s ∧ FenceFor b s) ∨ Releasing env p g b s

lemma Cutting.chain (h : Cutting env p g b s) : Chain s.repo := by
  rcases h with ⟨h, _⟩ | h
  · exact h.chain
  · exact h.chain

lemma Cutting.watched (h : Cutting env p g b s) : Watched env p g s := by
  rcases h with ⟨h, _⟩ | h
  · exact .inl h
  · exact .inr (.inl ⟨b, h⟩)

lemma Cutting.publishes (h : Cutting env p g b s₀) (hrecord : Pending p record) (hp : Publishes record s₀ s) :
    Cutting env p g b s := by
  rcases h with ⟨h, hf⟩ | h
  · exact .inl ⟨h.publishes hrecord hp, by rw [FenceFor, hp.fence]; exact hf⟩
  · exact .inr (h.publishes (.inl hrecord) hp)

lemma Cutting.releases {expected : ArchiveProtectionRecord} (hb : b.epoch = p.epoch + 1) (h : Cutting env p g b s)
    (ht : ReleaseKeeps env expected b.operationID s.repo t) : Cutting env p g b (s.setRepo t) := by
  rcases h with ⟨h, hf⟩ | h
  · rcases ht.policy with hsame | ⟨_, hexpected, g', hg', hrelease⟩
    · exact .inl ⟨⟨ht.chain, hsame.trans h.guard, h.wc, h.committed⟩, hf⟩
    · obtain rfl := mem_unique h.guard hexpected
      exact .inr ⟨ht.chain, hf, hb, ⟨g', hg', hrelease⟩, .inl h.wc, .inl h.committed⟩
  · obtain ⟨g', hg', hrelease⟩ := h.guard
    rcases ht.policy with hsame | ⟨hstate, hexpected, _⟩
    · exact .inr ⟨ht.chain, h.fence, hb, ⟨g', hsame.trans hg', hrelease⟩, h.wc, h.committed⟩
    · obtain rfl := mem_unique hg' hexpected
      exact absurd hrelease.state hstate

lemma Cutting.verified {got : ArchiveProtectionRecord} (hg : g.state = .archived) (h : Cutting env p g b s)
    (hforce : InForce env s.repo got) (hstate : got.state = .released) : Releasing env p g b s := by
  rcases h with ⟨h, _⟩ | h
  · obtain rfl := mem_unique hforce.policy h.guard
    rw [hg] at hstate
    cases hstate
  · exact h

lemma ensures_releaseArchive_watched {confirmed : Str} {req : ArchiveReleaseRequest}
    (hp : p.state = .archived) (hg : g.state = .archived) :
    Ensures (fun s => StillFrozen p g s ∨ ∃ b, Releasing env p g b s) (releaseArchive env now actor confirmed req)
      (fun _ => Watched env p g) (Watched env p g) := by
  refine .fix (fun s₀ h => ?_)
  have hstart : Watched env p g s₀ := h.elim .inl (fun hr => .inr (.inl hr))
  refine ensures_releaseArchive hstart (fun _ hs => hs) hstart (fun current want runtime audit hpolicy hforce hwant _ _ => ?_)
  obtain ⟨hepoch, hreleasing⟩ := releasePlan_follows hp h hpolicy hforce hwant
  have hop : want.binding.operationID = req.operationID := (releasePlan_ok hwant).1
  refine ensures_releaseCutOver (H := Cutting env p g want.binding)
    (G := fun s => Releasing env p g want.binding s ∧ (∃ g', s.repo.policy = some g' ∧ g'.binding = want.binding) ∧
      s.committed.record.archivePolicy = some { want with state := .released }) hstart ?_ ?_ ?_ ?_ ?_ ?_
  · intro _ s hs
    rcases h with h | ⟨b, h⟩
    · obtain ⟨hfence, hrepo, hwc, hcommitted⟩ := hs.same
      exact .inl ⟨⟨by rw [hrepo]; exact h.chain, by rw [hrepo]; exact h.guard, by rw [hwc]; exact h.wc,
        by rw [hcommitted]; exact h.committed⟩, hfence⟩
    · obtain ⟨rfl, hb⟩ := hs.binding h.fence
      have hb : want.binding = b := hb
      rw [hb]
      exact .inr h
  · exact fun s hs => ⟨hs.chain, hs.watched⟩
  · exact fun harchived s s' hs hpub => hs.publishes (.inr ⟨want, rfl, hreleasing harchived, hepoch⟩) hpub
  · intro s t hs ht
    rw [← hop] at ht
    exact hs.releases hepoch ht
  · intro s s' got hs hgot hmatch hpub
    obtain ⟨hstate, hbinding⟩ := releasedRuntimeMatches_ok hmatch
    have hnext := (hs.verified hg hgot hstate).publishes (.inr ⟨{ want with state := .released }, rfl, rfl, rfl⟩) hpub
    refine ⟨.inr (.inl ⟨_, hnext⟩), fun _ hcommitted => ⟨hnext, ⟨got, ?_, hbinding⟩, by rw [hcommitted]⟩⟩
    rw [hpub.repo]
    exact hgot.policy
  · rintro s s' ⟨hs, ⟨g', hg', hbinding⟩, hcommitted⟩
    refine ⟨.inr (.inl ⟨_, hs⟩), ?_⟩
    rintro ⟨r, r', hr, hmatch, rfl, hb, hopened⟩
    have hrb : r'.binding = want.binding := hb.trans (isFor_iff.mp hmatch).2
    obtain ⟨g'', hg'', hrelease⟩ := hs.guard
    obtain rfl := mem_unique hg' hg''
    have hrop : r'.operationID = want.binding.operationID := congrArg Binding.operationID hrb
    have hdone : Completed env p g (s.putFence r') := by
      refine ⟨r', g', _, rfl, hopened, (congrArg Binding.epoch hrb).trans hepoch, hg', ?_, hbinding.trans hrb.symm, hcommitted, rfl,
        hrb.symm⟩
      rw [hrop]
      exact hrelease
    exact ⟨.inr (.inr hdone), .inr (.inr hdone)⟩

inductive Event
  | freeze (now : Time) (req : FreezeRequest) (script : List Write)
  | release (now : Time) (actor confirmed : Str) (req : ArchiveReleaseRequest) (script : List Write)
  | reconcile
  | world (hooks : HookName → Option Hook) (uuid : Str) (youngest : ℤ) (locked : Bool)

def Repo.replace (r : Repo) (hooks : HookName → Option Hook) (uuid : Str) (youngest : ℤ) (locked : Bool) : Repo :=
  ⟨hooks, r.guard, uuid, youngest, locked, r.history⟩

def step (env : Env) (s : Host) : Event → Host
  | .freeze now req script => (freezeArchive env now req s script).2.1
  | .release now actor confirmed req script => (releaseArchive env now actor confirmed req s script).2.1
  | .reconcile => { s with wc := s.committed }
  | .world hooks uuid youngest locked => s.setRepo (s.repo.replace hooks uuid youngest locked)

structure Fresh (s : Host) : Prop where
  guard : s.repo.guard = none
  history : s.repo.history = []
  fence : s.fence = none
  accepted : s.accepted = []
  wc : s.wc.record.archivePolicy = none
  committed : s.committed.record.archivePolicy = none

lemma Fresh.inv (h : Fresh s) : Inv s := by
  have hpolicy : s.repo.policy = none := by rw [Repo.policy, h.guard]; rfl
  refine ⟨⟨by rw [h.history]; exact .nil, by rw [h.history, hpolicy]; rfl⟩, fun _ => ⟨h.accepted, h.wc, h.committed⟩, ?_, ?_⟩
  · intro r hr
    rw [h.fence] at hr
    cases hr
  · intro r hr
    rw [h.fence] at hr
    cases hr

lemma Inv.step (h : Inv s) (e : Event) : Inv (step env s e) := by
  cases e with
  | freeze now req script => exact (ensures_freezeArchive_inv.post (fun _ _ hs => hs.1)).final h script
  | release now actor confirmed req script => exact ensures_releaseArchive_inv.final h script
  | reconcile =>
    refine ⟨h.chain, fun hf => ⟨(h.idle hf).1, (h.idle hf).2.2, (h.idle hf).2.2⟩, fun r hr => ?_, fun r hr ho => ?_⟩
    · exact { h.ledger r hr with }
    · obtain ⟨p, hp, hs⟩ := h.standing r hr ho
      exact ⟨p, hp, hs.committed, hs.committed, hs.guard⟩
  | world hooks uuid youngest locked =>
    refine ⟨⟨h.chain.later, h.chain.last⟩, h.idle, fun r hr => ?_, fun r hr ho => ?_⟩
    · exact { h.ledger r hr with }
    · obtain ⟨p, hp, hs⟩ := h.standing r hr ho
      exact ⟨p, hp, hs.wc, hs.committed, hs.guard⟩

section

variable (hp : p.state = .archived) (hg : g.state = .archived)
include hp hg

lemma StillFrozen.step (h : StillFrozen p g s) (e : Event) : Watched env p g (step env s e) := by
  cases e with
  | freeze now req script => exact .inl ((ensures_freezeArchive_frozen hp hg).final h script)
  | release now actor confirmed req script => exact (ensures_releaseArchive_watched hp hg).final (.inl h) script
  | reconcile => exact .inl ⟨h.chain, h.guard, h.committed, h.committed⟩
  | world hooks uuid youngest locked => exact .inl ⟨⟨h.chain.later, h.chain.last⟩, h.guard, h.wc, h.committed⟩

lemma Releasing.step (h : Releasing env p g b s) (e : Event) : Watched env p g (step env s e) := by
  cases e with
  | freeze now req script => exact .inr (.inl ⟨b, (ensures_freezeArchive_releasing hp).final h script⟩)
  | release now actor confirmed req script => exact (ensures_releaseArchive_watched hp hg).final (.inr ⟨b, h⟩) script
  | reconcile => exact .inr (.inl ⟨b, h.chain, h.fence, h.epoch, h.guard, h.committed, h.committed⟩)
  | world hooks uuid youngest locked =>
    exact .inr (.inl ⟨b, ⟨h.chain.later, h.chain.last⟩, h.fence, h.epoch, h.guard, h.wc, h.committed⟩)

lemma phase_along (h : StillFrozen p g s)
    {es : List Event} (hes : Along (step env) (fun t => ¬ Completed env p g t) s es) :
    StillFrozen p g (run (step env) s es) ∨ ∃ b, Releasing env p g b (run (step env) s es) := by
  have hgen : ∀ (es : List Event) (s : Host), (StillFrozen p g s ∨ ∃ b, Releasing env p g b s) →
      Along (step env) (fun t => ¬ Completed env p g t) s es →
      StillFrozen p g (run (step env) s es) ∨ ∃ b, Releasing env p g b (run (step env) s es) := by
    intro es
    induction es with
    | nil => exact fun s hs _ => hs
    | cons e es ih =>
      intro s hs hes
      obtain ⟨_, hrest⟩ := (along_cons (step env) _ s e es).mp hes
      have hnext : Watched env p g (FileES.Archive.step env s e) := by
        rcases hs with hs | ⟨b, hs⟩
        · exact hs.step hp hg e
        · exact hs.step hp hg e
      refine ih _ ?_ hrest
      rcases hnext with hn | hn | hn
      · exact .inl hn
      · exact .inr hn
      · exact absurd hn (hrest [] List.nil_prefix)
  exact hgen es s (.inl h) hes

end

structure UnderRelease (env : Env) (p : RepositoryArchivePolicy) (g : ArchiveProtectionRecord) (s : Host) : Prop where
  held : fenceHeld s = true
  release : ∃ r g', s.fence = some r ∧ r.state = .held ∧ r.epoch = p.epoch + 1 ∧ s.repo.policy = some g' ∧
    ReleaseOf env g r.operationID g'

lemma Releasing.underRelease (h : Releasing env p g b s) : UnderRelease env p g s := by
  obtain ⟨r, hr, hb, hstate⟩ := h.fence
  obtain ⟨g', hg', hrelease⟩ := h.guard
  refine ⟨?_, r, g', hr, hstate, (congrArg Binding.epoch hb).trans h.epoch, hg', ?_⟩
  · rw [fenceHeld]
    cases hread : readFence s with
    | error e => rfl
    | ok f =>
      have hf := readFence_ok hread
      rw [hr] at hf
      subst hf
      simp [hstate]
  · have hop : r.operationID = b.operationID := congrArg Binding.operationID hb
    rw [hop]
    exact hrelease

lemma checkArchiveWrite_ok {r : ArchiveProtectionRecord} (h : checkArchiveWrite env t = .ok ())
    (hr : t.policy = some r) : r.state = .released := by
  rw [checkArchiveWrite] at h
  cases hguard : t.guard with
  | none =>
    rw [Repo.policy, hguard] at hr
    cases hr
  | some G =>
    rw [hguard] at h
    obtain ⟨got, hgot, h⟩ := bind_ok.mp h
    cases hread : readArchiveProtection env t with
    | error e =>
      rw [hread] at hgot
      cases hgot
    | ok x =>
      rw [hread] at hgot
      obtain rfl : x = got := Except.ok.inj hgot
      cases x with
      | none =>
        rw [require_ok] at h
        cases h
      | some r' =>
        have hr' := (readArchiveProtection_ok_some.mp hread).2.policy
        obtain rfl := mem_unique hr' hr
        simpa [require_ok] using h

lemma checkCanonicalRepositoryWrite_ok {c : Canonical} {q : RepositoryArchivePolicy}
    (h : checkCanonicalRepositoryWrite env c = .ok ()) (hq : c.record.archivePolicy = some q) : q.state = .released := by
  obtain ⟨_, _, _, _, h⟩ := bind₂_ok.mp h
  simpa [require_ok, RepositoryRecord.archiveProtected, hq] using h

lemma StillFrozen.refuses (hp : p.state = .archived) (hg : g.state = .archived) (h : StillFrozen p g s) :
    checkArchiveWrite env s.repo ≠ .ok () ∧ checkCanonicalRepositoryWrite env s.wc ≠ .ok () := by
  refine ⟨fun hok => ?_, fun hok => ?_⟩
  · have := checkArchiveWrite_ok hok h.guard
    rw [hg] at this
    cases this
  · rcases h.wc with hq | ⟨q, hq, hstate, _⟩
    · have := checkCanonicalRepositoryWrite_ok hok hq
      rw [hp] at this
      cases this
    · have := checkCanonicalRepositoryWrite_ok hok hq
      rw [hstate] at this
      cases this

lemma Standing.stillFrozen (h : Inv s) (hs : Standing p s) (hp : p.state = .archived) :
    ∃ g, g.state = .archived ∧ g.binding = p.binding ∧ StillFrozen p g s := by
  obtain ⟨g, hg, _, hbinding, hagrees⟩ := hs.guard
  rw [hp] at hagrees
  exact ⟨g, hagrees, hbinding, h.chain, hg, .inl hs.wc, .inl hs.committed⟩

/-- Guard records follow each other, operations keep their binding, fences stand over their own transition; from an
acknowledged freeze to its release, writes pass only behind that release's fence. -/
theorem archived_until_released (env : Env) (s₀ : Host) (hfresh : Fresh s₀) (es : List Event) :
    (run (step env) s₀ es).repo.history.Pairwise Later ∧
    (∀ b ∈ (run (step env) s₀ es).accepted, ∀ b' ∈ (run (step env) s₀ es).accepted, b.operationID = b'.operationID → b = b') ∧
    (∀ r, (run (step env) s₀ es).fence = some r → r.state = .opened →
      ∃ p : RepositoryArchivePolicy, p.binding = r.binding ∧ Standing p (run (step env) s₀ es)) ∧
    ∀ now req script p, (freezeArchive env now req (run (step env) s₀ es) script).1 = .ok (p, none) →
      ∃ g, (run (step env) s₀ (es ++ [.freeze now req script])).repo.policy = some g ∧ g.state = .archived ∧
        g.binding = p.binding ∧
        ∀ fs, Along (step env) (fun t => ¬ Completed env p g t) (run (step env) s₀ (es ++ [.freeze now req script])) fs →
          (checkArchiveWrite env (run (step env) s₀ (es ++ .freeze now req script :: fs)).repo = .ok () →
            UnderRelease env p g (run (step env) s₀ (es ++ .freeze now req script :: fs))) ∧
          (checkCanonicalRepositoryWrite env (run (step env) s₀ (es ++ .freeze now req script :: fs)).wc = .ok () →
            UnderRelease env p g (run (step env) s₀ (es ++ .freeze now req script :: fs))) := by
  have hinv : Inv (run (step env) s₀ es) := run_invariant (I := Inv) (step env) (fun _ e h => h.step e) hfresh.inv es
  refine ⟨hinv.chain.later, ?_, hinv.standing, ?_⟩
  · cases hf : (run (step env) s₀ es).fence with
    | none =>
      intro b hb
      rw [(hinv.idle hf).1] at hb
      cases hb
    | some r => exact (hinv.ledger r hf).unique
  · intro now req script p hok
    obtain ⟨hnext, hstanding, harchived⟩ := ensures_freezeArchive_inv.of_run hinv (run_eq_of_result hok)
    have hp : p.state = .archived := harchived rfl
    obtain ⟨g, hg, hbinding, hfrozen⟩ := hstanding.stillFrozen hnext hp
    have hstep : run (step env) s₀ (es ++ [.freeze now req script]) =
        (freezeArchive env now req (run (step env) s₀ es) script).2.1 := by
      rw [run_append]
      rfl
    rw [← hstep] at hfrozen
    refine ⟨g, hfrozen.guard, hg, hbinding, fun fs hfs => ?_⟩
    have hrun : run (step env) s₀ (es ++ .freeze now req script :: fs) =
        run (step env) (run (step env) s₀ (es ++ [.freeze now req script])) fs := by
      rw [← run_append, append_assoc, singleton_append]
    rw [hrun]
    rcases phase_along hp hg hfrozen hfs with hs | ⟨b, hs⟩
    · exact ⟨fun h => absurd h (hs.refuses hp hg).1, fun h => absurd h (hs.refuses hp hg).2⟩
    · exact ⟨fun _ => hs.underRelease, fun _ => hs.underRelease⟩

def sampleRealm : Str := "44444444-4444-4444-8444-444444444444"

def sampleCanonical : Canonical := ⟨⟨repositorySchema, sampleRepository, sampleRealm, [], active, none⟩, ∅⟩

def ordinaryHost : Host := ⟨ordinaryRepo, none, sampleCanonical, sampleCanonical, []⟩

lemma ordinaryHost_fresh : Fresh ordinaryHost := ⟨rfl, rfl, rfl, rfl, rfl, rfl⟩

def sampleFreeze : FreezeRequest := ⟨sampleRealm, sampleRepository, sampleOperation, sampleUUID, 5⟩

def sampleRelease : ArchiveReleaseRequest :=
  ⟨sampleRepository, "55555555-5555-4555-8555-555555555555", sampleOperation, sampleUUID, 1, 5, "restore"⟩

def archivedPolicy : RepositoryArchivePolicy := { intent 100 sampleFreeze 1 with state := .archived }

def freezeDone : Event := .freeze 100 sampleFreeze (List.replicate 53 .done)

def releaseCut (n : ℕ) : Event := .release 200 "admin" "admin" sampleRelease (List.replicate n .done)

theorem ordinary_archive_until_released :
    (freezeArchive sampleEnv 100 sampleFreeze ordinaryHost (List.replicate 53 .done)).1 = .ok (archivedPolicy, none) ∧
      ∃ g, (step sampleEnv ordinaryHost freezeDone).repo.policy = some g ∧ g.state = .archived := by
  have hok : (freezeArchive sampleEnv 100 sampleFreeze ordinaryHost (replicate 53 .done)).1 = .ok (archivedPolicy, none) := by
    decide +kernel
  obtain ⟨_, _, _, h⟩ := archived_until_released sampleEnv ordinaryHost ordinaryHost_fresh []
  obtain ⟨g, hg, hstate, _⟩ := h 100 sampleFreeze (replicate 53 .done) archivedPolicy hok
  exact ⟨hok, g, hg, hstate⟩

/-- Releases that die after the guard, or after the publication, admit writes while their fence is held. -/
theorem interrupted_release_admits :
    Fresh ordinaryHost ∧
    (freezeArchive sampleEnv 100 sampleFreeze ordinaryHost (List.replicate 53 .done)).1 = .ok (archivedPolicy, none) ∧
    (step sampleEnv ordinaryHost freezeDone).repo.history.map (·.epoch) = [1, 1] ∧
    (checkArchiveWrite sampleEnv (run (step sampleEnv) ordinaryHost [freezeDone, releaseCut 29]).repo = .ok () ∧
      fenceHeld (run (step sampleEnv) ordinaryHost [freezeDone, releaseCut 29]) = true) ∧
    (checkCanonicalRepositoryWrite sampleEnv (run (step sampleEnv) ordinaryHost [freezeDone, releaseCut 39]).wc = .ok () ∧
      fenceHeld (run (step sampleEnv) ordinaryHost [freezeDone, releaseCut 39]) = true) :=
  ⟨ordinaryHost_fresh, by decide +kernel, by decide +kernel, ⟨by decide +kernel, by decide +kernel⟩,
    by decide +kernel, by decide +kernel⟩

end FileES.Archive
