import FileES.Archive.Fence
import FileES.Lib.Runs

/-! Archived means frozen: every run of freezes and administrative releases of one repository. -/

namespace FileES.Archive

open Go Lib.Effects Lib.Fallible

variable {env : Env} {s s₀ : Host} {R : Host → Prop} {now : Time}

variable {repo actor confirmed : Str} {record : RepositoryRecord} {H G Q : Host → Prop} {plan : PolicyCore}
  {next want current : RepositoryArchivePolicy} {req : ArchiveReleaseRequest} {c : Canonical}

lemma loadActiveRepository_ok (h : loadActiveRepository env repo c = .ok record) : record = c.record := by
  simp only [loadActiveRepository, bind_ok] at h
  obtain ⟨_, _, _, _, h⟩ := h
  exact (Except.ok.inj h).symm

def FrozenLocally (s₀ : Host) (waiting : Bool) (s : Host) : Prop :=
  ∃ t, FreezeKeeps s₀.repo t ∧ (waiting = true → t.unreleased) ∧ s = s₀.setRepo t

lemma ensures_freezeLocal {want : PolicyCore} (h : Chain s₀.repo) :
    Ensures (· = s₀) (freezeLocal env now want) (fun waiting => FrozenLocally s₀ waiting.isSome)
      (FrozenLocally s₀ false) := by
  have hkeeps : Ensures (· = s₀) (onRepo (freeze env now (guardPlan env.repository want)))
      (fun _ => FrozenLocally s₀ false) (FrozenLocally s₀ false) := by
    refine ((ensures_onRepo (ensures_freeze_keeps h)).post ?_).fails ?_
    · rintro _ s ⟨t, ht, rfl⟩
      exact ⟨t, ht, fun hw => (by cases hw), rfl⟩
    · rintro s ⟨t, ht, rfl⟩
      exact ⟨t, ht, fun hw => (by cases hw), rfl⟩
  refine .bind (.attempt_failsIn hkeeps (.zoom (failsIn_freeze h))) (fun result => ?_)
  cases result with
  | ok _ => exact .pure (fun _ hs => hs.1)
  | error e =>
    dsimp only
    split
    · rename_i he
      refine .pure ?_
      rintro s ⟨⟨t, ht, _, hs⟩, hwaits⟩
      obtain ⟨t', ht', hs'⟩ := hwaits (by rw [he])
      have htt : t = t' := congrArg Host.repo (hs.symm.trans hs')
      exact ⟨t, ht, fun _ => by rw [htt]; exact ht', hs⟩
    · exact .fail (fun _ hs => hs.1)

lemma ensures_held (hR₀ : R s₀) (hhold : ∀ s, Holds now repo plan s₀ s → H s)
    (hchain : ∀ s, H s → Chain s.repo ∧ R s) :
    Ensures (· = s₀) (hold now repo plan) (fun _ => H) R := by
  refine (ensures_hold.post (fun _ s hs => hhold s hs)).fails ?_
  rintro s (rfl | hs)
  · exact hR₀
  · exact (hchain s (hhold s hs)).2

lemma ensures_intent (h : ∀ s', Publishes (record.setPolicy next) s s' → H s')
    (hchain : ∀ s, H s → Chain s.repo ∧ R s) :
    Ensures (fun s' => s' = s) (publishArchivePolicy env record next) (fun _ => H) R :=
  (ensures_publishArchivePolicy.post (fun _ s' hp => h s' hp.1)).fails (fun s' hp => (hchain s' (h s' hp)).2)

lemma ensures_published (h : ∀ s', Publishes (record.setPolicy next) s s' →
      R s' ∧ (s'.wc.record = record.setPolicy next → s'.committed.record = record.setPolicy next → G s')) :
    Ensures (fun s' => s' = s) (publishArchivePolicy env record next) (fun _ => G) R :=
  (ensures_publishArchivePolicy.post (fun _ s' hp => (h s' hp.1).2 hp.2.1 hp.2.2)).fails
    (fun s' hp => (h s' hp).1)

lemma ensures_opened (h : ∀ s s', G s → R s ∧ (Opens repo plan s s' → R s' ∧ Q s')) :
    Ensures G (openFence now repo plan) (fun _ => Q) R := by
  refine .fix (fun s hs => ?_)
  refine (ensures_openFence.post (fun _ s' ho => ((h s s' hs).2 ho).2)).fails ?_
  rintro s' (rfl | ho)
  · exact (h s' s' hs).1
  · exact ((h s s' hs).2 ho).1

lemma ensures_freezeCutOver {G Q : RepositoryArchivePolicy → Bool → Host → Prop} (hR₀ : R s₀)
    (hhold : (record.releasedPolicy = true → ∀ key r, s₀.repo.event key = some r → Unused want.operationID want.epoch key r) →
      ∀ s, Holds now env.repository want.toPolicyCore s₀ s → H s)
    (hchain : ∀ s, H s → Chain s.repo ∧ R s)
    (hintent : record.archiveProtected = false → ∀ s s', H s → Publishes (record.setPolicy want) s s' → H s')
    (hlocal : ∀ s t, H s → FreezeKeeps s.repo t → H (s.setRepo t))
    (hpublish : ∀ s s' runtime next waiting, H s → (waiting = true → s.repo.unreleased) → InForce env s.repo runtime →
      runtime.binding = want.binding → reached want runtime waiting = .ok next → Publishes (record.setPolicy next) s s' →
      R s' ∧ (s'.wc.record = record.setPolicy next → s'.committed.record = record.setPolicy next → G next waiting s'))
    (hopen : ∀ s s' next waiting, G next waiting s → R s ∧
      (Opens env.repository next.toPolicyCore s s' → R s' ∧ Q next waiting s'))
    :
    Ensures (· = s₀) (freezeCutOver env now record want) (fun a s => Q a.1 a.2.isSome s) R := by
  have hhere := at_start hR₀
  refine .seq (ensures_onRepo_checkSnapshot hR₀) ?_
  refine .seq (Q := fun s => s = s₀ ∧ (record.releasedPolicy = true →
    ∀ key r, s₀.repo.event key = some r → Unused want.operationID want.epoch key r)) ?_ (.given (fun hunused => ?_))
  · refine .onlyIf_of (fun _ => (ensures_onRepo_checkOperation hR₀).post ?_) (fun hnot s hs => ⟨hs, ?_⟩)
    · exact fun _ _ hs => ⟨hs.1, fun _ => hs.2⟩
    · exact fun h => absurd (hnot.symm.trans h) (by decide)
  refine .seq (ensures_held hR₀ (hhold hunused) hchain) ?_
  refine .seq (Q := H) ?_ ?_
  · refine .onlyIf_of (fun hfresh => .fix (fun s hs => ?_)) (fun _ _ hs => hs)
    exact ensures_intent (fun s' => hintent (by simpa using hfresh) s s' hs) hchain
  refine .bind (Q := fun waiting s => H s ∧ (waiting.isSome = true → s.repo.unreleased)) (.fix (fun s hs => ?_))
    (fun waiting => .fix ?_)
  · have hto : ∀ waiting s', FrozenLocally s waiting s' → H s' ∧ (waiting = true → s'.repo.unreleased) := by
      rintro waiting _ ⟨t, ht, hw, rfl⟩
      exact ⟨hlocal s t hs ht, hw⟩
    refine ((ensures_freezeLocal (hchain s hs).1).post (fun _ => hto _)).fails ?_
    exact fun s' h => (hchain s' (hto _ s' h).1).2
  rintro s ⟨hs, hwaits⟩
  have hthere := at_start (hchain s hs).2
  refine .seq (ensures_onRepo_inspectHooks (hthere s rfl)) ?_
  refine .bind (ensures_readRuntime (hthere s rfl)) (fun runtime => .given (fun hforce => ?_))
  refine .except hthere (fun _ hbinding => .except hthere (fun next hnext => ?_))
  have hbinding : runtime.binding = want.binding := of_decide_eq_true (require_ok.mp hbinding)
  have hstep := fun s' => hpublish s s' runtime next waiting.isSome hs hwaits hforce hbinding hnext
  refine .seq (ensures_published hstep) ?_
  exact .seq (ensures_opened (fun s' s'' => hopen s' s'' next waiting.isSome)) (.pure (fun _ hs => hs))

lemma ensures_freezeArchive {Q : RepositoryArchivePolicy × Option Str → Host → Prop} {req : FreezeRequest} (hR : R s₀)
    (hQ : ∀ a s, Q a s → R s)
    (h : ∀ want, freezePlan now req s₀.wc.record = .ok want →
      Ensures (· = s₀) (freezeCutOver env now s₀.wc.record want) Q R) :
    Ensures (· = s₀) (freezeArchive env now req) Q R := by
  have hhere := at_start hR
  refine .except hhere (fun _ _ => .seq (.command hhere) (.read_at ?_))
  refine .except hhere (fun record hrecord => ?_)
  obtain rfl := loadActiveRepository_ok hrecord
  refine .except hhere (fun _ _ => .except hhere (fun _ _ => ?_))
  refine .except hhere (fun want hwant => .except hhere (fun _ _ => ?_))
  refine .seq (.command hhere) (.seq (ensures_onRepo_paths hR) ?_)
  refine .seq (ensures_onRepo_inspectHooks hR) ?_
  exact ensures_withBarrier (h want hwant) hhere hQ

lemma ensures_releaseCutOver {audit : ArchiveReleaseAudit} (hR₀ : R s₀)
    (hhold : (∀ key r, s₀.repo.event key = some r → Unused req.operationID want.epoch key r) →
      ∀ s, Holds now req.repoID want.toPolicyCore s₀ s → H s)
    (hchain : ∀ s, H s → Chain s.repo ∧ R s)
    (hintent : current.state = .archived → ∀ s s', H s → Publishes (record.setPolicy want) s s' → H s')
    (hlocal : ∀ s t, H s → ReleaseKeeps env audit.runtimeBefore req.operationID s.repo t → H (s.setRepo t))
    (hpublish : ∀ s s' got, H s → InForce env s.repo got → releasedRuntimeMatches env got want = true →
      Publishes (record.setPolicy { want with state := .released }) s s' →
      R s' ∧ (s'.wc.record = record.setPolicy { want with state := .released } →
        s'.committed.record = record.setPolicy { want with state := .released } → G s'))
    (hopen : ∀ s s', G s → R s ∧ (Opens req.repoID want.toPolicyCore s s' → R s' ∧ Q s')) :
    Ensures (· = s₀) (releaseCutOver env now actor confirmed req record current want audit) (fun _ => Q) R := by
  have hhere := at_start hR₀
  refine .seq (.command hhere) (.except hhere (fun _ _ => ?_))
  refine .seq (.onlyIf (ensures_onRepo_checkUnlocked hR₀)) ?_
  refine .seq (ensures_onRepo_checkOperation hR₀) (.given (fun hunused => ?_))
  refine .seq (ensures_held hR₀ (hhold hunused) hchain) ?_
  refine .seq (Q := H) ?_ ?_
  · refine .onlyIf_of (fun harchived => .fix (fun s hs => ?_)) (fun _ _ hs => hs)
    exact ensures_intent (fun s' => hintent (of_decide_eq_true harchived) s s' hs) hchain
  refine .seq (Q := H) (.fix (fun s hs => ?_)) (.fix (fun s hs => ?_))
  · have hto : ∀ s', (∃ t, ReleaseKeeps env audit.runtimeBefore req.operationID s.repo t ∧ s' = s.setRepo t) → H s' := by
      rintro _ ⟨t, ht, rfl⟩
      exact hlocal s t hs ht
    refine ((ensures_onRepo (ensures_release_keeps (hchain s hs).1)).post (fun _ => hto)).fails ?_
    exact fun s' h => (hchain s' (hto s' h)).2
  have hthere := at_start (hchain s hs).2
  refine .bind (ensures_readRuntime (hthere s rfl)) (fun got => .given (fun hforce => ?_))
  refine .except hthere (fun _ hmatch => ?_)
  have hstep := fun s' => hpublish s s' got hs hforce (require_ok.mp hmatch)
  refine .seq (ensures_published hstep) ?_
  exact .seq (ensures_opened hopen) .done

lemma completedBefore_ok {runtime : ArchiveProtectionRecord}
    (h : completedBefore env runtime s repo want = .ok false) :
    ∃ r, s.fence = some r ∧ r.state = .held ∧ r.isFor repo want.toPolicyCore = true := by
  obtain ⟨_, _, fence, hread, h⟩ := bind₂_ok.mp h
  cases fence with
  | none => cases h
  | some r =>
    have h : (r.state = .opened || !r.isFor repo want.toPolicyCore) = false := Except.ok.inj h
    rw [Bool.or_eq_false_iff, decide_eq_false_iff_not, Bool.not_eq_false'] at h
    refine ⟨r, readFence_ok hread, ?_, h.2⟩
    cases hs : r.state with
    | held => rfl
    | opened => exact absurd hs h.1

lemma ensures_releaseArchive (hR : R s₀) (hQ : ∀ s, Q s → R s) (hdone : Q s₀)
    (h : ∀ current want runtime audit, s₀.wc.record.archivePolicy = some current → InForce env s₀.repo runtime →
      releasePlan env now actor req s₀.wc current runtime = .ok want → want.release = some audit →
      (current.state = .released → ∃ r, s₀.fence = some r ∧ r.state = .held ∧ r.isFor req.repoID want.toPolicyCore = true) →
      Ensures (· = s₀) (releaseCutOver env now actor confirmed req s₀.wc.record current want audit) (fun _ => Q) R)
    :
    Ensures (· = s₀) (releaseArchive env now actor confirmed req) (fun _ => Q) R := by
  have hhere := at_start hR
  refine .except hhere (fun _ _ => .except hhere (fun _ _ => ?_))
  refine .seq (.command hhere) (.read_at (.except hhere (fun record hrecord => ?_)))
  obtain rfl := loadActiveRepository_ok hrecord
  refine .except hhere (fun _ _ => ?_)
  cases hpolicy : s₀.wc.record.archivePolicy with
  | none => exact .fail hhere
  | some current =>
    refine .seq (.command hhere) (.except hhere (fun _ _ => ?_))
    refine .seq (.command hhere) (.seq (ensures_onRepo_paths hR) ?_)
    refine .seq (ensures_onRepo_inspectHooks hR) ?_
    refine .bind (ensures_readRuntime hR) (fun runtime => .given (fun hforce => ?_))
    refine .except hhere (fun want hwant => .except hhere (fun _ _ => ?_))
    have hgo : (current.state = .released →
        ∃ r, s₀.fence = some r ∧ r.state = .held ∧ r.isFor req.repoID want.toPolicyCore = true) →
        Ensures (· = s₀) (releaseCurrentPolicy env now actor confirmed req s₀.wc.record current want) (fun _ => Q) R := by
      intro hheld
      rw [releaseCurrentPolicy]
      split
      · exact .fail hhere
      · rename_i audit haudit
        exact ensures_withBarrier (h current want runtime audit hpolicy hforce hwant haudit hheld) hhere (fun _ => hQ)
    split
    · refine .except hhere (fun completed hcompleted => ?_)
      cases completed with
      | true => exact .pure (by rintro _ rfl; exact hdone)
      | false => exact hgo (fun _ => completedBefore_ok hcompleted)
    · exact hgo (fun hreleased => absurd hreleased ‹_›)

variable {req : FreezeRequest}

lemma freezePlan_ok (h : freezePlan now req record = .ok want) : record.archivePolicy = none ∨
      (∃ p, record.archivePolicy = some p ∧ p.state = .released ∧ want.epoch = p.epoch + 1) ∨
      (record.archivePolicy = some want ∧ want.state ≠ .released ∧ want.state ≠ .releasing) := by
  rw [freezePlan] at h
  cases hp : record.archivePolicy with
  | none => exact .inl rfl
  | some p =>
    rw [hp] at h
    dsimp only at h
    split at h
    · rename_i hreleased
      obtain ⟨_, _, h⟩ := bind_ok.mp h
      obtain rfl := Except.ok.inj h
      exact .inr (.inl ⟨p, rfl, hreleased, rfl⟩)
    · rename_i hreleased
      obtain ⟨_, hok, h⟩ := bind_ok.mp h
      obtain rfl := Except.ok.inj h
      simp only [require_ok, Bool.and_eq_true, decide_eq_true_eq] at hok
      exact .inr (.inr ⟨rfl, hreleased, hok.1.1.1⟩)

variable {runtime : ArchiveProtectionRecord}

lemma reached_ok {waiting : Bool} (h : reached want runtime waiting = .ok next) :
    (waiting = true ∧ want.state ≠ .archived ∧ next = { want with state := .freezing }) ∨
      (waiting = false ∧ runtime.state = .archived ∧ next = { want with state := .archived }) := by
  cases waiting with
  | true =>
    obtain ⟨_, hok, h⟩ := bind_ok.mp h
    exact .inl ⟨rfl, of_decide_eq_true (require_ok.mp hok), (Except.ok.inj h).symm⟩
  | false =>
    obtain ⟨_, hok, h⟩ := bind_ok.mp h
    exact .inr ⟨rfl, of_decide_eq_true (require_ok.mp hok), (Except.ok.inj h).symm⟩

lemma releasePlan_ok {req : ArchiveReleaseRequest} (h : releasePlan env now actor req c current runtime = .ok want) :
    want.operationID = req.operationID ∧
      ((current.state = .archived ∧ runtime.state = .archived ∧ want.epoch = current.epoch + 1 ∧ want.state = .releasing) ∨
        (want = current ∧ (current.state = .releasing ∨ current.state = .released))) := by
  rw [releasePlan] at h
  split at h
  · rename_i harchived
    obtain ⟨_, hok, audit, _, h⟩ := bind₂_ok.mp h
    obtain rfl := Except.ok.inj h
    simp only [require_ok, Bool.and_eq_true, decide_eq_true_eq] at hok
    exact ⟨rfl, .inl ⟨harchived, hok.1.2, rfl, rfl⟩⟩
  · obtain ⟨_, hok, h⟩ := bind_ok.mp h
    obtain rfl := Except.ok.inj h
    simp only [require_ok, Bool.and_eq_true, Bool.or_eq_true, decide_eq_true_eq] at hok
    exact ⟨hok.1.2, .inr ⟨rfl, hok.1.1⟩⟩

lemma releasedRuntimeMatches_ok {r : ArchiveProtectionRecord} (h : releasedRuntimeMatches env r want = true) :
    r.state = .released ∧ r.binding = want.binding := by
  rw [releasedRuntimeMatches] at h
  cases ha : want.release with
  | none =>
    rw [ha] at h
    cases h
  | some a =>
    rw [ha] at h
    simp only [Option.any_some, Bool.and_eq_true, decide_eq_true_eq] at h
    obtain ⟨⟨⟨⟨⟨⟨⟨hstate, _⟩, hepoch⟩, hop⟩, huuid⟩, hrevision⟩, _⟩, _⟩ := h
    refine ⟨hstate, ?_⟩
    rw [ArchiveProtectionRecord.binding, PolicyCore.binding, hepoch, hop, huuid, hrevision]

lemma Inv.policy_none (h : Inv s) (hopen : ∀ r, s.fence = some r → r.state = .opened)
    (hpolicy : s.wc.record.archivePolicy = none) : s.accepted = [] := by
  cases hf : s.fence with
  | none => exact (h.idle hf).1
  | some r =>
    obtain ⟨p, _, hstanding⟩ := h.standing r hf (hopen r hf)
    rw [hstanding.wc] at hpolicy
    cases hpolicy

lemma Standing.of_publishes {p : RepositoryArchivePolicy}
    (hp : Publishes (record.setPolicy p) s₀ s) (hwc : s.wc.record = record.setPolicy p)
    (hcommitted : s.committed.record = record.setPolicy p) (hforce : InForce env s₀.repo runtime)
    (hbinding : runtime.binding = p.binding) (hagrees : Agrees p.state runtime.state) : Standing p s := by
  refine ⟨by rw [hwc], by rw [hcommitted], runtime, ?_, ?_, hbinding, hagrees⟩
  · rw [hp.repo]
    exact hforce.policy
  · rw [hp.repo]
    exact hforce.event

lemma ensures_freezeArchive_inv :
    Ensures Inv (freezeArchive env now req) (fun a s => Inv s ∧ Standing a.1 s ∧ (a.2 = none → a.1.state = .archived)) Inv := by
  refine .fix (fun s₀ h => ensures_freezeArchive h (fun _ _ hs => hs.1) (fun want hwant => ?_))
  have hnew : (s₀.wc.record.releasedPolicy = true → ∀ key r, s₀.repo.event key = some r → Unused want.operationID want.epoch key r) →
      (∀ r, s₀.fence = some r → r.state = .opened) → Unaccepted want.binding s₀ := by
    intro hunused hopen
    rcases freezePlan_ok hwant with hnone | ⟨p, hp, hreleased, hepoch⟩ | ⟨hp, _⟩
    · intro b hb
      rw [h.policy_none hopen hnone] at hb
      cases hb
    · exact h.unaccepted_of_unused hopen hp hepoch (hunused (by rw [RepositoryRecord.releasedPolicy, hp]; simpa using hreleased))
    · exact h.unaccepted_of_standing hopen hp
  refine (ensures_freezeCutOver (H := HeldFor want.binding)
    (G := fun next waiting s => HeldFor next.binding s ∧ Standing next s ∧ (waiting = false → next.state = .archived))
    (Q := fun next waiting s => Inv s ∧ Standing next s ∧ (waiting = false → next.state = .archived)) h
    ?_ ?_ ?_ ?_ ?_ ?_).post ?_
  · exact fun hunused s hs => h.holds (hnew hunused) hs
  · exact fun s hs => ⟨hs.chain, hs.inv⟩
  · exact fun _ s s' hs hp => hs.publishes hp
  · exact fun s t hs ht => hs.keeps ht.toKeeps
  · intro s s' runtime next waiting hs hwaits hforce hbinding hreached hp
    refine ⟨(hs.publishes hp).inv, fun hwc hcommitted => ?_⟩
    rcases reached_ok hreached with ⟨hw, _, rfl⟩ | ⟨hw, hstate, rfl⟩
    · refine ⟨hs.publishes hp, Standing.of_publishes hp hwc hcommitted hforce hbinding ?_, fun hn => ?_⟩
      · obtain ⟨p, hpolicy, hunreleased⟩ := hwaits hw
        obtain rfl := Option.mem_unique hforce.policy hpolicy
        exact hunreleased
      · rw [hw] at hn
        cases hn
    · exact ⟨hs.publishes hp, Standing.of_publishes hp hwc hcommitted hforce hbinding hstate, fun _ => rfl⟩
  · rintro s s' next waiting ⟨hheld, hstanding, hstate⟩
    refine ⟨hheld.inv, fun ho => ?_⟩
    obtain ⟨hinv, hs⟩ := hheld.opens hstanding ho
    exact ⟨hinv, hinv, hs, hstate⟩
  · rintro ⟨next, waiting⟩ s ⟨hinv, hs, hstate⟩
    refine ⟨hinv, hs, fun hnone => hstate ?_⟩
    have hnone : waiting = none := hnone
    rw [hnone]
    rfl

lemma ensures_releaseArchive_inv {req : ArchiveReleaseRequest} :
    Ensures Inv (releaseArchive env now actor confirmed req) (fun _ => Inv) Inv := by
  refine .fix (fun s₀ h => ensures_releaseArchive h (fun _ hs => hs) h ?_)
  intro current want runtime audit hpolicy hforce hwant haudit hheld
  obtain ⟨hop, hplan⟩ := releasePlan_ok hwant
  have hnew : (∀ key r, s₀.repo.event key = some r → Unused req.operationID want.epoch key r) →
      (∀ r, s₀.fence = some r → r.state = .opened) → Unaccepted want.binding s₀ := by
    intro hunused hopen
    rcases hplan with ⟨_, _, hepoch, _⟩ | ⟨rfl, hreleasing | hreleased⟩
    · refine h.unaccepted_of_unused hopen hpolicy hepoch (fun key r hr => ?_)
      have hused := hunused key r hr
      rw [← hop] at hused
      exact hused
    · cases hf : s₀.fence with
      | none =>
        rw [(h.idle hf).2.1] at hpolicy
        cases hpolicy
      | some r =>
        obtain ⟨p, _, hstanding⟩ := h.standing r hf (hopen r hf)
        obtain rfl := Option.mem_unique hpolicy hstanding.wc
        obtain ⟨g, _, _, _, hagrees⟩ := hstanding.guard
        rw [hreleasing] at hagrees
        exact hagrees.elim
    · obtain ⟨r, hr, hstate, _⟩ := hheld hreleased
      have := hopen r hr
      rw [hstate] at this
      cases this
  refine ensures_releaseCutOver (H := HeldFor want.binding)
    (G := fun s => HeldFor want.binding s ∧ Standing { want with state := .released } s) h ?_ ?_ ?_ ?_ ?_ ?_
  · exact fun hunused s hs => h.holds (hnew hunused) hs
  · exact fun s hs => ⟨hs.chain, hs.inv⟩
  · exact fun _ s s' hs hp => hs.publishes hp
  · exact fun s t hs ht => hs.keeps ht.toKeeps
  · intro s s' got hs hgot hmatch hp
    obtain ⟨hstate, hbinding⟩ := releasedRuntimeMatches_ok hmatch
    exact ⟨(hs.publishes hp).inv, fun hwc hcommitted =>
      ⟨hs.publishes hp, Standing.of_publishes hp hwc hcommitted hgot hbinding hstate⟩⟩
  · rintro s s' ⟨hs, hstanding⟩
    refine ⟨hs.inv, fun ho => ?_⟩
    have hinv := (hs.opens (p := { want with state := .released }) hstanding ho).1
    exact ⟨hinv, hinv⟩

end FileES.Archive
