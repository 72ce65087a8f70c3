import FileES.Archive.Protection

/-! What the parts of the guard's operations do, for the proofs about them. -/

namespace FileES.Archive

open Go Lib.Calls Lib.Durable Lib.Effects Lib.Fallible Lib.Maps Repo Option AList

variable {env : Env} {s s₀ : Repo} {g : Guard} {r r' : ArchiveProtectionRecord} {prior : Option ArchiveProtectionRecord}

def Repo.policy (s : Repo) : Option ArchiveProtectionRecord := s.guard.bind Guard.policy

def Repo.event (s : Repo) (key : ℕ × GuardState) : Option ArchiveProtectionRecord := s.guard.bind (fun g => g.events.lookup key)

structure InForce (env : Env) (s : Repo) (r : ArchiveProtectionRecord) : Prop where
  policy : s.policy = some r
  event : s.event r.event = some r
  valid : r.validate = .ok ()
  repo : r.repoID = env.repository
  uuid : s.uuid = r.repositoryUUID

lemma readArchiveAudit_ok {key : ℕ × GuardState} :
    readArchiveAudit g key = .ok prior ↔ g.events.lookup key = prior ∧ ∀ p, prior = some p → p.validate = .ok () := by
  rw [readArchiveAudit]
  cases hk : g.events.lookup key with
  | none =>
    refine ⟨fun h => ?_, fun h => ?_⟩
    · cases h
      exact ⟨rfl, by simp⟩
    · rw [← h.1]
  | some p =>
    simp only [bind_ok, pure, Except.pure, Except.ok.injEq]
    constructor
    · rintro ⟨_, hp, rfl⟩
      exact ⟨rfl, by rintro _ ⟨⟩; exact hp⟩
    · rintro ⟨rfl, hp⟩
      exact ⟨(), hp p rfl, rfl⟩

lemma readPolicy_ok : readPolicy env s g r = .ok r' ↔ r = r' ∧ r.validate = .ok () ∧ r.repoID = env.repository ∧
    g.events.lookup r.event = some r ∧ s.uuid = r.repositoryUUID := by
  simp only [readPolicy, bind_ok, require_ok, decide_eq_true_eq, readArchiveAudit_ok, some.injEq, forall_eq',
    pure, Except.pure, Except.ok.injEq]
  constructor
  · rintro ⟨_, hv, _, hr, _, ⟨he, _⟩, _, hu, rfl⟩
    exact ⟨rfl, hv, hr, he, hu⟩
  · rintro ⟨rfl, hv, hr, he, hu⟩
    exact ⟨(), hv, (), hr, (), ⟨he, hv⟩, (), hu, rfl⟩

lemma readArchiveProtection_ok_none :
    readArchiveProtection env s = .ok none ↔ canonicalUUID env.repository = true ∧ s.guard = none := by
  simp only [readArchiveProtection, bind_ok, require_ok]
  cases hg : s.guard with
  | none => simp [pure, Except.pure]
  | some g =>
    cases hp : g.policy with
    | none => simp [hp]
    | some r => simp [hp, bind_ok, pure, Except.pure]

lemma readArchiveProtection_ok_some :
    readArchiveProtection env s = .ok (some r) ↔ canonicalUUID env.repository = true ∧ InForce env s r := by
  simp only [readArchiveProtection, bind_ok, require_ok]
  cases hg : s.guard with
  | none =>
    refine ⟨?_, fun h => ?_⟩
    · rintro ⟨_, _, h⟩
      cases h
    · have := h.2.policy
      rw [policy, hg] at this
      cases this
  | some g =>
    cases hp : g.policy with
    | none =>
      refine ⟨?_, fun h => ?_⟩
      · rintro ⟨_, _, h⟩
        simp only [hp] at h
        cases h
      · have := h.2.policy
        rw [policy, hg] at this
        exact absurd this (by simp [hp])
    | some r₀ =>
      simp only [hp, bind_ok, readPolicy_ok, pure, Except.pure, Except.ok.injEq, some.injEq]
      constructor
      · rintro ⟨_, hc, _, ⟨rfl, hv, hr, he, hu⟩, rfl⟩
        exact ⟨hc, by rw [policy, hg]; exact hp, by rw [event, hg]; exact he, hv, hr, hu⟩
      · rintro ⟨hc, h⟩
        have hr : r₀ = r := by
          have := h.policy
          rw [policy, hg, bind_some, hp] at this
          exact some.inj this
        subst hr
        have he := h.event
        rw [event, hg] at he
        exact ⟨(), hc, r₀, ⟨rfl, h.valid, h.repo, he, h.uuid⟩, rfl⟩

variable {required : Bool} {operation : Str} {epoch : ℕ} {name : HookName}

lemma inspectHook_ok {hook : Option Hook} : inspectHook env.executable required name hook = .ok () ↔
      hook = some (.symlink env.executable) ∨ (hook = none ∧ required = false) := by
  cases hook with
  | none => simp [inspectHook, require_ok]
  | some hook =>
    cases hook with
    | symlink target => simp [inspectHook, require_ok]
    | file content => simp [inspectHook]

lemma mem_archiveGuardHooks (name : HookName) : name ∈ archiveGuardHooks := by cases name <;> decide

lemma inspectArchiveHooks_ok : inspectArchiveHooks env required s = .ok () ↔
    ∀ name, s.hooks name = some (.symlink env.executable) ∨ (s.hooks name = none ∧ required = false) := by
  simp only [inspectArchiveHooks, bind_ok]
  constructor
  · rintro ⟨us, hus, _⟩ name
    obtain ⟨_, _, hname⟩ := exists_of_mapM_eq_ok hus (mem_archiveGuardHooks name)
    exact inspectHook_ok.mp hname
  · intro h
    obtain ⟨us, hus⟩ := exists_mapM_eq_ok (f := fun name => inspectHook env.executable required name (s.hooks name))
      (fun name (_ : name ∈ archiveGuardHooks) => ⟨(), inspectHook_ok.mpr (h name)⟩)
    exact ⟨us, hus, rfl⟩

structure Unused (operation : Str) (epoch : ℕ) (key : ℕ × GuardState) (r : ArchiveProtectionRecord) : Prop where
  valid : r.validate = .ok ()
  name : key = r.event
  bound : r.epoch ≤ epoch
  other : r.epoch < epoch → r.operationID ≠ operation

lemma checkReuse_ok {e : Sigma fun _ : ℕ × GuardState => ArchiveProtectionRecord} :
    checkReuse operation epoch e = .ok () ↔ Unused operation epoch e.1 e.2 := by
  simp only [checkReuse, bind_ok, require_ok, decide_eq_true_eq, Bool.not_eq_true', Bool.and_eq_false_imp,
    decide_eq_false_iff_not]
  constructor
  · rintro ⟨_, hv, _, hn, _, hb, ho⟩
    exact ⟨hv, hn, hb, ho⟩
  · intro h
    exact ⟨(), h.valid, (), h.name, (), h.bound, h.other⟩

lemma checkArchiveOperationReuse_ok : checkArchiveOperationReuse s operation epoch = .ok () ↔
      s.guard.isSome ∧ ∀ key r, s.event key = some r → Unused operation epoch key r := by
  rw [checkArchiveOperationReuse]
  cases hg : s.guard with
  | none => simp
  | some g =>
    simp only [bind_ok, event, hg, isSome_some, true_and, bind_some, ← mem_entries_iff]
    constructor
    · rintro ⟨us, hus, _⟩ key r hr
      obtain ⟨_, _, h⟩ := exists_of_mapM_eq_ok hus hr
      exact checkReuse_ok.mp h
    · intro h
      obtain ⟨us, hus⟩ := exists_mapM_eq_ok (f := checkReuse operation epoch)
        (fun (e : Sigma fun _ : ℕ × GuardState => ArchiveProtectionRecord) he => ⟨(), checkReuse_ok.mpr (h e.1 e.2 he)⟩)
      exact ⟨us, hus, rfl⟩

@[simp] lemma putEvent_policy : (s.putEvent r).policy = s.policy := by
  simp only [putEvent, policy]
  cases s.guard with
  | none => rfl
  | some g => rfl

variable {key : ℕ × GuardState}

@[simp] lemma putPolicy_event : (s.putPolicy r).event key = s.event key := by
  simp only [putPolicy, event]
  cases s.guard with
  | none => rfl
  | some g => rfl

lemma putEvent_event (h : s.guard.isSome) :
    (s.putEvent r).event key = if key = r.event then some r else s.event key := by
  obtain ⟨g, hg⟩ := isSome_iff_exists.mp h
  simp only [putEvent, event, hg, map_some, bind_some]
  split
  · subst key
    exact lookup_insert _
  · exact lookup_insert_ne ‹_›

lemma putPolicy_policy (h : s.guard.isSome) : (s.putPolicy r).policy = some r := by
  obtain ⟨g, hg⟩ := isSome_iff_exists.mp h
  simp [putPolicy, policy, hg]

@[simp] lemma putEvent_isSome : (s.putEvent r).guard.isSome = s.guard.isSome := by simp [putEvent]

@[simp] lemma putPolicy_isSome : (s.putPolicy r).guard.isSome = s.guard.isSome := by simp [putPolicy]

@[simp] lemma dated_event : (dated r prior).event = r.event := by cases prior <;> rfl

def Repo.link (s : Repo) (r : ArchiveProtectionRecord) : Repo :=
  if (s.event r.event).isNone then s.putEvent r else s

def Repo.record (s : Repo) (r : ArchiveProtectionRecord) : ArchiveProtectionRecord := dated r (s.event r.event)

@[simp] lemma record_event : (s.record r).event = r.event := dated_event

structure Writable (s : Repo) (r : ArchiveProtectionRecord) : Prop where
  valid : r.validate = .ok ()
  guarded : s.guard.isSome
  prior : ∀ p, s.event r.event = some p → p.validate = .ok () ∧ p = dated r (some p)

lemma link_event (h : s.guard.isSome) : (s.link r).event key =
    if key = r.event ∧ s.event key = none then some r else s.event key := by
  rw [link]
  cases hk : s.event r.event with
  | none =>
    rw [isNone_none, if_pos rfl, putEvent_event h]
    by_cases hkey : key = r.event
    · subst hkey
      rw [if_pos rfl, if_pos ⟨rfl, hk⟩]
    · rw [if_neg hkey, if_neg (fun h => hkey h.1)]
  | some p =>
    rw [if_neg (by simp), if_neg]
    rintro ⟨rfl, h⟩
    rw [hk] at h
    cases h

@[simp] lemma link_policy : (s.link r).policy = s.policy := by
  rw [link]
  split
  · exact putEvent_policy
  · rfl

@[simp] lemma link_isSome : (s.link r).guard.isSome = s.guard.isSome := by
  rw [link]
  split
  · exact putEvent_isSome
  · rfl

lemma Writable.record_written (h : Writable s r) : (s.link (s.record r)).event r.event = some (s.record r) := by
  rw [link_event h.guarded, record_event]
  cases hk : s.event r.event with
  | none => rw [if_pos ⟨rfl, rfl⟩]
  | some p =>
    rw [if_neg (by simp), record, hk]
    exact congrArg some (h.prior p hk).2

variable {Q R : Repo → Prop}

lemma ensures_writeArchiveProtection (hR : R s₀) (h : Writable s₀ r → R (s₀.link (s₀.record r)) ∧
      R ((s₀.link (s₀.record r)).putPolicy (s₀.record r)) ∧ Q ((s₀.link (s₀.record r)).putPolicy (s₀.record r))) :
    Ensures (· = s₀) (writeArchiveProtection r) (fun _ => Q) R := by
  have hhere := at_start hR
  refine .except hhere (fun _ hvalid => .read_at ?_)
  split
  · exact .fail hhere
  · rename_i g hg
    refine .except hhere (fun prior hprior => .except hhere (fun _ hsame => ?_))
    obtain ⟨hevent, hprior⟩ := readArchiveAudit_ok.mp hprior
    have hevent : s₀.event r.event = prior := by rw [event, hg]; exact hevent
    have hw : Writable s₀ r := by
      refine ⟨hvalid, by rw [hg]; rfl, fun p hp => ?_⟩
      rw [hevent] at hp
      subst hp
      exact ⟨hprior p rfl, by simpa [require_ok] using hsame⟩
    have hrecord : dated r prior = s₀.record r := by rw [record, hevent]
    rw [hrecord]
    obtain ⟨hlink, hput, hdone⟩ := h hw
    refine .seq (.command hhere) ?_
    have hlinked : Ensures (· = s₀) (onlyIf prior.isNone (save (fun s => s.putEvent (s₀.record r)) "event is not linked")
        : RepoOp Unit) (fun _ s => s = s₀.link (s₀.record r)) R := by
      have hlinkeq : s₀.link (s₀.record r) = if prior.isNone then s₀.putEvent (s₀.record r) else s₀ := by
        rw [link, record_event, hevent]
      rw [hlinkeq] at hlink ⊢
      refine .onlyIf_of (fun hn => ?_) (fun hn => ?_)
      · rw [hn, if_pos rfl] at hlink ⊢
        exact .save_at hR rfl hlink
      · rw [hn, if_neg (by decide)]
        exact fun s hs => hs
    refine .seq hlinked ?_
    exact .seq (.command (at_start hlink)) (.save_at hlink hdone hput)

lemma completes_writeArchiveProtection (h : Writable s₀ r) : Completes Write.done (· = s₀) (writeArchiveProtection r)
      (fun _ s => s = (s₀.link (s₀.record r)).putPolicy (s₀.record r)) := by
  obtain ⟨g, hg⟩ := isSome_iff_exists.mp h.guarded
  have hevent : s₀.event r.event = g.events.lookup r.event := by rw [event, hg]; rfl
  refine .except h.valid (.read_at ?_)
  rw [hg]
  have hread : readArchiveAudit g r.event = .ok (s₀.event r.event) :=
    readArchiveAudit_ok.mpr ⟨hevent.symm, fun p hp => (h.prior p hp).1⟩
  refine .except hread (.except (a := ()) ?_ ?_)
  · rw [require_ok]
    cases hp : s₀.event r.event with
    | none => rfl
    | some p => exact decide_eq_true (h.prior p hp).2
  · refine .seq (.command rfl) ?_
    refine .seq (Q := fun s => s = s₀.link (s₀.record r)) ?_ ?_
    · rw [link, record_event, record]
      cases hp : s₀.event r.event with
      | none =>
        refine .save rfl ?_
        rintro _ rfl
        rfl
      | some p => exact .done
    · refine .seq (.command rfl) (.save rfl ?_)
      rintro _ rfl
      rfl

lemma ensures_readProtection (hR : R s₀) : Ensures (· = s₀) (readProtection env)
    (fun existing s => s = s₀ ∧ readArchiveProtection env s₀ = .ok existing) R := by
  have hhere := at_start hR
  refine .seq (.command hhere) (.read_at ?_)
  exact .ofExcept hhere (fun existing he s hs => ⟨hs, he⟩)

lemma ensures_inspectHooks (hR : R s₀) : Ensures (· = s₀) (inspectHooks env required)
    (fun _ s => s = s₀ ∧ inspectArchiveHooks env required s₀ = .ok ()) R := by
  refine .read_at (.ofExcept ?_ (fun _ he s hs => ⟨hs, he⟩))
  rintro _ rfl
  exact hR

lemma ensures_checkSnapshot {uuid message : Str} {revision : ℤ} (hR : R s₀) :
    Ensures (· = s₀) (checkSnapshot uuid revision message)
      (fun head s => s = s₀ ∧ head = s₀ ∧ s₀.uuid = uuid ∧ s₀.youngest = revision) R := by
  have hhere := at_start hR
  have hsnapshot : Ensures (· = s₀) (snapshot : RepoOp Repo) (fun head s => s = s₀ ∧ head = s₀) R :=
    .seq (.command hhere) (.read (by rintro _ rfl; exact ⟨rfl, rfl⟩))
  refine .bind hsnapshot (fun head => ?_)
  refine .except (fun s hs => hhere s hs.1) (fun _ hok => .pure ?_)
  rintro s ⟨rfl, rfl⟩
  rw [require_ok, Bool.and_eq_true, decide_eq_true_eq, decide_eq_true_eq] at hok
  exact ⟨rfl, rfl, hok⟩

lemma ensures_paths (hR : R s₀) :
    Ensures (· = s₀) (paths env) (fun _ s => s = s₀ ∧ canonicalUUID env.repository = true) R := by
  have hhere := at_start hR
  refine .seq (.command hhere) (.ofExcept hhere (fun _ h s hs => ⟨hs, require_ok.mp h⟩))

variable {σ α : Type} {P : σ → Prop} {Q : α → σ → Prop} {action : Prog σ Write Str α}

lemma ensures_withBarrier {R : σ → Prop} (h : Ensures P action Q R) (hP : ∀ s, P s → R s)
    (hQ : ∀ a s, Q a s → R s) : Ensures P (withBarrier action) Q R := by
  refine .seq (.command hP) (.seq (.command hP) (.bind h (fun a => ?_)))
  refine .seq (.command (hQ a)) (.seq (.command (hQ a)) ?_)
  exact .pure (fun s hs => hs)

lemma completes_withBarrier (h : Completes .done P action Q) : Completes .done P (withBarrier action) Q := by
  refine .seq (.command rfl) (.seq (.command rfl) ?_)
  refine .bind h (fun a => .seq (.command rfl) (.seq (.command rfl) ?_))
  exact .pure (fun s hs => hs)

variable {Q E : ArchiveProtectionRecord → Repo → Prop} {F : Unit → Repo → Prop} {want : ArchiveProtectionRecord}
  {now : Time}

abbrev Repo.opened (s : Repo) : Repo := { s with guard := some ⟨none, ∅⟩ }

def Lands (R : Repo → Prop) (Q : ArchiveProtectionRecord → Repo → Prop) (s : Repo) (r : ArchiveProtectionRecord) : Prop :=
  Writable s r → R (s.link (s.record r)) ∧ R ((s.link (s.record r)).putPolicy (s.record r)) ∧
    Q r ((s.link (s.record r)).putPolicy (s.record r))

lemma ensures_enterFreezing_of (hR : R s₀)
    (hfirst : s₀.guard = none → want.epoch = 1 ∧ want.previousSHA256 = [] → R s₀.opened ∧ Lands R Q s₀.opened want)
    (hagain : ∀ e, InForce env s₀ e → e.state = .released →
      (e.epoch ≠ maxEpoch ∧ want.epoch = e.epoch + 1) ∧ want.operationID ≠ e.operationID →
      checkArchiveOperationReuse s₀ want.operationID want.epoch = .ok () →
      Lands R Q s₀ { want with previousSHA256 := env.recordDigest e })
    (hresume : ∀ e, InForce env s₀ e → e.state ≠ .released → e.binding = want.binding → Q e s₀) :
    Ensures (· = s₀) (enterFreezing env want) Q R := by
  have hhere := at_start hR
  have hwrite : ∀ {s r}, R s → Lands R Q s r →
      Ensures (· = s) (do writeArchiveProtection r; pure r) Q R := fun hs h =>
    .seq (ensures_writeArchiveProtection hs h) (.pure (fun _ hs => hs))
  refine .bind (ensures_readProtection hR) (fun existing => .given (fun hread => ?_))
  cases existing with
  | none =>
    refine .except hhere (fun _ hok => ?_)
    rw [require_ok, Bool.and_eq_true, decide_eq_true_eq, decide_eq_true_eq] at hok
    obtain ⟨hopened, hlands⟩ := hfirst (readArchiveProtection_ok_none.mp hread).2 hok
    exact .seq (Q := fun s => s = s₀.opened) (.save_at hR rfl hopened) (hwrite hopened hlands)
  | some e =>
    have he := (readArchiveProtection_ok_some.mp hread).2
    by_cases hreleased : e.state = .released
    · simp only [if_pos hreleased]
      refine .except hhere (fun _ hnext => .read_at (.except hhere (fun _ hunused => ?_)))
      simp only [require_ok, Bool.and_eq_true, decide_eq_true_eq] at hnext
      exact .seq (.command hhere) (hwrite hR (hagain e he hreleased hnext hunused))
    · simp only [if_neg hreleased]
      refine .except hhere (fun _ hbinding => .pure ?_)
      rw [require_ok, decide_eq_true_eq] at hbinding
      rintro _ rfl
      exact hresume e he hreleased hbinding

lemma ensures_installHook_of (hE : ∀ s, E r s → R s)
    (hput : ∀ s, E r s → s.hooks name = none → E r (s.putHook name (.symlink env.executable))) :
    Ensures (E r) (installHook env name) (fun _ => E r) R := by
  refine .seq (.command hE) (.fix (fun s hs => .read_at ?_))
  refine .onlyIf_of (fun hnone => ?_) (fun _ => at_start hs)
  have hafter := hput _ hs (isNone_iff_eq_none.mp hnone)
  exact .save_at (hE _ hs) hafter (hE _ hafter)

/-- The walk of `freeze`: `E` holds of the record and the repository from entering the freeze to sealing it. -/
lemma ensures_freeze_of (hR : R s₀) (hE : ∀ r s, E r s → R s) (hF : ∀ a s, F a s → R s)
    (henter : (freezingRecord now want).validate = .ok () →
      Ensures (· = s₀) (enterFreezing env (freezingRecord now want)) E R)
    (hput : ∀ r s name, E r s → s.hooks name = none → E r (s.putHook name (.symlink env.executable)))
    (hseal : ∀ r s, env.fileLocksSupported = true → (freezingRecord now want).validate = .ok () →
      canonicalUUID env.repository = true → want.repoID = env.repository →
      inspectArchiveHooks env false s₀ = .ok () → s₀.uuid = want.repositoryUUID ∧ s₀.youngest = want.revision →
      E r s → inspectArchiveHooks env true s = .ok () → Ensures (· = s) (enterArchived r) F R) :
    Ensures (· = s₀) (freeze env now want) F R := by
  have hhere := at_start hR
  refine .except hhere (fun _ hlocks => .except hhere (fun _ hvalid => ?_))
  refine .seq (.command hhere) (.seq (ensures_paths hR) ?_)
  refine .given (fun hcanonical => .except hhere (fun _ hrepo => ?_))
  refine .seq (.command hhere) ?_
  refine .seq (ensures_inspectHooks hR) (.given (fun hhooks => ?_))
  refine ensures_withBarrier ?_ hhere hF
  refine .bind (.command hhere) (fun _ => .bind (ensures_checkSnapshot hR) (fun _ => ?_))
  refine .given (fun hhead => .bind (henter hvalid) (fun r => ?_))
  refine .seq (.each (fun name _ => ensures_installHook_of (hE r) (fun s => hput r s name))) ?_
  refine .seq (.command (hE r)) (.fix (fun s hs => ?_))
  refine .seq (ensures_inspectHooks (hE r s hs)) (.given (fun hinstalled => ?_))
  refine .seq (.command ?_) ?_
  · rintro _ rfl
    exact hE r _ hs
  · exact hseal r s (require_ok.mp hlocks) hvalid hcanonical (of_decide_eq_true (require_ok.mp hrepo)) hhooks hhead.2 hs
      hinstalled

end FileES.Archive
