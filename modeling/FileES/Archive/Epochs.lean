import FileES.Archive.Rules

/-! The history of the records that the guard has had in force. -/

namespace FileES.Archive

open Go Lib.Effects Lib.Fallible List Option

variable {env : Env} {s s₀ : Repo} {now : Time} {r r' want expected : ArchiveProtectionRecord} {operationID reason : Str}

def Later (r r' : ArchiveProtectionRecord) : Prop :=
  r.epoch < r'.epoch ∨ (r.binding = r'.binding ∧ r.state = .freezing ∧ r'.state = .archived)

structure Chain (s : Repo) : Prop where
  later : s.history.Pairwise Later
  last : s.history.getLast? = s.policy

lemma Chain.le_last (h : Chain s) (hp : s.policy = some r) {r₀ : ArchiveProtectionRecord} (h₀ : r₀ ∈ s.history) :
    r₀ = r ∨ Later r₀ r := by
  have hlast := h.last.trans hp
  obtain ⟨init, hinit⟩ := getLast?_eq_some_iff.mp hlast
  have hlater := h.later
  rw [hinit] at h₀ hlater
  rcases mem_append.mp h₀ with h₀ | h₀
  · exact .inr ((pairwise_append.mp hlater).2.2 r₀ h₀ r (by simp))
  · exact .inl (mem_singleton.mp h₀)

lemma Chain.put (h : Chain s) (hg : s.guard.isSome) (hnext : ∀ r, s.policy = some r → Later r r') : Chain (s.putPolicy r') := by
  refine ⟨?_, ?_⟩
  · have hhistory : (s.putPolicy r').history = s.history ++ [r'] := rfl
    rw [hhistory, pairwise_append]
    refine ⟨h.later, pairwise_singleton _ _, fun r₀ h₀ r'' hr'' => ?_⟩
    obtain rfl := mem_singleton.mp hr''
    cases hp : s.policy with
    | none =>
      have hnil := h.last.trans hp
      rw [getLast?_eq_none_iff.mp hnil] at h₀
      cases h₀
    | some r =>
      have hrr := hnext r hp
      rcases h.le_last hp h₀ with rfl | hlater
      · exact hrr
      · rcases hlater with hlt | ⟨hb, hf, ha⟩
        · have : r.epoch ≤ r''.epoch := by
            rcases hrr with hlt | ⟨hb, _⟩
            · exact hlt.le
            · exact (congrArg Binding.epoch hb).le
          exact .inl (by omega)
        · rcases hrr with hlt | ⟨_, hf', _⟩
          · have := congrArg Binding.epoch hb
            exact .inl (this.trans_lt hlt)
          · rw [ha] at hf'
            cases hf'
  · rw [putPolicy_policy hg]
    exact getLast?_concat

lemma Chain.link (h : Chain s) : Chain (s.link r) := by
  have hhistory : (s.link r).history = s.history := by
    rw [Repo.link]
    split <;> rfl
  exact ⟨by rw [hhistory]; exact h.later, by rw [hhistory, link_policy]; exact h.last⟩

def Kept (s₀ s : Repo) : Prop := ∀ key r, s₀.event key = some r → s.event key = some r

lemma Kept.link (h : Kept s₀ s) (hg : s.guard.isSome) : Kept s₀ (s.link r) := by
  intro key p hp
  have hs := h key p hp
  rw [link_event hg, if_neg (fun hn => by rw [hs] at hn; cases hn.2)]
  exact hs

structure Keeps (s₀ s : Repo) : Prop where
  chain : Chain s
  kept : Kept s₀ s

lemma Keeps.refl (h : Chain s) : Keeps s s := ⟨h, fun _ _ hr => hr⟩

lemma Keeps.write (h : Keeps s₀ s) (hw : Writable s r) (hnext : ∀ p, s.policy = some p → Later p (s.record r)) :
    Keeps s₀ (s.link (s.record r)) ∧ Keeps s₀ ((s.link (s.record r)).putPolicy (s.record r)) := by
  have hlink : Keeps s₀ (s.link (s.record r)) := ⟨h.chain.link, h.kept.link hw.guarded⟩
  refine ⟨hlink, hlink.chain.put ?_ ?_, ?_⟩
  · rw [link_isSome]
    exact hw.guarded
  · rw [link_policy]
    exact hnext
  · intro key p hp
    rw [putPolicy_event]
    exact hlink.kept key p hp

@[simp] lemma record_binding : (s.record r).binding = r.binding := by
  rw [Repo.record]
  cases s.event r.event <;> rfl

@[simp] lemma record_state : (s.record r).state = r.state := by
  rw [Repo.record]
  cases s.event r.event <;> rfl

lemma record_epoch : (s.record r).epoch = r.epoch := congrArg Binding.epoch record_binding

structure FreezeKeeps (s₀ s : Repo) : Prop extends Keeps s₀ s where
  archived : ∀ g, s₀.policy = some g → g.state = .archived → s.policy = some g

lemma FreezeKeeps.refl (h : Chain s) : FreezeKeeps s s := ⟨Keeps.refl h, fun _ hg _ => hg⟩

structure Freezes (s₀ : Repo) (r : ArchiveProtectionRecord) (s : Repo) : Prop extends FreezeKeeps s₀ s where
  inForce : ∃ p, s.policy = some p ∧ p.binding = r.binding ∧ p.state = r.state
  stays : (∃ g, s₀.policy = some g ∧ g.state = .archived) → r.state = .archived
  unreleased : r.state ≠ .released

lemma FreezeKeeps.first (h : FreezeKeeps s₀ s) (hw : Writable s r) (hnot : ¬ ∃ g, s₀.policy = some g ∧ g.state = .archived)
    (hnext : ∀ p, s.policy = some p → p.epoch < r.epoch) (hr : r.state = .freezing) :
    FreezeKeeps s₀ (s.link (s.record r)) ∧ Freezes s₀ r ((s.link (s.record r)).putPolicy (s.record r)) := by
  obtain ⟨hlink, hput⟩ := h.toKeeps.write hw (fun p hp => .inl (by rw [record_epoch]; exact hnext p hp))
  have hnone : ∀ {x : Repo} g, s₀.policy = some g → g.state = .archived → x.policy = some g :=
    fun g hg ha => absurd ⟨g, hg, ha⟩ hnot
  refine ⟨⟨hlink, hnone⟩, ⟨hput, hnone⟩, ⟨s.record r, ?_, record_binding, record_state⟩, fun h => absurd h hnot,
    by rw [hr]; decide⟩
  exact putPolicy_policy (by rw [link_isSome]; exact hw.guarded)

lemma ensures_enterFreezing_keeps (h : Chain s₀) (hwant : want.state = .freezing) :
    Ensures (· = s₀) (enterFreezing env want) (fun r s => Freezes s₀ r s) (FreezeKeeps s₀) := by
  have hlands : ∀ {s r}, FreezeKeeps s₀ s → (¬ ∃ g, s₀.policy = some g ∧ g.state = .archived) →
      (∀ p, s.policy = some p → p.epoch < r.epoch) → r.state = .freezing → Lands (FreezeKeeps s₀) (Freezes s₀) s r := by
    intro s r hs hnot hnext hr hw
    obtain ⟨hlink, hput⟩ := hs.first hw hnot hnext hr
    exact ⟨hlink, hput.toFreezeKeeps, hput⟩
  refine ensures_enterFreezing_of (FreezeKeeps.refl h) (fun hguard _ => ?_) (fun e he hreleased hnext _ => ?_)
    (fun e he hreleased _ => ?_)
  · have hpolicy : s₀.policy = none := by rw [Repo.policy, hguard]; rfl
    have hdir : FreezeKeeps s₀ s₀.opened := by
      refine ⟨⟨⟨h.later, h.last.trans hpolicy⟩, fun key r hr => ?_⟩, fun g hg => ?_⟩
      · rw [Repo.event, hguard] at hr
        cases hr
      · rw [hpolicy] at hg
        cases hg
    exact ⟨hdir, hlands hdir (by rintro ⟨g, hg, _⟩; rw [hpolicy] at hg; cases hg) (fun p hp => by cases hp) hwant⟩
  · refine hlands (FreezeKeeps.refl h) ?_ ?_ hwant
    · rintro ⟨g, hg, ha⟩
      obtain rfl := mem_unique he.policy hg
      rw [hreleased] at ha
      cases ha
    · intro p hp
      obtain rfl := mem_unique he.policy hp
      exact hnext.1.2 ▸ Nat.lt_succ_self _
  · refine ⟨FreezeKeeps.refl h, ⟨e, he.policy, rfl, rfl⟩, ?_, hreleased⟩
    rintro ⟨g, hg, ha⟩
    obtain rfl := mem_unique he.policy hg
    exact ha

lemma Freezes.putHook (h : Freezes s₀ r s) {name : HookName} {hook : Hook} : Freezes s₀ r (s.putHook name hook) :=
  ⟨⟨⟨⟨h.chain.later, h.chain.last⟩, h.kept⟩, h.archived⟩, h.inForce, h.stays, h.unreleased⟩

lemma ensures_enterArchived_keeps (h : Freezes s₀ r s) :
    Ensures (· = s) (enterArchived r) (fun _ => FreezeKeeps s₀) (FreezeKeeps s₀) := by
  have hhere : ∀ x, x = s → FreezeKeeps s₀ x := by
    rintro _ rfl
    exact h.toFreezeKeeps
  refine .bind (ensures_checkSnapshot h.toFreezeKeeps) (fun _ => ?_)
  refine .pre (P := fun x => x = s) ?_ (fun _ hx => hx.1)
  refine .except hhere (fun _ _ => .onlyIf_of (fun hstate => ?_) (fun _ => hhere))
  have hstate : r.state ≠ .archived := of_decide_eq_true hstate
  have hfreezing : r.state = .freezing := by
    cases hs : r.state with
    | freezing => rfl
    | archived => exact absurd hs hstate
    | released => exact absurd hs h.unreleased
  obtain ⟨p, hp, hbinding, hpstate⟩ := h.inForce
  refine ensures_writeArchiveProtection h.toFreezeKeeps (fun hw => ?_)
  have hnot : ¬ ∃ g, s₀.policy = some g ∧ g.state = .archived := fun hg => hstate (h.stays hg)
  obtain ⟨hlink, hput⟩ := h.toKeeps.write hw (fun q hq => by
    obtain rfl := mem_unique hp hq
    refine .inr ⟨hbinding.trans ?_, hpstate.trans hfreezing, record_state⟩
    rw [record_binding]
    rfl)
  have hnone : ∀ {x : Repo} g, s₀.policy = some g → g.state = .archived → x.policy = some g :=
    fun g hg ha => absurd ⟨g, hg, ha⟩ hnot
  exact ⟨⟨hlink, hnone⟩, ⟨hput, hnone⟩, ⟨hput, hnone⟩⟩

lemma ensures_freeze_keeps (h : Chain s₀) :
    Ensures (· = s₀) (freeze env now want) (fun _ => FreezeKeeps s₀) (FreezeKeeps s₀) :=
  ensures_freeze_of (E := Freezes s₀) (FreezeKeeps.refl h) (fun _ _ hs => hs.toFreezeKeeps) (fun _ _ hs => hs)
    (fun _ => ensures_enterFreezing_keeps h rfl) (fun _ _ _ hs _ => hs.putHook)
    (fun _ _ _ _ _ _ _ _ hs _ => ensures_enterArchived_keeps hs)

lemma validate_ne_locks : r.validate ≠ .error errArchiveLocks :=
  bind_ne_error (require_ne_error (text_ne rfl)) (fun _ => bind_ne_error (require_ne_error (text_ne rfl))
    (fun _ => bind_ne_error (require_ne_error (text_ne rfl)) (fun _ => require_ne_error (text_ne rfl))))

lemma readArchiveAudit_ne_locks {g : Guard} {key : ℕ × GuardState} : readArchiveAudit g key ≠ .error errArchiveLocks := by
  rw [readArchiveAudit]
  split
  · exact fun h => by cases h
  · exact bind_ne_error validate_ne_locks (fun _ h => by cases h)

lemma readArchiveProtection_ne_locks : readArchiveProtection env s ≠ .error errArchiveLocks := by
  refine bind_ne_error (require_ne_error (text_ne rfl)) (fun _ => ?_)
  split
  · exact fun h => by cases h
  · split
    · exact fun h => absurd (Except.error.inj h) (text_ne rfl)
    · refine bind_ne_error (bind_ne_error validate_ne_locks (fun _ => ?_)) nofun
      refine bind_ne_error (require_ne_error (text_ne rfl)) (fun _ => ?_)
      refine bind_ne_error (require_ne_error (text_ne rfl)) (fun _ => ?_)
      exact bind_ne_error (require_ne_error (text_ne rfl)) nofun

variable {required : Bool}

lemma inspectArchiveHooks_ne_locks : inspectArchiveHooks env required s ≠ .error errArchiveLocks := by
  have hforeign : ∀ name, foreignHook name ≠ errArchiveLocks := by
    intro name
    cases name <;> decide +kernel
  refine bind_ne_error (mapM_ne_error (fun name => ?_)) nofun
  cases s.hooks name with
  | none => exact require_ne_error (text_ne rfl)
  | some hook =>
    cases hook with
    | symlink target => exact require_ne_error (hforeign name)
    | file content => exact fun h => hforeign name (Except.error.inj h)

lemma checkArchiveOperationReuse_ne_locks {operation : Str} {epoch : ℕ} :
    checkArchiveOperationReuse s operation epoch ≠ .error errArchiveLocks := by
  rw [checkArchiveOperationReuse]
  split
  · exact fun h => absurd (Except.error.inj h) (text_ne rfl)
  · refine bind_ne_error (mapM_ne_error (fun e => ?_)) (fun _ h => by cases h)
    refine bind_ne_error validate_ne_locks (fun _ => bind_ne_error (require_ne_error (text_ne rfl)) (fun _ => ?_))
    exact bind_ne_error (require_ne_error (text_ne rfl)) (fun _ => require_ne_error (text_ne rfl))

lemma never_writeArchiveProtection : Never errArchiveLocks (writeArchiveProtection r) := by
  refine .bind (.ofExcept validate_ne_locks) (fun _ => .bind .read (fun s => ?_))
  split
  · exact .fail (text_ne rfl)
  · refine .bind (.ofExcept readArchiveAudit_ne_locks) (fun prior => ?_)
    refine .bind (.ofExcept (require_ne_error (text_ne rfl))) (fun _ => ?_)
    refine .bind (.command (text_ne rfl)) (fun _ => ?_)
    refine .bind (.onlyIf (.save (text_ne rfl))) (fun _ => ?_)
    exact .bind (.command (text_ne rfl)) (fun _ => .save (text_ne rfl))

lemma never_inspectHooks : Never errArchiveLocks (inspectHooks env required) :=
  .bind .read (fun _ => .ofExcept inspectArchiveHooks_ne_locks)

lemma never_checkSnapshot {uuid message : Str} {revision : ℤ} (h : message ≠ errArchiveLocks) :
    Never errArchiveLocks (checkSnapshot uuid revision message) := by
  refine .bind (.bind (.command (text_ne rfl)) (fun _ => .read)) (fun _ => ?_)
  exact .bind (.ofExcept (require_ne_error h)) (fun _ => .pure)

lemma never_enterFreezing : Never errArchiveLocks (enterFreezing env want) := by
  refine .bind (.bind (.command (text_ne rfl)) (fun _ => .bind .read
    (fun _ => .ofExcept readArchiveProtection_ne_locks))) (fun existing => ?_)
  cases existing with
  | none =>
    refine .bind (.ofExcept (require_ne_error (text_ne rfl))) (fun _ => ?_)
    refine .bind (.save (text_ne rfl)) (fun _ => ?_)
    exact .bind never_writeArchiveProtection (fun _ => .pure)
  | some e =>
    dsimp only
    split
    · refine .bind (.ofExcept (require_ne_error (text_ne rfl))) (fun _ => .bind .read (fun _ => ?_))
      refine .bind (.ofExcept checkArchiveOperationReuse_ne_locks) (fun _ => ?_)
      refine .bind (.command (text_ne rfl)) (fun _ => ?_)
      exact .bind never_writeArchiveProtection (fun _ => .pure)
    · exact .bind (.ofExcept (require_ne_error (text_ne rfl))) (fun _ => .pure)

def Repo.unreleased (s : Repo) : Prop := ∃ p, s.policy = some p ∧ p.state ≠ .released

lemma Freezes.unreleasedPolicy (h : Freezes s₀ r s) : s.unreleased := by
  obtain ⟨p, hp, _, hstate⟩ := h.inForce
  exact ⟨p, hp, by rw [hstate]; exact h.unreleased⟩

lemma failsIn_enterArchived (h : Freezes s₀ r s) :
    FailsIn (· = s) (enterArchived r) errArchiveLocks Repo.unreleased := by
  refine .bind (never_checkSnapshot (text_ne rfl)).failsIn (ensures_checkSnapshot (R := fun _ => True) trivial)
    (fun head => ?_)
  rintro x as ⟨rfl, _⟩ hfail
  by_cases hlocked : head.locked = true
  · have hrun : (Lib.Effects.ofExcept (require (!head.locked) errArchiveLocks) >>= fun _ =>
        onlyIf (r.state ≠ .archived) (writeArchiveProtection { r with state := .archived }) : RepoOp Unit) x as =
        (.error (.fail errArchiveLocks), x, as) := by
      rw [hlocked]
      rfl
    rw [hrun]
    exact h.unreleasedPolicy
  · refine absurd hfail (Never.bind (Never.ofExcept ?_) (fun _ => Never.onlyIf never_writeArchiveProtection) x as)
    simp [require, hlocked]

lemma failsIn_freezeGuarded (h : Chain s₀) (hwant : want.state = .freezing) :
    FailsIn (· = s₀) (freezeGuarded env want) errArchiveLocks Repo.unreleased := by
  have hany : ∀ {P : Repo → Prop} s, P s → True := fun _ _ => trivial
  refine .bind (Never.command (text_ne rfl)).failsIn (.command hany) (fun _ => ?_)
  refine .bind (never_checkSnapshot (text_ne rfl)).failsIn
    ((ensures_checkSnapshot (R := fun _ => True) trivial).post (fun _ _ hs => hs.1)) (fun _ => ?_)
  refine .bind never_enterFreezing.failsIn (ensures_enterFreezing_keeps h hwant) (fun r => ?_)
  have hhook : ∀ name, Never errArchiveLocks (installHook env name) := fun name =>
    .bind (.command (text_ne rfl)) (fun _ => .bind .read (fun _ => .onlyIf (.save (text_ne rfl))))
  refine .bind (Never.each hhook).failsIn (.each (fun _ _ =>
    ensures_installHook_of (fun _ hs => hs.toFreezeKeeps) (fun _ hs _ => hs.putHook))) (fun _ => ?_)
  refine .bind (Never.command (text_ne rfl)).failsIn (.command (fun _ hs => hs.toFreezeKeeps)) (fun _ => ?_)
  refine .fix (fun s hs => ?_)
  refine .bind never_inspectHooks.failsIn
    ((ensures_inspectHooks (R := fun _ => True) trivial).post (fun _ _ hs => hs.1)) (fun _ => ?_)
  exact .bind (Never.command (text_ne rfl)).failsIn (.command hany) (fun _ => failsIn_enterArchived hs)

lemma failsIn_freeze (h : Chain s₀) : FailsIn (· = s₀) (freeze env now want) errArchiveLocks Repo.unreleased := by
  have hany : ∀ {P : Repo → Prop} s, P s → True := fun _ _ => trivial
  have hlook : ∀ {α : Type} {x : Except Str α}, Ensures (· = s₀) (Lib.Effects.ofExcept x : RepoOp α)
      (fun _ s => s = s₀) (fun _ => True) := .ofExcept hany (fun _ _ _ hs => hs)
  refine .bind (Never.ofExcept (require_ne_error (text_ne rfl))).failsIn hlook (fun _ => ?_)
  refine .bind (Never.ofExcept validate_ne_locks).failsIn hlook (fun _ => ?_)
  refine .bind (Never.command (text_ne rfl)).failsIn (.command hany) (fun _ => ?_)
  have hpaths : Never errArchiveLocks (paths env) :=
    .bind (.command (text_ne rfl)) (fun _ => .ofExcept (require_ne_error (text_ne rfl)))
  refine .bind hpaths.failsIn
    ((ensures_paths (R := fun _ => True) trivial).post (fun _ _ hs => hs.1)) (fun _ => ?_)
  refine .bind (Never.ofExcept (require_ne_error (text_ne rfl))).failsIn hlook (fun _ => ?_)
  refine .bind (Never.command (text_ne rfl)).failsIn (.command hany) (fun _ => ?_)
  refine .bind never_inspectHooks.failsIn
    ((ensures_inspectHooks (R := fun _ => True) trivial).post (fun _ _ hs => hs.1)) (fun _ => ?_)
  refine .bind (Never.command (text_ne rfl)).failsIn (.command hany) (fun _ => ?_)
  refine .bind (Never.command (text_ne rfl)).failsIn (.command hany) (fun _ => ?_)
  refine .bind (failsIn_freezeGuarded h rfl) .any (fun _ => Never.failsIn ?_)
  refine .bind (.command (text_ne rfl)) (fun _ => .bind (.command (text_ne rfl)) (fun _ => ?_))
  exact .pure

structure ReleaseOf (env : Env) (g : ArchiveProtectionRecord) (operationID : Str) (g' : ArchiveProtectionRecord) : Prop where
  state : g'.state = .released
  epoch : g'.epoch = g.epoch + 1
  operation : g'.operationID = operationID
  uuid : g'.repositoryUUID = g.repositoryUUID
  revision : g'.revision = g.revision
  digest : g'.previousSHA256 = env.recordDigest g

structure ReleaseKeeps (env : Env) (expected : ArchiveProtectionRecord) (operationID : Str) (s₀ s : Repo) : Prop
    extends Keeps s₀ s where
  policy : s.policy = s₀.policy ∨ expected.state ≠ .released ∧ s₀.policy = some expected ∧
    ∃ g', s.policy = some g' ∧ ReleaseOf env expected operationID g'

lemma ReleaseKeeps.refl (h : Chain s) : ReleaseKeeps env expected operationID s s := ⟨Keeps.refl h, .inl rfl⟩

lemma releaseOf_record : ReleaseOf env expected operationID (s.record (releasedRecord env now expected expected operationID reason)) := by
  have hb : (s.record (releasedRecord env now expected expected operationID reason)).binding = _ := record_binding
  have hd : (s.record (releasedRecord env now expected expected operationID reason)).previousSHA256 = env.recordDigest expected := by
    rw [Repo.record]
    cases s.event (releasedRecord env now expected expected operationID reason).event <;> rfl
  exact ⟨record_state, congrArg Binding.epoch hb, congrArg Binding.operationID hb, congrArg Binding.repositoryUUID hb,
    congrArg Binding.revision hb, hd⟩

lemma ensures_releaseCurrent_keeps (h : Chain s₀) {current : ArchiveProtectionRecord}
    (hcurrent : s₀.policy = some current) (hstate : expected.state ≠ .released) :
    Ensures (· = s₀) (releaseCurrent env now current expected operationID reason)
      (fun _ => ReleaseKeeps env expected operationID s₀) (ReleaseKeeps env expected operationID s₀) := by
  have hhere : ∀ s, s = s₀ → ReleaseKeeps env expected operationID s₀ s := by
    rintro _ rfl
    exact ReleaseKeeps.refl h
  refine .except hhere (fun _ hsame => ?_)
  obtain rfl : current = expected := of_decide_eq_true (require_ok.mp hsame)
  refine .except hhere (fun _ _ => .read_at (.except hhere (fun _ _ => ?_)))
  refine .seq (.command hhere) (ensures_writeArchiveProtection (ReleaseKeeps.refl h) (fun hw => ?_))
  obtain ⟨hlink, hput⟩ := (Keeps.refl h).write hw (fun p hp => by
    obtain rfl := mem_unique hcurrent hp
    exact .inl (by rw [record_epoch]; exact Nat.lt_succ_self _))
  have hpolicy := putPolicy_policy (s := s₀.link (s₀.record (releasedRecord env now current current operationID reason)))
    (r := s₀.record (releasedRecord env now current current operationID reason)) (by rw [link_isSome]; exact hw.guarded)
  have hdone : ReleaseKeeps env current operationID s₀ _ := ⟨hput, .inr ⟨hstate, hcurrent, _, hpolicy, releaseOf_record⟩⟩
  exact ⟨⟨hlink, .inl link_policy⟩, hdone, hdone⟩

lemma ensures_release_keeps (h : Chain s₀) : Ensures (· = s₀) (release env now expected operationID reason)
      (fun _ => ReleaseKeeps env expected operationID s₀) (ReleaseKeeps env expected operationID s₀) := by
  have hrefl : ReleaseKeeps env expected operationID s₀ s₀ := ReleaseKeeps.refl h
  have hhere : ∀ s, s = s₀ → ReleaseKeeps env expected operationID s₀ s := by
    rintro _ rfl
    exact hrefl
  refine .except hhere (fun _ _ => .seq (ensures_paths hrefl) (.given (fun _ => ?_)))
  refine .seq (.command hhere) (ensures_withBarrier ?_ hhere (fun _ _ hs => hs))
  refine .seq (.command hhere) ?_
  refine .bind (ensures_readProtection hrefl) (fun current => .given (fun hread => ?_))
  refine .except hhere (fun _ _ => ?_)
  cases current with
  | none => exact .fail hhere
  | some current =>
    refine .except hhere (fun _ hstate => ?_)
    rw [require_ok, Bool.and_eq_true, decide_eq_true_eq] at hstate
    refine .seq (ensures_inspectHooks hrefl) (.given (fun _ => ?_))
    split
    · exact .pure hhere
    · exact ensures_releaseCurrent_keeps h (readArchiveProtection_ok_some.mp hread).2.policy hstate.1

end FileES.Archive
