import FileES.Archive.Epochs
import FileES.Archive.Service

/-! What stands while the fence is open, and the bindings that it was held for. -/

namespace FileES.Archive

open Go Lib.Calls Lib.Effects Lib.Fallible List Option

variable {env : Env} {s s₀ : Host} {R : Host → Prop} {now : Time}

variable {α : Type} {m : RepoOp α} {message repo : Str} {record : RepositoryRecord} {plan : PolicyCore}

lemma ensures_onRepo {Q : α → Repo → Prop} {R : Repo → Prop} (h : Ensures (· = s₀.repo) m Q R) :
    Ensures (· = s₀) (onRepo m) (fun a s => ∃ t, Q a t ∧ s = s₀.setRepo t) (fun s => ∃ t, R t ∧ s = s₀.setRepo t) :=
  .zoom h

lemma ensures_onRepo_look {F : α → Prop}
    (h : Ensures (· = s₀.repo) m (fun a t => t = s₀.repo ∧ F a) (· = s₀.repo)) (hR : R s₀) :
    Ensures (· = s₀) (onRepo m) (fun a s => s = s₀ ∧ F a) R := by
  refine .fails ((ensures_onRepo h).post ?_) ?_
  · rintro a _ ⟨_, ⟨rfl, ha⟩, rfl⟩
    exact ⟨rfl, ha⟩
  · rintro _ ⟨_, rfl, rfl⟩
    exact hR

section

variable (hR : R s₀)
include hR

lemma ensures_onRepo_paths : Ensures (· = s₀) (onRepo (paths env)) (fun _ s => s = s₀) R :=
  (ensures_onRepo_look (ensures_paths rfl) hR).post (fun _ _ hs => hs.1)

lemma ensures_onRepo_inspectHooks {required : Bool} :
    Ensures (· = s₀) (onRepo (inspectHooks env required)) (fun _ s => s = s₀) R :=
  (ensures_onRepo_look (ensures_inspectHooks rfl) hR).post (fun _ _ hs => hs.1)

lemma ensures_onRepo_checkSnapshot {uuid : Str} {revision : ℤ} :
    Ensures (· = s₀) (onRepo (checkSnapshot uuid revision message)) (fun _ s => s = s₀) R :=
  (ensures_onRepo_look (ensures_checkSnapshot rfl) hR).post (fun _ _ hs => hs.1)

lemma ensures_onRepo_checkUnlocked {want : PolicyCore} :
    Ensures (· = s₀) (onRepo (checkUnlocked want)) (fun _ s => s = s₀) R := by
  have hlook : Ensures (· = s₀.repo) (checkUnlocked want) (fun _ t => t = s₀.repo ∧ True) (· = s₀.repo) := by
    refine .bind (.seq (.command (fun _ ht => ht)) (.read (T := fun _ t => t = s₀.repo) ?_))
      (fun head => .ofExcept (fun _ ht => ht) (fun _ _ _ ht => ⟨ht, trivial⟩))
    exact fun _ ht => ht
  exact (ensures_onRepo_look hlook hR).post (fun _ _ hs => hs.1)

lemma ensures_onRepo_checkOperation {operation : Str} {epoch : ℕ} :
    Ensures (· = s₀) (onRepo (checkOperation operation epoch))
      (fun _ s => s = s₀ ∧ ∀ key r, s₀.repo.event key = some r → Unused operation epoch key r) R := by
  refine ensures_onRepo_look (F := fun _ => ∀ key r, s₀.repo.event key = some r → Unused operation epoch key r) ?_ hR
  exact .read_at (.ofExcept (fun _ ht => ht) (fun _ h _ ht => ⟨ht, (checkArchiveOperationReuse_ok.mp h).2⟩))

lemma ensures_readRuntime :
    Ensures (· = s₀) (readRuntime env message) (fun r s => s = s₀ ∧ InForce env s₀.repo r) R := by
  have hhere := at_start hR
  refine .bind (ensures_onRepo_look (ensures_readProtection rfl) hR) (fun runtime => .given (fun hread => ?_))
  cases runtime with
  | none => exact .fail hhere
  | some r => exact .pure (fun _ hs => ⟨hs, (readArchiveProtection_ok_some.mp hread).2⟩)

end

structure Publishes (record : RepositoryRecord) (s₀ s : Host) : Prop where
  repo : s.repo = s₀.repo
  fence : s.fence = s₀.fence
  accepted : s.accepted = s₀.accepted
  wc : s.wc.record = s₀.wc.record ∨ s.wc.record = record
  committed : s.committed.record = s₀.committed.record ∨ s.committed.record = record

lemma ensures_writeAudit {audit : Option ArchiveReleaseAudit} :
    Ensures (· = s₀) (writeAudit repo audit) (fun _ s => Publishes record s₀ s ∧ s.committed = s₀.committed)
      (Publishes record s₀) := by
  have hrefl : Publishes record s₀ s₀ := ⟨rfl, rfl, rfl, .inl rfl, .inl rfl⟩
  have hhere := at_start hrefl
  cases audit with
  | none => exact .pure (by rintro _ rfl; exact ⟨hrefl, rfl⟩)
  | some a =>
    refine .except hhere (fun _ _ => .read_at ?_)
    split
    · refine Ensures.except hhere (fun _ _ => (Ensures.command hhere).post ?_)
      rintro _ _ rfl
      exact ⟨hrefl, rfl⟩
    · have hput : Publishes record s₀ (s₀.putAudit a) := ⟨rfl, rfl, rfl, .inl rfl, .inl rfl⟩
      exact .seq (.command hhere) (.save_at hrefl ⟨hput, rfl⟩ hput)

abbrev RepositoryRecord.setPolicy (r : RepositoryRecord) (p : RepositoryArchivePolicy) : RepositoryRecord :=
  { r with archivePolicy := some p }

lemma ensures_publishArchivePolicy {next : RepositoryArchivePolicy} :
    Ensures (· = s₀) (publishArchivePolicy env record next) (fun _ s => Publishes (record.setPolicy next) s₀ s ∧
        s.wc.record = record.setPolicy next ∧ s.committed.record = record.setPolicy next)
      (Publishes (record.setPolicy next) s₀) := by
  have hhere : ∀ s, s = s₀ → Publishes (record.setPolicy next) s₀ s := by
    rintro _ rfl
    exact ⟨rfl, rfl, rfl, .inl rfl, .inl rfl⟩
  refine .seq (.command hhere) (.except hhere (fun _ _ => ?_))
  refine .seq ensures_writeAudit ?_
  have hput : ∀ s, (Publishes (record.setPolicy next) s₀ s ∧ s.committed = s₀.committed) →
      Publishes (record.setPolicy next) s₀ (s.putRecord (record.setPolicy next)) :=
    fun s hs => { hs.1 with wc := .inr rfl }
  refine .seq (Q := fun s => Publishes (record.setPolicy next) s₀ s ∧
    s.wc.record = record.setPolicy next) (.save (fun s hs => hs.1) ?_ hput) ?_
  · exact fun s hs => ⟨hput s hs, rfl⟩
  · have hcommit : ∀ s, (Publishes (record.setPolicy next) s₀ s ∧ s.wc.record = record.setPolicy next) →
        Publishes (record.setPolicy next) s₀ (s.commit next.release) :=
      fun s hs => { hs.1 with committed := .inr hs.2 }
    refine .seq (.command (fun s hs => hs.1)) (.save (fun s hs => hs.1) ?_ hcommit)
    exact fun s hs => ⟨hcommit s hs, hs.2, hs.2⟩

lemma readFence_ok {r : Option ArchiveAdmissionBinding} (h : readFence s = .ok r) : s.fence = r := by
  rw [readFence] at h
  cases hf : s.fence with
  | none =>
    rw [hf] at h
    exact Except.ok.inj h
  | some f =>
    rw [hf] at h
    obtain ⟨_, _, h⟩ := bind_ok.mp h
    exact Except.ok.inj h

def Holds (now : Time) (repo : Str) (plan : PolicyCore) (s₀ s : Host) : Prop :=
  (s = s₀ ∧ ∃ r, s₀.fence = some r ∧ r.state = .held ∧ r.isFor repo plan = true) ∨
    ((∀ r, s₀.fence = some r → r.state = .opened) ∧ s = s₀.accept (heldFor now repo plan))

lemma ensures_hold : Ensures (· = s₀) (hold now repo plan) (fun _ => Holds now repo plan s₀)
      (fun s => s = s₀ ∨ Holds now repo plan s₀ s) := by
  have hhere : ∀ s, s = s₀ → (s = s₀ ∨ Holds now repo plan s₀ s) := fun _ hs => .inl hs
  refine .except hhere (fun _ _ => .seq (.command hhere) ?_)
  refine .seq (.command hhere) (.read_at (.except hhere (fun existing hread => ?_)))
  have hfence := readFence_ok hread
  have haccept : (∀ r, s₀.fence = some r → r.state = .opened) →
      Ensures (· = s₀) (save (fun s => s.accept (heldFor now repo plan)) "archive admission is not written" : Op Unit)
        (fun _ => Holds now repo plan s₀) (fun s => s = s₀ ∨ Holds now repo plan s₀ s) := by
    intro hopen
    exact .save_at (.inl rfl) (.inr ⟨hopen, rfl⟩) (.inr (.inr ⟨hopen, rfl⟩))
  cases existing with
  | none =>
    refine haccept (fun r hr => ?_)
    rw [hfence] at hr
    cases hr
  | some r =>
    by_cases hstate : r.state = .held
    · simp only [if_pos hstate]
      refine .ofExcept hhere (fun _ hmatch s hs => .inl ⟨hs, r, hfence, hstate, require_ok.mp hmatch⟩)
    · simp only [if_neg hstate]
      refine haccept (fun r' hr' => ?_)
      rw [hfence] at hr'
      cases hr'
      cases hs : r.state with
      | held => exact absurd hs hstate
      | opened => rfl

def Opens (repo : Str) (plan : PolicyCore) (s₀ s : Host) : Prop :=
  ∃ r r', s₀.fence = some r ∧ r.isFor repo plan = true ∧ s = s₀.putFence r' ∧ r'.binding = r.binding ∧ r'.state = .opened

lemma ensures_openFence : Ensures (· = s₀) (openFence now repo plan) (fun _ => Opens repo plan s₀)
      (fun s => s = s₀ ∨ Opens repo plan s₀ s) := by
  have hhere : ∀ s, s = s₀ → (s = s₀ ∨ Opens repo plan s₀ s) := fun _ hs => .inl hs
  refine .seq (.command hhere) (.seq (.command hhere) ?_)
  refine .read_at (.except hhere (fun existing hread => ?_))
  have hfence := readFence_ok hread
  cases existing with
  | none => exact .fail hhere
  | some r =>
    refine .except hhere (fun _ hmatch => ?_)
    have hmatch : r.isFor repo plan = true := require_ok.mp hmatch
    have hopens : Opens repo plan s₀ (s₀.putFence (openedFor now r)) := ⟨r, _, hfence, hmatch, rfl, rfl, rfl⟩
    refine .onlyIf_of (fun _ => .except hhere (fun _ _ => .save_at (.inl rfl) hopens (.inr hopens))) (fun hstate => ?_)
    have hstate : r.state = .opened := not_not.mp (of_decide_eq_false hstate)
    rintro _ rfl
    refine ⟨r, r, hfence, hmatch, ?_, rfl, hstate⟩
    rw [Host.putFence, ← hfence]

def Agrees : PolicyState → GuardState → Prop
  | .freezing, g => g ≠ .released
  | .archived, g => g = .archived
  | .released, g => g = .released
  | _, _ => False

structure Standing (p : RepositoryArchivePolicy) (s : Host) : Prop where
  wc : s.wc.record.archivePolicy = some p
  committed : s.committed.record.archivePolicy = some p
  guard : ∃ g, s.repo.policy = some g ∧ s.repo.event g.event = some g ∧ g.binding = p.binding ∧ Agrees p.state g.state

def Recorded (s : Repo) (b : Binding) : Prop := ∃ key r, s.event key = some r ∧ r.epoch = b.epoch ∧ r.operationID = b.operationID

structure Ledger (f : Binding) (s : Host) : Prop where
  mem : f ∈ s.accepted
  past : ∀ b ∈ s.accepted, b = f ∨ (b.epoch < f.epoch ∧ Recorded s.repo b)
  unique : ∀ b ∈ s.accepted, ∀ b' ∈ s.accepted, b.operationID = b'.operationID → b = b'

structure Inv (s : Host) : Prop where
  chain : Chain s.repo
  idle : s.fence = none → s.accepted = [] ∧ s.wc.record.archivePolicy = none ∧ s.committed.record.archivePolicy = none
  ledger : ∀ r, s.fence = some r → Ledger r.binding s
  standing : ∀ r, s.fence = some r → r.state = .opened → ∃ p : RepositoryArchivePolicy, p.binding = r.binding ∧ Standing p s

structure HeldFor (b : Binding) (s : Host) : Prop where
  chain : Chain s.repo
  fence : ∃ r, s.fence = some r ∧ r.binding = b ∧ r.state = .held
  ledger : Ledger b s

variable {b : Binding} {p : RepositoryArchivePolicy}

lemma HeldFor.inv (h : HeldFor b s) : Inv s := by
  obtain ⟨r, hr, hb, hstate⟩ := h.fence
  refine ⟨h.chain, fun hn => ?_, fun r' hr' => ?_, fun r' hr' ho => ?_⟩
  · rw [hr] at hn
    cases hn
  · rw [hr] at hr'
    cases hr'
    rw [hb]
    exact h.ledger
  · rw [hr] at hr'
    cases hr'
    rw [hstate] at ho
    cases ho

lemma Recorded.kept {s s' : Repo} (h : Recorded s b) (hk : Kept s s') : Recorded s' b := by
  obtain ⟨key, r, hr, hb⟩ := h
  exact ⟨key, r, hk key r hr, hb⟩

lemma HeldFor.publishes (h : HeldFor b s₀) (hp : Publishes record s₀ s) : HeldFor b s := by
  refine ⟨by rw [hp.repo]; exact h.chain, by rw [hp.fence]; exact h.fence, ?_, ?_, ?_⟩
  · rw [hp.accepted]
    exact h.ledger.mem
  · rw [hp.accepted, hp.repo]
    exact h.ledger.past
  · rw [hp.accepted]
    exact h.ledger.unique

lemma HeldFor.keeps {t : Repo} (h : HeldFor b s₀) (hk : Keeps s₀.repo t) : HeldFor b (s₀.setRepo t) := by
  refine ⟨hk.chain, h.fence, h.ledger.mem, fun b' hb' => ?_, h.ledger.unique⟩
  rcases h.ledger.past b' hb' with hsame | ⟨hlt, hrec⟩
  · exact .inl hsame
  · exact .inr ⟨hlt, hrec.kept hk.kept⟩

def Unaccepted (b : Binding) (s : Host) : Prop :=
  ∀ b' ∈ s.accepted, b' = b ∨ (b'.epoch < b.epoch ∧ Recorded s.repo b' ∧ b'.operationID ≠ b.operationID)

lemma Inv.holds (h : Inv s₀) (hnew : (∀ r, s₀.fence = some r → r.state = .opened) → Unaccepted plan.binding s₀)
    (hs : Holds now repo plan s₀ s) : HeldFor plan.binding s := by
  rcases hs with ⟨rfl, r, hr, hstate, hmatch⟩ | ⟨hopen, rfl⟩
  · have hb : r.binding = plan.binding := (ArchiveAdmissionBinding.isFor_iff.mp hmatch).2
    refine ⟨h.chain, ⟨r, hr, hb, hstate⟩, ?_⟩
    rw [← hb]
    exact h.ledger r hr
  · have hnew := hnew hopen
    have hunique : ∀ b ∈ s₀.accepted, ∀ b' ∈ s₀.accepted, b.operationID = b'.operationID → b = b' := by
      cases hf : s₀.fence with
      | none =>
        intro b hb
        rw [(h.idle hf).1] at hb
        cases hb
      | some r => exact (h.ledger r hf).unique
    have hother : ∀ b ∈ s₀.accepted, b.operationID = plan.binding.operationID → b = plan.binding := by
      intro b hb hop
      rcases hnew b hb with hsame | ⟨_, _, hne⟩
      · exact hsame
      · exact absurd hop hne
    have haccepted : (s₀.accept (heldFor now repo plan)).accepted = s₀.accepted ++ [plan.binding] := rfl
    refine ⟨h.chain, ⟨_, rfl, rfl, rfl⟩, ?_, ?_, ?_⟩
    · rw [haccepted]
      simp
    · rw [haccepted]
      intro b hb
      rcases mem_append.mp hb with hb | hb
      · rcases hnew b hb with hsame | ⟨hlt, hrec, _⟩
        · exact .inl hsame
        · exact .inr ⟨hlt, hrec⟩
      · exact .inl (mem_singleton.mp hb)
    · rw [haccepted]
      intro b hb b' hb' hop
      rcases mem_append.mp hb with hb | hb <;> rcases mem_append.mp hb' with hb' | hb'
      · exact hunique b hb b' hb' hop
      · obtain rfl := mem_singleton.mp hb'
        exact hother b hb hop
      · obtain rfl := mem_singleton.mp hb
        exact (hother b' hb' hop.symm).symm
      · rw [mem_singleton.mp hb, mem_singleton.mp hb']

section

variable (h : Inv s) (hopen : ∀ r, s.fence = some r → r.state = .opened) (hpolicy : s.wc.record.archivePolicy = some p)
include h hopen hpolicy

lemma Inv.unaccepted_of_unused (hepoch : b.epoch = p.epoch + 1)
    (hunused : ∀ key r, s.repo.event key = some r → Unused b.operationID b.epoch key r) : Unaccepted b s := by
  have hop : ∀ b', b'.epoch < b.epoch → Recorded s.repo b' → b'.operationID ≠ b.operationID := by
    rintro b' hlt ⟨key, r, hr, hre, hro⟩
    rw [← hro]
    exact (hunused key r hr).other (by omega)
  cases hf : s.fence with
  | none =>
    intro b' hb'
    rw [(h.idle hf).1] at hb'
    cases hb'
  | some r =>
    obtain ⟨p', hp', hstanding⟩ := h.standing r hf (hopen r hf)
    obtain rfl := mem_unique hpolicy hstanding.wc
    have hlast : r.binding.epoch < b.epoch := by
      rw [← hp', hepoch]
      exact Nat.lt_succ_self _
    intro b' hb'
    rcases (h.ledger r hf).past b' hb' with rfl | ⟨hlt, hrec⟩
    · obtain ⟨g, _, hg, hgb, _⟩ := hstanding.guard
      have hrec : Recorded s.repo r.binding := by
        refine ⟨g.event, g, hg, ?_, ?_⟩
        · exact congrArg Binding.epoch (hgb.trans hp')
        · exact congrArg Binding.operationID (hgb.trans hp')
      exact .inr ⟨hlast, hrec, hop _ hlast hrec⟩
    · have hlt' := hlt.trans hlast
      exact .inr ⟨hlt', hrec, hop b' hlt' hrec⟩

lemma Inv.unaccepted_of_standing : Unaccepted p.binding s := by
  intro b hb
  cases hf : s.fence with
  | none =>
    rw [(h.idle hf).1] at hb
    cases hb
  | some r =>
    obtain ⟨p', hp', hstanding⟩ := h.standing r hf (hopen r hf)
    obtain rfl := mem_unique hpolicy hstanding.wc
    rw [hp']
    have hledger := h.ledger r hf
    rcases hledger.past b hb with hsame | ⟨hlt, hrec⟩
    · exact .inl hsame
    · refine .inr ⟨hlt, hrec, fun hop => ?_⟩
      rw [hledger.unique b hb r.binding hledger.mem hop] at hlt
      exact absurd hlt (lt_irrefl _)

end

lemma HeldFor.opens (h : HeldFor p.binding s₀) (hs : Standing p s₀) (ho : Opens repo plan s₀ s) :
    Inv s ∧ Standing p s := by
  obtain ⟨r, r', hr, _, rfl, hb, hstate⟩ := ho
  obtain ⟨r₀, hr₀, hb₀, _⟩ := h.fence
  obtain rfl := mem_unique hr₀ hr
  have hstanding : Standing p (s₀.putFence r') := { hs with }
  refine ⟨⟨h.chain, fun hn => ?_, fun f hf => ?_, fun f hf _ => ?_⟩, hstanding⟩
  · cases hn
  · cases hf
    rw [hb, hb₀]
    exact { h.ledger with }
  · cases hf
    exact ⟨p, by rw [hb, hb₀], hstanding⟩

end FileES.Archive
