import FileES.Lib.Runs
import FileES.Rotation.Swap

/-! A prepared swap is finished by whoever takes it up, however often that dies. -/

namespace FileES.Rotation

open Go Lib.Calls Lib.Durable Lib.Effects Lib.Fallible Lib.Maps Lib.Runs Disk List Option AList

variable {env : Env} {sh : Shuffle} {r : SwapRecord} {old new : Generation} {d d' : Disk} {E : Prop} {a : Str × Str}

lemma validate_ok (h : r.validate env = .ok ()) :
    r.info.oldUUID ≠ [] ∧ r.info.newUUID ≠ [] ∧ r.info.newUUID ≠ r.info.oldUUID ∧
      ∀ a ∈ r.list, a.1 = manifestName r.info.tag ∨ hasSuffix a.1 ".dump.gz" = true := by
  obtain ⟨_, hid, _, _, _, hnames, _⟩ := bind₃_ok.mp h
  simp only [require_ok, Bool.and_eq_true, decide_eq_true_eq] at hid
  obtain ⟨⟨⟨⟨⟨_, hold⟩, hnew⟩, hne⟩, _⟩, _⟩ := hid
  refine ⟨hold, hnew, hne, fun a ha => ?_⟩
  obtain ⟨_, _, hname⟩ := exists_of_mapM_eq_ok hnames ha
  obtain ⟨_, hname, _⟩ := bind_ok.mp hname
  simp only [require_ok, Bool.and_eq_true, Bool.or_eq_true, decide_eq_true_eq] at hname
  exact hname.2.imp_right And.right

lemma artifact_ne_metaName (h : r.validate env = .ok ()) (ha : a ∈ r.list) : a.1 ≠ metaName r.info := by
  intro hmeta
  rcases (validate_ok h).2.2.2 a ha with hname | hsuffix
  · rw [hname] at hmeta
    exact absurd (append_cancel_left hmeta) (by decide +kernel)
  · rw [hmeta, hasSuffix_iff] at hsuffix
    obtain ⟨t, ht⟩ := hsuffix
    have hlast := congrArg getLast? ht
    rw [metaName, getLast?_append_of_ne_nil _ (by decide +kernel), getLast?_append_of_ne_nil _ (by decide +kernel)] at hlast
    exact absurd hlast (by decide +kernel)

variable (env : Env) (r : SwapRecord) (old new : Generation)

def Right (a : Str × Str) (n : Option (Node Str)) : Prop :=
  ∃ content, n = some (.plain content) ∧ env.sha256 content = a.2

structure Evidence (d : Disk) : Prop where
  plain : d.work ≠ some .other
  work : ∀ a ∈ r.list, d.workFile a.1 = none ∨ Right env a (d.workFile a.1)
  file : ∀ a ∈ r.list, d.files.lookup a.1 = none ∨ Right env a (d.files.lookup a.1)
  kept : ∀ a ∈ r.list, Right env a (d.workFile a.1) ∨ Right env a (d.files.lookup a.1)
  info : d.files.lookup (metaName r.info) = none ∨ d.files.lookup (metaName r.info) = some (.plain (env.metaJSON r.info))

def Generation.marked (g : Generation) (m : Meta) : Generation := { g with marker := some (.plain (frozenText m)) }

def InArchive (d : Disk) : Prop :=
  d.archived.lookup r.info.archiveDir = some (.plain old) ∨
    d.archived.lookup r.info.archiveDir = some (.plain (old.marked r.info))

inductive Place (d : Disk) : Prop
  | prepared (hot : d.hot = some (.plain old)) (archived : d.archived.lookup r.info.archiveDir = none)
      (staged : d.staged = some (.plain new))
  | moved (hot : d.hot = none) (archived : InArchive r old d) (staged : d.staged = some (.plain new))
  | installed (hot : d.hot = some (.plain new)) (archived : InArchive r old d) (staged : d.staged = none)

structure Swapping (E : Prop) (d : Disk) : Prop where
  journal : d.journal = some (.plain r)
  place : Place r old new d
  evidence : E → Evidence env r d

structure Installed (E : Prop) (d : Disk) : Prop where
  journal : d.journal = some (.plain r)
  hot : d.hot = some (.plain new)
  archived : InArchive r old d
  staged : d.staged = none
  evidence : E → Evidence env r d

structure Swapped (d : Disk) : Prop where
  hot : d.hot = some (.plain new)
  archived : d.archived.lookup r.info.archiveDir = some (.plain (old.marked r.info))
  artifact : ∀ a ∈ r.list, Right env a (d.files.lookup a.1)
  info : d.files.lookup (metaName r.info) = some (.plain (env.metaJSON r.info))
  work : d.work = none
  journal : d.journal = none

variable {env r old new}

lemma Installed.swapping (h : Installed env r old new E d) : Swapping env r old new E d :=
  ⟨h.journal, .installed h.hot h.archived h.staged, h.evidence⟩

lemma Swapping.weaken (h : Swapping env r old new E d) : Swapping env r old new False d := { h with evidence := False.elim }

def Progress (env : Env) (r : SwapRecord) (old new : Generation) (E : Prop) (d : Disk) : Prop :=
  Swapping env r old new E d ∨ Swapped env r old new d

lemma Installed.progress (h : Installed env r old new E d) : Progress env r old new E d := .inl h.swapping

lemma Swapping.archiveHot (h : Swapping env r old new E d) (hot : d.hot = some (.plain old))
    (staged : d.staged = some (.plain new)) :
    Swapping env r old new E (d.archiveHot r.info.archiveDir) ∧ (d.archiveHot r.info.archiveDir).hot = none ∧
      (d.archiveHot r.info.archiveDir).staged = some (.plain new) ∧ InArchive r old (d.archiveHot r.info.archiveDir) := by
  have heq : d.archiveHot r.info.archiveDir =
      { d with hot := none, archived := d.archived.insert r.info.archiveDir (.plain old) } := by rw [Disk.archiveHot, hot]
  rw [heq]
  have harchived : InArchive r old { d with hot := none, archived := d.archived.insert r.info.archiveDir (.plain old) } :=
    .inl (lookup_insert _)
  refine ⟨⟨h.journal, .moved rfl harchived staged, fun he => ?_⟩, rfl, staged, harchived⟩
  exact { h.evidence he with }

lemma installStaged_eq (staged : d.staged = some (.plain new)) : ∃ w : Work, d.work = some (.plain w) ∧
      d.installStaged = { d with hot := some (.plain new), work := some (.plain { w with staged := none }) } := by
  cases hw : d.work with
  | none =>
    rw [Disk.staged, hw] at staged
    cases staged
  | some n =>
    cases n with
    | other =>
      rw [Disk.staged, hw] at staged
      cases staged
    | plain w =>
      refine ⟨w, rfl, ?_⟩
      rw [installStaged, staged]
      simp only [setStaged, hw]

lemma Swapping.installStaged (h : Swapping env r old new E d) (archived : InArchive r old d)
    (staged : d.staged = some (.plain new)) : Installed env r old new E d.installStaged := by
  obtain ⟨w, hw, heq⟩ := installStaged_eq staged
  have hfile : ∀ name, d.installStaged.workFile name = d.workFile name := by
    intro name
    rw [heq, workFile, workFile, hw]
  rw [heq] at hfile ⊢
  refine ⟨h.journal, rfl, archived, rfl, fun he => ⟨?_, ?_, (h.evidence he).file, ?_, (h.evidence he).info⟩⟩
  · exact fun hother => by cases hother
  · intro a ha
    rw [hfile]
    exact (h.evidence he).work a ha
  · intro a ha
    rw [hfile]
    exact (h.evidence he).kept a ha

variable {n : Node Str} {put : Disk → Disk} {g : Generation} {name raw hot : Str}

lemma Evidence.link (h : Evidence env r d) (hv : r.validate env = .ok ()) (ha : a ∈ r.list)
    (hn : d.workFile a.1 = some n) : Evidence env r (d.putFile a.1 n) := by
  have hother : ∀ name, name ≠ a.1 → (d.putFile a.1 n).files.lookup name = d.files.lookup name :=
    fun name hne => lookup_insert_ne hne
  have hsame : ∀ b ∈ r.list, b.1 = a.1 → Right env b ((d.putFile a.1 n).files.lookup b.1) := by
    intro b hb hab
    have hwork : d.workFile b.1 = some n := by rw [hab, hn]
    have hput : (d.putFile a.1 n).files.lookup b.1 = some n := by rw [hab]; exact lookup_insert _
    rw [hput]
    rcases h.work b hb with hnone | hright
    · rw [hwork] at hnone
      cases hnone
    · rw [hwork] at hright
      exact hright
  refine ⟨h.plain, h.work, fun b hb => ?_, fun b hb => ?_, ?_⟩
  · by_cases hab : b.1 = a.1
    · exact .inr (hsame b hb hab)
    · rw [hother _ hab]
      exact h.file b hb
  · by_cases hab : b.1 = a.1
    · exact .inr (hsame b hb hab)
    · rw [hother _ hab]
      exact h.kept b hb
  · rw [hother _ (artifact_ne_metaName hv ha).symm]
    exact h.info

def KeepsFiles (d d' : Disk) : Prop := ∀ name n, d.files.lookup name = some n → d'.files.lookup name = some n

lemma keepsFiles_putFile (h : d.files.lookup name = none) : KeepsFiles d (d.putFile name n) := by
  intro name' n' hn'
  have hne : name' ≠ name := by
    rintro rfl
    rw [h] at hn'
    cases hn'
  exact (lookup_insert_ne hne).trans hn'

lemma Right.kept (h : Right env a (d.files.lookup a.1)) (hk : KeepsFiles d d') : Right env a (d'.files.lookup a.1) := by
  obtain ⟨content, hc, hsum⟩ := h
  exact ⟨content, hk _ _ hc, hsum⟩

lemma checkArtifact_ok {want : Str} {n : Option (Node Str)} (h : checkArtifact env want n = .ok ()) :
    ∃ content, n = some (.plain content) ∧ env.sha256 content = want := by
  cases n with
  | none => cases h
  | some n =>
    cases n with
    | other => cases h
    | plain content => exact ⟨content, rfl, of_decide_eq_true (require_ok.mp h)⟩

lemma Installed.link (h : Installed env r old new E d) (hv : r.validate env = .ok ()) (ha : a ∈ r.list)
    (hn : d.workFile a.1 = some n) : Installed env r old new E (d.putFile a.1 n) :=
  { h with evidence := fun he => (h.evidence he).link hv ha hn }

lemma ensures_linkArtifact (hv : r.validate env = .ok ()) (ha : a ∈ r.list) (h : Installed env r old new E d) :
    Ensures (· = d) (linkArtifact env a)
      (fun _ s => Installed env r old new E s ∧ KeepsFiles d s ∧ Right env a (s.files.lookup a.1)) (Installed env r old new E) := by
  have hhere := at_start h
  refine .read_at (.seq (Q := fun s => Installed env r old new E s ∧ KeepsFiles d s) ?_ ?_)
  · rw [provideArtifact]
    cases hf : d.files.lookup a.1 with
    | some _ => exact .pure (by rintro _ rfl; exact ⟨h, fun _ _ hn => hn⟩)
    | none =>
      cases hw : d.workFile a.1 with
      | none => exact .fail hhere
      | some n =>
        have hlinked := h.link hv ha hw
        exact .save_at h ⟨hlinked, keepsFiles_putFile hf⟩ hlinked
  · refine .fix (fun s hs => .read_at (.ofExcept ?_ (fun _ hcheck s' hs' => ?_)))
    · rintro _ rfl
      exact hs.1
    · subst hs'
      exact ⟨hs.1, hs.2, checkArtifact_ok hcheck⟩

lemma ensures_links (hv : r.validate env = .ok ()) :
    Ensures (Installed env r old new E) (each (linkArtifact env) (sh.order 1 r.list))
      (fun _ s => Installed env r old new E s ∧ ∀ a ∈ r.list, Right env a (s.files.lookup a.1)) (Installed env r old new E) := by
  have hmem : ∀ a, a ∈ sh.order 1 r.list ↔ a ∈ r.list := fun a => (sh.perm 1 r.list).mem_iff
  have hloop := Ensures.each_done (l := sh.order 1 r.list) (f := linkArtifact env) (R := Installed env r old new E)
    (J := fun done s => Installed env r old new E s ∧ ∀ a ∈ done, Right env a (s.files.lookup a.1)) (fun done a rest hl => ?_)
  · refine hloop.conseq (fun s hs => ⟨hs, fun a ha => by cases ha⟩) (fun _ s hs => ⟨hs.1, fun a ha => hs.2 a ((hmem a).mpr ha)⟩)
  · have ha : a ∈ r.list := (hmem a).mp (by rw [hl]; simp)
    refine .fix (fun s hs => (ensures_linkArtifact hv ha hs.1).post ?_)
    rintro _ s' ⟨hinst, hkeeps, hright⟩
    refine ⟨hinst, fun b hb => ?_⟩
    rcases mem_append.mp hb with hb | hb
    · exact (hs.2 b hb).kept hkeeps
    · rw [mem_singleton.mp hb]
      exact hright

lemma ensures_publishBytes {P Q : Disk → Prop} {look : Disk → Option (Node Str)}
    (hsame : ∀ s, P s → look s = some (.plain raw) → Q s) (hput : ∀ s, P s → look s = none → Q (put s)) (hQ : ∀ s, Q s → P s) :
    Ensures P (publishBytes look put raw) (fun _ => Q) P := by
  refine .fix (fun s hs => .read_at ?_)
  have hhere := at_start hs
  cases hl : look s with
  | none =>
    have hq := hput _ hs hl
    exact .seq (.command hhere) (.save_at hs hq (hQ _ hq))
  | some n =>
    cases n with
    | other => exact .fail hhere
    | plain got =>
      refine .ofExcept hhere (fun _ hok s' hs' => ?_)
      subst hs'
      have hgot : got = raw := of_decide_eq_true (require_ok.mp hok)
      exact hsame _ hs (by rw [hl, hgot])

structure Linked (env : Env) (r : SwapRecord) (old new : Generation) (E : Prop) (d : Disk) : Prop
    extends Installed env r old new E d where
  artifact : ∀ a ∈ r.list, Right env a (d.files.lookup a.1)

structure Described (env : Env) (r : SwapRecord) (old new : Generation) (E : Prop) (d : Disk) : Prop
    extends Linked env r old new E d where
  described : d.files.lookup (metaName r.info) = some (.plain (env.metaJSON r.info))

structure Marked (env : Env) (r : SwapRecord) (old new : Generation) (E : Prop) (d : Disk) : Prop
    extends Described env r old new E d where
  marked : d.archived.lookup r.info.archiveDir = some (.plain (old.marked r.info))

lemma Linked.describe (h : Linked env r old new E d) (hnone : d.files.lookup (metaName r.info) = none) :
    Described env r old new E (d.putFile (metaName r.info) (.plain (env.metaJSON r.info))) := by
  have hkeeps : KeepsFiles d (d.putFile (metaName r.info) (.plain (env.metaJSON r.info))) := keepsFiles_putFile hnone
  have hright := fun a ha => (h.artifact a ha).kept hkeeps
  have hmeta : (d.putFile (metaName r.info) (.plain (env.metaJSON r.info))).files.lookup (metaName r.info) =
      some (.plain (env.metaJSON r.info)) := lookup_insert _
  refine ⟨⟨{ h with evidence := fun he => ?_ }, hright⟩, hmeta⟩
  exact ⟨(h.evidence he).plain, (h.evidence he).work, fun a ha => .inr (hright a ha), fun a ha => .inr (hright a ha), .inr hmeta⟩

lemma ensures_publishMeta :
    Ensures (Linked env r old new E) (publishMeta env r.info) (fun _ => Described env r old new E) (Linked env r old new E) :=
  ensures_publishBytes (fun _ hs hsame => ⟨hs, hsame⟩) (fun _ hs hnone => hs.describe hnone) (fun _ hs => hs.toLinked)

lemma Described.mark (h : Described env r old new E d) (hnone : markerOf (d.archived.lookup r.info.archiveDir) = none) :
    Marked env r old new E (d.putMarker r.info.archiveDir (.plain (frozenText r.info))) := by
  have hold : d.archived.lookup r.info.archiveDir = some (.plain old) := by
    rcases h.archived with hold | hmarked
    · exact hold
    · rw [hmarked] at hnone
      cases hnone
  have heq : d.putMarker r.info.archiveDir (.plain (frozenText r.info)) =
      { d with archived := d.archived.insert r.info.archiveDir (.plain (old.marked r.info)) } := by
    rw [putMarker, hold]
    rfl
  rw [heq]
  have hmarked : (d.archived.insert r.info.archiveDir (Node.plain (old.marked r.info))).lookup r.info.archiveDir =
      some (.plain (old.marked r.info)) := lookup_insert _
  refine ⟨⟨⟨⟨h.journal, h.hot, .inr hmarked, h.staged, fun he => ?_⟩, h.artifact⟩, h.described⟩, hmarked⟩
  exact { h.evidence he with }

lemma Described.marked_of_same (h : Described env r old new E d)
    (hsame : markerOf (d.archived.lookup r.info.archiveDir) = some (.plain (frozenText r.info))) : Marked env r old new E d := by
  refine ⟨h, ?_⟩
  rcases h.archived with hold | hmarked
  · rw [hold] at hsame ⊢
    have hmarker : old.marker = some (.plain (frozenText r.info)) := hsame
    rw [Generation.marked, ← hmarker]
  · exact hmarked

lemma ensures_publishMarker :
    Ensures (Described env r old new E) (publishMarker r.info) (fun _ => Marked env r old new E) (Described env r old new E) :=
  ensures_publishBytes (fun _ hs => hs.marked_of_same) (fun _ hs => hs.mark) (fun _ hs => hs.toDescribed)

section

variable (h : Marked env r old new E d)
include h

lemma Marked.setWork {work : Option (Node Work)} (hplain : work ≠ some .other)
    (hstaged : staged { d with work := work } = none)
    (hfiles : ∀ name, workFile { d with work := work } name = none ∨ workFile { d with work := work } name = d.workFile name) :
    Marked env r old new E { d with work := work } := by
  refine ⟨⟨⟨⟨h.journal, h.hot, h.archived, hstaged, fun he => ?_⟩, h.artifact⟩, h.described⟩, h.marked⟩
  refine ⟨hplain, fun a ha => ?_, (h.evidence he).file, fun a ha => .inr (h.artifact a ha), (h.evidence he).info⟩
  rcases hfiles a.1 with hnone | hsame
  · exact .inl hnone
  · rw [hsame]
    exact (h.evidence he).work a ha

lemma Marked.dropWorkFile (name : Str) : Marked env r old new E (d.dropWorkFile name) := by
  rw [Disk.dropWorkFile]
  split
  · rename_i w hw
    have hstaged : w.staged = none := by
      have := h.staged
      rw [staged, hw] at this
      exact this
    refine h.setWork nofun hstaged (fun name' => ?_)
    by_cases hne : name' = name
    · subst hne
      exact .inl (lookup_erase _ _)
    · refine .inr ?_
      rw [workFile, workFile, hw]
      exact lookup_erase_ne hne
  · exact h

lemma Marked.dropStaged : Marked env r old new E (d.setStaged none) := by
  rw [setStaged]
  split
  · rename_i w hw
    refine h.setWork nofun rfl (fun name => .inr ?_)
    rw [workFile, workFile, hw]
  · exact h

end

lemma ensures_removeAll :
    Ensures (Marked env r old new E) (removeAll sh) (fun _ s => Marked env r old new E s ∧ s.work = none) (Marked env r old new E) := by
  refine .fix (fun d h => .read_at (.seq (Q := Marked env r old new E) ?_ ?_))
  · refine .pre (P := Marked env r old new E) ?_ (by rintro _ rfl; exact h)
    rw [emptyWork]
    split
    · refine .seq (.tryTo (fun _ hs => hs) (fun _ hs => hs.dropStaged)) (.each (fun name _ => ?_))
      exact .tryTo (fun _ hs => hs) (fun _ hs => hs.dropWorkFile name)
    · exact .done
  · refine .fix (fun s hs => .read_at ?_)
    have hhere := at_start hs
    have hnone : Marked env r old new E { s with work := none } := hs.setWork nofun rfl (fun _ => .inl rfl)
    exact .except hhere (fun _ _ => .save_at hs ⟨hnone, rfl⟩ hnone)

lemma Marked.close (h : Marked env r old new E d) (hwork : d.work = none) : Swapped env r old new { d with journal := none } :=
  ⟨h.hot, h.marked, h.artifact, h.described, hwork, rfl⟩

lemma ensures_archiveSwap (hv : r.validate env = .ok ()) :
    Ensures (Installed env r old new E) (archiveSwap env sh r) (fun _ => Swapped env r old new) (Progress env r old new E) := by
  have hprogress : ∀ {P : Disk → Prop}, (∀ s, P s → Installed env r old new E s) → ∀ s, P s → Progress env r old new E s :=
    fun h s hs => (h s hs).progress
  refine .seq ((ensures_links hv).post (fun _ _ hs => (⟨hs.1, hs.2⟩ : Linked env r old new E _)) |>.fails
    (fun _ hs => hs.progress)) ?_
  refine .seq (.command (hprogress (fun _ hs => hs.toInstalled))) ?_
  refine .seq (ensures_publishMeta.fails (fun _ hs => hs.progress)) ?_
  refine .seq (ensures_publishMarker.fails (fun _ hs => hs.progress)) ?_
  refine .seq (.command (hprogress (fun _ hs => hs.toInstalled))) ?_
  refine .seq (.command (hprogress (fun _ hs => hs.toInstalled))) ?_
  refine .seq (ensures_removeAll.fails (fun _ hs => hs.progress)) ?_
  refine .seq (Q := Swapped env r old new) (.save (fun _ hs => hs.1.progress) ?_ ?_)
    (.command (fun _ hs => .inr hs))
  · exact fun s hs => hs.1.close hs.2
  · exact fun s hs => .inr (hs.1.close hs.2)

structure Names (env : Env) (r : SwapRecord) (old new : Generation) : Prop where
  valid : r.validate env = .ok ()
  oldUUID : old.uuid = r.info.oldUUID
  newUUID : new.uuid = r.info.newUUID
  open_old : old.guarded = false
  open_new : new.guarded = false

lemma uuidIfPresent_plain {id : Str} (h : uuidIfPresent (some (.plain g)) = .ok id) : id = g.uuid := by
  obtain ⟨_, _, h⟩ := bind_ok.mp h
  exact (Except.ok.inj h).symm

def Known (r : SwapRecord) (d : Disk) : Prop := ∃ hot arch staged, uuidIfPresent d.hot = .ok hot ∧
  uuidIfPresent (d.archived.lookup r.info.archiveDir) = .ok arch ∧ uuidIfPresent d.staged = .ok staged ∧
  r.info.identities hot arch staged = true

lemma checkSwap_ok (h : checkSwap env sh r d = .ok hot) : uuidIfPresent d.hot = .ok hot ∧ Known r d := by
  simp only [checkSwap, bind_ok] at h
  obtain ⟨_, _, hot', hhot, old, hold, _, _, staged, hstaged, _, hid, _, _, h⟩ := h
  obtain rfl := Except.ok.inj h
  exact ⟨hhot, hot', old, staged, hhot, hold, hstaged, require_ok.mp hid⟩

lemma ensures_syncSwapDirs {P R : Disk → Prop} (h : ∀ s, P s → R s) : Ensures P syncSwapDirs (fun _ => P) R :=
  .seq (.command h) (.seq (.command h) (.command h))

def Between (env : Env) (r : SwapRecord) (old new : Generation) (E : Prop) (d : Disk) : Prop :=
  Swapping env r old new E d ∧ InArchive r old d ∧ d.staged = some (.plain new)

lemma ensures_install : Ensures (Between env r old new E) (do
      save (·.installStaged) "new generation is not installed"
      syncSwapDirs : Op Unit) (fun _ => Installed env r old new E) (Progress env r old new E) := by
  refine .seq (Q := Installed env r old new E) (.save (fun _ hs => .inl hs.1) ?_ ?_)
    (ensures_syncSwapDirs (fun _ hs => hs.progress))
  · exact fun s hs => hs.1.installStaged hs.2.1 hs.2.2
  · exact fun s hs => (hs.1.installStaged hs.2.1 hs.2.2).progress

lemma Swapping.hot_cases (h : Swapping env r old new E d) (hn : Names env r old new)
    (hhot : uuidIfPresent d.hot = .ok hot) :
    (hot = r.info.oldUUID ∧ hot ≠ r.info.newUUID ∧ Between env r old new E (d.archiveHot r.info.archiveDir)) ∨
    (hot ≠ r.info.oldUUID ∧ hot ≠ r.info.newUUID ∧ Between env r old new E d) ∨
    (hot ≠ r.info.oldUUID ∧ hot = r.info.newUUID ∧ Installed env r old new E d) := by
  obtain ⟨hold, hnew, hne, _⟩ := validate_ok hn.valid
  cases h.place with
  | prepared hplace harchived hstaged =>
    rw [hplace] at hhot
    obtain rfl : hot = r.info.oldUUID := (uuidIfPresent_plain hhot).trans hn.oldUUID
    obtain ⟨hmoved, _, hstaged', harchive⟩ := h.archiveHot hplace hstaged
    exact .inl ⟨rfl, hne.symm, hmoved, harchive, hstaged'⟩
  | moved hplace harchived hstaged =>
    rw [hplace] at hhot
    obtain rfl : [] = hot := Except.ok.inj hhot
    exact .inr (.inl ⟨hold.symm, hnew.symm, h, harchived, hstaged⟩)
  | installed hplace harchived hstaged =>
    rw [hplace] at hhot
    obtain rfl : hot = r.info.newUUID := (uuidIfPresent_plain hhot).trans hn.newUUID
    exact .inr (.inr ⟨hne, rfl, h.journal, hplace, harchived, hstaged, h.evidence⟩)

lemma ensures_finish (hn : Names env r old new) :
    Ensures (Swapping env r old new E) (finish env sh r) (fun _ => Swapped env r old new) (Progress env r old new E) := by
  refine .fix (fun d h => .read_at ?_)
  have hhere : ∀ s, s = d → Progress env r old new E s := by rintro _ rfl; exact .inl h
  refine .except hhere (fun hot hcheck => ?_)
  have hrest : Ensures (Between env r old new E) _ (fun _ => Swapped env r old new) (Progress env r old new E) :=
    .seq ensures_install (ensures_archiveSwap hn.valid : Ensures _ (archiveSwap env sh r) _ _)
  rcases h.hot_cases hn (checkSwap_ok hcheck).1 with ⟨rfl, hnot, hmoved⟩ | ⟨hid, hnot, hbetween⟩ | ⟨hid, rfl, hinstalled⟩ <;>
    simp only [onlyIf, decide_eq_true_eq, ne_eq, *, not_true_eq_false, not_false_eq_true, if_true, if_false]
  · exact .seq (.seq (Q := Between env r old new E) (.save_at (.inl h) hmoved (.inl hmoved.1))
      (ensures_syncSwapDirs (fun _ hs => .inl hs.1))) hrest
  · exact .seq .done (hrest.pre (at_start hbetween))
  · exact .seq .done (.seq .done ((ensures_archiveSwap hn.valid).pre (at_start hinstalled)))

lemma ensures_finish_foreign (h : ¬ Known r d) : Ensures (· = d) (finish env sh r) (fun _ s => s = d) (· = d) :=
  .read_at (.checked (fun _ hcheck => absurd (checkSwap_ok hcheck).2 h))

section

variable (hv : r.validate env = .ok ()) (ha : a ∈ r.list) (he : E) (h : Installed env r old new E d)
include hv ha he h

lemma completes_provideArtifact : Completes .done (· = d) (provideArtifact a.1 d)
      (fun _ s => Installed env r old new E s ∧ s.files.lookup a.1 ≠ none) := by
  rw [provideArtifact]
  cases hf : d.files.lookup a.1 with
  | some n =>
    refine .pure ?_
    rintro _ rfl
    exact ⟨h, by rw [hf]; exact some_ne_none n⟩
  | none =>
    cases hw : d.workFile a.1 with
    | none =>
      rcases (h.evidence he).kept a ha with ⟨_, hc, _⟩ | ⟨_, hc, _⟩
      · rw [hw] at hc
        cases hc
      · rw [hf] at hc
        cases hc
    | some n =>
      refine .save rfl (fun s hs => ?_)
      rw [hs]
      refine ⟨h.link hv ha hw, ?_⟩
      have hput : (d.putFile a.1 n).files.lookup a.1 = some n := lookup_insert _
      rw [hput]
      exact some_ne_none n

lemma completes_linkArtifact :
    Completes .done (· = d) (linkArtifact env a) (fun _ _ => True) := by
  refine .read_at (.seq (completes_provideArtifact hv ha he h) ?_)
  refine .fix (fun s hs => .read_at ?_)
  rcases (hs.1.evidence he).file a ha with hnone | ⟨content, hc, hsum⟩
  · exact absurd hnone hs.2
  · refine .ofExcept (a := ()) ?_ (fun _ _ => trivial)
    rw [hc]
    exact require_ok.mpr (decide_eq_true hsum)

end

lemma completes_links (hv : r.validate env = .ok ()) (he : E) :
    Completes .done (Installed env r old new E) (each (linkArtifact env) (sh.order 1 r.list))
      (fun _ => Linked env r old new E) := by
  have hloop : Completes .done (Installed env r old new E) (each (linkArtifact env) (sh.order 1 r.list)) (fun _ _ => True) := by
    refine (Completes.each_done (J := fun _ => Installed env r old new E) (fun done a rest hl => ?_)).post
      (fun _ _ _ => trivial)
    have ha : a ∈ r.list := (sh.perm 1 r.list).mem_iff.mp (by rw [hl]; simp)
    refine .fix (fun s hs => ((completes_linkArtifact hv ha he hs).ensuring (ensures_linkArtifact hv ha hs)).post (fun _ _ h => h.1))
  exact (hloop.ensuring (ensures_links hv)).post (fun _ _ hs => ⟨hs.1, hs.2⟩)

variable {P : Disk → Prop} {w : Work} {s : Disk}

lemma completes_publishBytes {look : Disk → Option (Node Str)}
    (h : ∀ s, P s → look s = none ∨ look s = some (.plain raw)) : Completes .done P (publishBytes look put raw) (fun _ _ => True) := by
  refine .fix (fun s hs => .read_at ?_)
  rcases h s hs with hnone | hsame
  · rw [hnone]
    exact .seq (.command rfl) (.save (Q := fun _ => True) rfl (fun _ _ => trivial))
  · rw [hsame]
    exact .ofExcept (a := ()) (require_ok.mpr (decide_eq_true rfl)) (fun _ _ => trivial)

lemma entries_nil_of_lookup {K V : Type} [DecidableEq K] {m : Map K V} (h : ∀ k, m.lookup k = none) : m.entries = [] := by
  cases hm : m.entries with
  | nil => rfl
  | cons e es =>
    have he : m.lookup e.1 = some e.2 := mem_entries_iff.mp (by rw [hm]; simp)
    rw [h] at he
    cases he

def Left (w : Work) (done : List Str) (s : Disk) : Prop :=
  ∃ w' : Work, s.work = some (.plain w') ∧ w'.staged = none ∧
    ∀ name, w'.files.lookup name ≠ none → name ∈ w.files.keys ∧ name ∉ done

lemma Left.drop {done : List Str} (h : Left w done s) :
    Left w (done ++ [name]) (s.dropWorkFile name) := by
  obtain ⟨w', hw', hstaged, hleft⟩ := h
  refine ⟨{ w' with files := w'.files.erase name }, by rw [dropWorkFile, hw'], hstaged, fun other hother => ?_⟩
  have hne : other ≠ name := by
    rintro rfl
    exact hother (lookup_erase _ _)
  have hother : w'.files.lookup other ≠ none := by rwa [lookup_erase_ne hne] at hother
  refine ⟨(hleft other hother).1, fun hmem => ?_⟩
  rcases mem_append.mp hmem with hmem | hmem
  · exact (hleft other hother).2 hmem
  · exact hne (mem_singleton.mp hmem)

lemma Left.empty {l : List Str} (h : Left w l s) (hl : ∀ name ∈ w.files.keys, name ∈ l) : s.workEmpty = true := by
  obtain ⟨w', hw', hstaged, hleft⟩ := h
  have hnil : w'.files.entries = [] := by
    refine entries_nil_of_lookup (fun name => ?_)
    by_contra hsome
    exact (hleft name hsome).2 (hl name (hleft name hsome).1)
  rw [workEmpty, hw']
  simp [hstaged, hnil]

lemma completes_emptyWork : Completes .done (· = d) (emptyWork sh d) (fun _ s => d.work = some .other ∨ s.workEmpty = true) := by
  rw [emptyWork]
  split
  · rename_i w hw
    refine .seq (.tryTo_done (Q := Left w []) rfl ?_) ?_
    · rintro _ rfl
      refine ⟨{ w with staged := none }, by rw [setStaged, hw], rfl, fun name hname => ⟨?_, by simp⟩⟩
      obtain ⟨n, hn⟩ := ne_none_iff_exists'.mp hname
      exact lookup_isSome.mp (by rw [hn]; rfl)
    · refine (Completes.each_done (J := Left w) (fun done name rest _ => Completes.tryTo_done rfl (fun s hs => hs.drop))).post (fun _ s hs => .inr (hs.empty (fun name hname => ?_)))
      exact (sh.names_perm w.files.keys).mem_iff.mpr hname
  · rename_i hnot
    refine .pure (fun s hs => ?_)
    rw [hs]
    cases hw : d.work with
    | none => exact .inr (by rw [workEmpty, hw])
    | some n =>
      cases n with
      | other => exact .inl rfl
      | plain w => exact absurd hw (hnot w)

lemma completes_removeAll (he : E) : Completes .done (Marked env r old new E) (removeAll sh) (fun _ _ => True) := by
  refine .fix (fun d h => .read_at (.seq completes_emptyWork ?_))
  refine .fix (fun s hs => .read_at ?_)
  have hempty : s.workEmpty = true := hs.resolve_left (h.evidence he).plain
  exact .except (a := ()) (require_ok.mpr hempty) (.save (Q := fun _ => True) rfl (fun _ _ => trivial))

def MarkerFree (r : SwapRecord) (old : Generation) : Prop := old.marker = none ∨ old.marker = some (.plain (frozenText r.info))

lemma Described.marker (h : Described env r old new E d) (hfree : MarkerFree r old) :
    markerOf (d.archived.lookup r.info.archiveDir) = none ∨
      markerOf (d.archived.lookup r.info.archiveDir) = some (.plain (frozenText r.info)) := by
  rcases h.archived with hold | hmarked
  · rw [hold]
    exact hfree
  · rw [hmarked]
    exact .inr rfl

lemma completes_archiveSwap (hv : r.validate env = .ok ()) (hfree : MarkerFree r old) (he : E) :
    Completes .done (Installed env r old new E) (archiveSwap env sh r) (fun _ _ => True) := by
  refine .seq (completes_links hv he) (.seq (.command rfl) ?_)
  have hmeta : Completes .done (Linked env r old new E) (publishMeta env r.info) (fun _ => Described env r old new E) :=
    (completes_publishBytes (fun s hs => (hs.evidence he).info)).ensuring ensures_publishMeta
  have hmarker : Completes .done (Described env r old new E) (publishMarker r.info) (fun _ => Marked env r old new E) :=
    (completes_publishBytes (fun s hs => hs.marker hfree)).ensuring ensures_publishMarker
  refine .seq hmeta (.seq hmarker ?_)
  refine .seq (.command rfl) (.seq (.command rfl) ?_)
  refine .seq ((completes_removeAll he).ensuring ensures_removeAll) ?_
  exact .bind (.save (Q := fun _ => True) rfl (fun _ _ => trivial)) (fun _ =>
    (Completes.command rfl).post (fun _ _ _ => trivial))

lemma completes_syncSwapDirs : Completes .done P syncSwapDirs (fun _ => P) :=
  .seq (.command rfl) (.seq (.command rfl) (.command rfl))

lemma checkArtifactSource_ok (h : Evidence env r d) (ha : a ∈ r.list) : checkArtifactSource env d a = .ok () := by
  have hright : Right env a ((d.workFile a.1).or (d.files.lookup a.1)) := by
    rcases h.work a ha with hnone | hwork
    · rw [hnone, none_or]
      rcases h.kept a ha with ⟨_, hc, _⟩ | hfile
      · rw [hnone] at hc
        cases hc
      · exact hfile
    · obtain ⟨content, hc, hsum⟩ := hwork
      rw [hc]
      exact ⟨content, rfl, hsum⟩
  obtain ⟨content, hc, hsum⟩ := hright
  rw [checkArtifactSource, hc]
  exact require_ok.mpr (decide_eq_true hsum)

lemma uuidIfPresent_of_ne (h : g.uuid ≠ []) : uuidIfPresent (some (.plain g)) = .ok g.uuid := by
  exact bind_ok.mpr ⟨(), require_ok.mpr (decide_eq_true h), rfl⟩

lemma InArchive.look (hn : Names env r old new) (h : InArchive r old d) :
    uuidIfPresent (d.archived.lookup r.info.archiveDir) = .ok r.info.oldUUID ∧
      isGuarded (d.archived.lookup r.info.archiveDir) = false := by
  have hold : old.uuid ≠ [] := by rw [hn.oldUUID]; exact (validate_ok hn.valid).1
  rcases h with h | h
  · rw [h, uuidIfPresent_of_ne hold, hn.oldUUID]
    exact ⟨rfl, hn.open_old⟩
  · have hmarked : (old.marked r.info).uuid ≠ [] := hold
    rw [h, uuidIfPresent_of_ne hmarked, ← hn.oldUUID]
    exact ⟨rfl, hn.open_old⟩

@[simp] lemma isGuarded_none : isGuarded none = false := rfl

lemma Place.looks (hn : Names env r old new) (h : Place r old new d) :
    refuseArchiveGeneration [d.hot, d.archived.lookup r.info.archiveDir, d.staged] = .ok () ∧ Known r d := by
  obtain ⟨hold, hnew, _, _⟩ := validate_ok hn.valid
  have hu : uuidIfPresent (some (.plain old)) = .ok r.info.oldUUID := by
    rw [uuidIfPresent_of_ne (by rw [hn.oldUUID]; exact hold), hn.oldUUID]
  have hu' : uuidIfPresent (some (.plain new)) = .ok r.info.newUUID := by
    rw [uuidIfPresent_of_ne (by rw [hn.newUUID]; exact hnew), hn.newUUID]
  have hg : isGuarded (some (.plain old)) = false := hn.open_old
  have hg' : isGuarded (some (.plain new)) = false := hn.open_new
  rw [refuseArchiveGeneration, require_ok, Known]
  cases h with
  | prepared hot archived staged =>
    rw [hot, archived, staged]
    exact ⟨by simp [hg, hg'], _, _, _, hu, rfl, hu', by simp [Meta.identities]⟩
  | moved hot archived staged =>
    obtain ⟨ha, hag⟩ := archived.look hn
    rw [hot, staged]
    exact ⟨by simp [hag, hg'], _, _, _, rfl, ha, hu', by simp [Meta.identities]⟩
  | installed hot archived staged =>
    obtain ⟨ha, hag⟩ := archived.look hn
    rw [hot, staged]
    exact ⟨by simp [hag, hg'], _, _, _, hu', ha, rfl, by simp [Meta.identities]⟩

lemma checkSwap_passes (hn : Names env r old new) (h : Place r old new d) (hev : Evidence env r d) :
    ∃ hot, checkSwap env sh r d = .ok hot := by
  obtain ⟨hrefuse, hot, arch, staged, hhot, harch, hstaged, hid⟩ := h.looks hn
  obtain ⟨us, hus⟩ : ∃ us, (sh.order 0 r.list).mapM (checkArtifactSource env d) = .ok us :=
    exists_mapM_eq_ok (fun a ha => ⟨(), checkArtifactSource_ok hev ((sh.perm 0 r.list).mem_iff.mp ha)⟩)
  refine ⟨hot, bind_ok.mpr ⟨_, hrefuse, bind_ok.mpr ⟨_, hhot, bind_ok.mpr ⟨_, harch, bind_ok.mpr ⟨(), ?_, ?_⟩⟩⟩⟩⟩
  · rw [require_ok]
    have hplain := hev.plain
    split
    · rename_i hother
      exact absurd hother hplain
    · rfl
  · exact bind_ok.mpr ⟨_, hstaged, bind_ok.mpr ⟨(), require_ok.mpr hid, bind_ok.mpr ⟨us, hus, rfl⟩⟩⟩

lemma completes_finish (hn : Names env r old new) (hfree : MarkerFree r old) (he : E) :
    Completes .done (Swapping env r old new E) (finish env sh r) (fun _ => Swapped env r old new) := by
  refine .ensuring (.fix (fun d h => .read_at ?_)) (ensures_finish hn)
  obtain ⟨hot, hcheck⟩ : ∃ hot, checkSwap env sh r d = .ok hot := checkSwap_passes hn h.place (h.evidence he)
  refine .except hcheck ?_
  have hinstall : Completes .done (Between env r old new E) (do
      save (·.installStaged) "new generation is not installed"
      syncSwapDirs : Op Unit) (fun _ => Installed env r old new E) :=
    .seq (.save (Q := Installed env r old new E) rfl (fun s hs => hs.1.installStaged hs.2.1 hs.2.2))
      completes_syncSwapDirs
  have harchive : Completes .done (Installed env r old new E) (archiveSwap env sh r) (fun _ _ => True) :=
    completes_archiveSwap hn.valid hfree he
  rcases h.hot_cases hn (checkSwap_ok hcheck).1 with ⟨rfl, hnot, hmoved⟩ | ⟨hid, hnot, hbetween⟩ | ⟨hid, rfl, hinstalled⟩ <;>
    simp only [onlyIf, decide_eq_true_eq, ne_eq, *, not_true_eq_false, not_false_eq_true, if_true, if_false]
  · refine .seq (.seq (Q := Between env r old new E) (.save rfl ?_) completes_syncSwapDirs) (.seq hinstall harchive)
    rintro _ rfl
    exact hmoved
  · exact .seq .done ((Completes.seq hinstall harchive).pre (at_start hbetween))
  · exact .seq .done (.seq .done (harchive.pre (at_start hinstalled)))

lemma Swapped.place (h : Swapped env r old new d) : Place r old new d :=
  .installed h.hot (.inr h.archived) (by rw [staged, h.work])

lemma Progress.place (h : Progress env r old new E d) : Place r old new d := by
  rcases h with h | h
  · exact h.place
  · exact h.place

def Env.usable (env : Env) : Bool := isAbs env.repo && isAbs env.archive && clean env.repo ≠ clean env.archive

variable {reason : Str}

lemma ensures_recoverRepo_none (h : d.journal = none) : Ensures (· = d) (recoverRepo env sh reason)
      (fun m s => s = d ∧ m = none ∧ env.usable = true ∧ refuseArchiveGeneration [d.hot] = .ok ()) (· = d) := by
  refine .checked (fun _ husable => .read_at (.checked ?_))
  intro _ hopen
  rw [h]
  exact .pure (fun _ hs => ⟨hs, rfl, require_ok.mp husable, hopen⟩)

lemma ensures_recoverRepo (hn : Names env r old new) :
    Ensures (Progress env r old new E) (recoverRepo env sh reason) (fun _ => Progress env r old new E) (Progress env r old new E) := by
  refine .fix (fun d h => ?_)
  have hhere := at_start h
  rcases h with hswap | hdone
  · refine .except hhere (fun _ _ => .read_at (.except hhere (fun _ _ => ?_)))
    rw [hswap.journal]
    refine .seq (.command hhere) (.read_at ?_)
    rw [hswap.journal]
    refine .except hhere (fun _ _ => .except hhere (fun _ _ => ?_))
    refine .seq (Q := Swapped env r old new) ((ensures_finish hn).pre ?_) (.pure (fun _ hs => .inr hs))
    rintro _ rfl
    exact hswap
  · refine ((ensures_recoverRepo_none hdone.journal).post (fun _ s hs => hhere s hs.1)).fails hhere

lemma ensures_recoverRepo_foreign (hj : d.journal = some (.plain r)) (h : ¬ Known r d) :
    Ensures (· = d) (recoverRepo env sh reason) (fun _ s => s = d) (· = d) := by
  refine .checked (fun _ _ => .read_at (.checked (fun _ _ => ?_)))
  rw [hj]
  refine .seq (.command (fun _ hs => hs)) (.read_at ?_)
  rw [hj]
  refine .checked (fun _ _ => .checked (fun _ _ => ?_))
  exact .seq (ensures_finish_foreign h) .done

lemma Place.hot_unguarded (hn : Names env r old new) (h : Place r old new d) : refuseArchiveGeneration [d.hot] = .ok () := by
  have hall := (h.looks hn).1
  rw [refuseArchiveGeneration, require_ok] at hall ⊢
  simp_all

lemma completes_recoverRepo (hpaths : env.usable = true) (hn : Names env r old new) (hfree : MarkerFree r old)
    (he : E) (hreason : reason = [] ∨ reason = r.info.reason) :
    Completes .done (Progress env r old new E) (recoverRepo env sh reason) (fun _ => Swapped env r old new) := by
  refine .fix (fun d h => .except (a := ()) (require_ok.mpr hpaths) (.read_at ?_))
  refine .except (a := ()) (h.place.hot_unguarded hn) ?_
  rcases h with hswap | hdone
  · rw [hswap.journal]
    refine .seq (.command rfl) (.read_at ?_)
    rw [hswap.journal]
    refine .except (a := ()) hn.valid (.except (a := ()) (require_ok.mpr ?_) ?_)
    · rcases hreason with rfl | rfl <;> simp
    · refine .seq ((completes_finish hn hfree he).pre ?_) .done
      rintro _ rfl
      exact hswap
  · rw [hdone.journal]
    refine .pure ?_
    rintro _ rfl
    exact hdone

structure Prepared (env : Env) (r : SwapRecord) (old new : Generation) (d : Disk) : Prop where
  usable : env.usable = true
  names : Names env r old new
  journal : d.journal = some (.plain r)
  hot : d.hot = some (.plain old)
  archived : d.archived.lookup r.info.archiveDir = none
  staged : d.staged = some (.plain new)
  artifact : ∀ a ∈ r.list, Right env a (d.workFile a.1)

/-- No other file has a name that the swap gives to its artifacts, its metadata or its marker. -/
structure NamesFree (env : Env) (r : SwapRecord) (old : Generation) (d : Disk) : Prop where
  artifact : ∀ a ∈ r.list, d.files.lookup a.1 = none ∨ Right env a (d.files.lookup a.1)
  info : d.files.lookup (metaName r.info) = none ∨ d.files.lookup (metaName r.info) = some (.plain (env.metaJSON r.info))
  marker : MarkerFree r old

lemma Prepared.swapping (h : Prepared env r old new d) : Swapping env r old new (NamesFree env r old d) d := by
  refine ⟨h.journal, .prepared h.hot h.archived h.staged, fun he => ?_⟩
  refine ⟨?_, fun a ha => .inr (h.artifact a ha), he.artifact, fun a ha => .inl (h.artifact a ha), he.info⟩
  intro hother
  have hstaged := h.staged
  rw [Disk.staged, hother] at hstaged
  cases hstaged

structure Recovery where
  shuffle : Shuffle
  reason : Str
  script : List Write

def recoverStep (env : Env) (d : Disk) (e : Recovery) : Disk := (recoverRepo env e.shuffle e.reason d e.script).2.1

lemma progress_run (h : Prepared env r old new d) (sh : Shuffle) (script : List Write) (es : List Recovery) :
    Progress env r old new (NamesFree env r old d) (run (recoverStep env) (finish env sh r d script).2.1 es) := by
  refine run_invariant (I := Progress env r old new (NamesFree env r old d)) (recoverStep env) (fun s e hs => ?_) ?_ es
  · exact (ensures_recoverRepo h.names).final hs e.script
  · exact ((ensures_finish h.names).post (fun _ _ hs => .inr hs)).final h.swapping script

/-- Each generation is in one of its two places, a recovery whose calls succeed ends the swap if no other file has
one of its names, and other identities change nothing. -/
theorem swap_recovers (env : Env) (r : SwapRecord) (old new : Generation) (d : Disk) (h : Prepared env r old new d) (sh : Shuffle)
    (script : List Write) (es : List Recovery) :
    Place r old new (run (recoverStep env) (finish env sh r d script).2.1 es) ∧
    (NamesFree env r old d → ∀ sh' reason, (reason = [] ∨ reason = r.info.reason) →
      ∃ k m t, Swapped env r old new t ∧ ∀ n,
        recoverRepo env sh' reason (run (recoverStep env) (finish env sh r d script).2.1 es) (List.replicate (k + n) .done) =
          (.ok m, t, List.replicate n .done)) ∧
    ∀ d' r' sh' reason script', d'.journal = some (.plain r') →
      (¬ ∃ hot arch staged, uuidIfPresent d'.hot = .ok hot ∧ uuidIfPresent (d'.archived.lookup r'.info.archiveDir) = .ok arch ∧
        uuidIfPresent d'.staged = .ok staged ∧ r'.info.identities hot arch staged = true) →
      (recoverRepo env sh' reason d' script').2.1 = d' := by
  have hrun := progress_run h sh script es
  refine ⟨hrun.place, fun hfree sh' reason hreason => ?_, fun d' r' sh' reason script' hj hforeign => ?_⟩
  · exact completes_recoverRepo h.usable h.names hfree.marker hfree hreason _ hrun
  · exact (ensures_recoverRepo_foreign hj hforeign).final rfl script'

def sampleEnv : Env where
  repo := "/srv/repo"
  archive := "/srv/archive"
  sha256 content := List.replicate 63 '0' ++ [hexDigit (content.length % 16)]
  metaJSON m := m.tag
  rangeDump _ _ _ := []

def inOrder : Shuffle := ⟨fun _ l => l, fun _ l => List.Perm.refl l, fun l => l, fun l => List.Perm.refl l⟩

def sampleOld (marker : Option (Node Str)) : Generation := ⟨"old", 3, "tree", "log", ∅, ∅, marker⟩

def sampleNew : Generation := ⟨"new", 1, "tree", "log", ∅, ∅, none⟩

def sampleMeta : Meta :=
  ⟨"tag", [], "old", "new", 3, "forced", "/srv/archive/tag.svn", []⟩

def sampleRecord : SwapRecord :=
  ⟨swapSchema, "/srv/repo", "/srv/archive/.rotate-work-1", sampleMeta,
    (∅ : Map Str Str).insert (manifestName "tag") (sampleEnv.sha256 "log")⟩

def sampleDisk (marker : Option (Node Str)) : Disk :=
  ⟨some (.plain (sampleOld marker)), ∅, ∅,
    some (.plain ⟨some (.plain sampleNew), (∅ : Map Str (Node Str)).insert (manifestName "tag") (.plain "log")⟩),
    some (.plain sampleRecord)⟩

lemma sample_prepared (marker : Option (Node Str)) :
    Prepared sampleEnv sampleRecord (sampleOld marker) sampleNew (sampleDisk marker) := by
  refine ⟨by decide +kernel, ⟨by decide +kernel, rfl, rfl, rfl, rfl⟩, rfl, rfl, rfl, rfl, fun a ha => ?_⟩
  have hlist : sampleRecord.list = [(manifestName "tag", sampleEnv.sha256 "log")] := by decide +kernel
  rw [hlist, mem_singleton] at ha
  subst ha
  exact ⟨"log", rfl, rfl⟩

lemma sample_namesFree : NamesFree sampleEnv sampleRecord (sampleOld none) (sampleDisk none) :=
  ⟨fun _ _ => .inl rfl, .inl rfl, .inl rfl⟩

theorem sample_swap_recovers : (sampleDisk none).journal.isSome ∧
    ∃ k m t, Swapped sampleEnv sampleRecord (sampleOld none) sampleNew t ∧ ∀ n,
      recoverRepo sampleEnv inOrder [] (finish sampleEnv inOrder sampleRecord (sampleDisk none) []).2.1 (List.replicate (k + n) .done) =
        (.ok m, t, List.replicate n .done) :=
  ⟨rfl, (swap_recovers sampleEnv sampleRecord (sampleOld none) sampleNew (sampleDisk none) (sample_prepared none) inOrder [] []).2.1
    sample_namesFree inOrder [] (.inl rfl)⟩

def strangeMarker : Option (Node Str) := some (.plain "restored from an archive")

/-- The old generation has a file `FROZEN` of its own: recovery fails after the generations have been moved, again and again. -/
theorem other_marker_blocks_recovery :
    Prepared sampleEnv sampleRecord (sampleOld strangeMarker) sampleNew (sampleDisk strangeMarker) ∧
    (recoverRepo sampleEnv inOrder [] (sampleDisk strangeMarker) (List.replicate 40 .done)).1 =
      .error (.fail "existing artifact differs") ∧
    (recoverRepo sampleEnv inOrder [] (recoverStep sampleEnv (sampleDisk strangeMarker) ⟨inOrder, [], List.replicate 40 .done⟩)
      (List.replicate 40 .done)).1 = .error (.fail "existing artifact differs") ∧
    (recoverStep sampleEnv (recoverStep sampleEnv (sampleDisk strangeMarker) ⟨inOrder, [], List.replicate 40 .done⟩)
      ⟨inOrder, [], List.replicate 40 .done⟩).journal.isSome :=
  ⟨sample_prepared _, by decide +kernel, by decide +kernel, by decide +kernel⟩

end FileES.Rotation
