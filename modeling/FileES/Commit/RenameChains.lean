import FileES.Commit.Staging
import FileES.Lib.Runs

/-! Staged renames as a relation between destinations and sources, over every sequence of events. -/

namespace FileES.Commit

open Go Watcher Lib.Maps Lib.Runs

def Renames (staging : Staging) (dst src : Path) : Prop :=
  ∃ it, staging.lookup dst = some it ∧ it.op = .renamed ∧ it.oldRel = src

def RenamesInjective (staging : Staging) : Prop :=
  (∀ k it, staging.lookup k = some it → it.op = .renamed → it.oldRel ≠ it.rel) ∧
    ∀ k k' it it', staging.lookup k = some it → staging.lookup k' = some it' →
      it.op = .renamed → it'.op = .renamed → it.oldRel = it'.oldRel → k = k'

variable {staging staging' : Staging} {k dst src wc : Path} {it : StageItem} {ev ev' : Event} {native : Bool}
  {now : Time}

lemma renamesInjective_iff (hk : Keyed staging) : RenamesInjective staging ↔
      (∀ k, ¬ Renames staging k k) ∧ ∀ k k' src, Renames staging k src → Renames staging k' src → k = k' := by
  constructor
  · rintro ⟨hfix, hinj⟩
    refine ⟨?_, ?_⟩
    · rintro k ⟨it, hl, ho, hs⟩
      exact hfix k it hl ho (hs.trans (hk k it hl).symm)
    · rintro k k' src ⟨it, hl, ho, hs⟩ ⟨it', hl', ho', hs'⟩
      exact hinj k k' it it' hl hl' ho ho' (hs.trans hs'.symm)
  · rintro ⟨hfix, hinj⟩
    refine ⟨?_, ?_⟩
    · intro k it hl ho hs
      exact hfix k ⟨it, hl, ho, hs.trans (hk k it hl)⟩
    · intro k k' it it' hl hl' ho ho' hs
      exact hinj k k' it.oldRel ⟨it, hl, ho, rfl⟩ ⟨it', hl', ho', hs.symm⟩

section

variable (staging : Staging) (ev : Event)

def HeldBack : Prop :=
  ∃ previous, staging.lookup ev.oldRel = some previous ∧
    (previous.moveScheduled = true ∨ previous.op = .renameUncertain)

def renameOrigin : Path :=
  match staging.lookup ev.oldRel with
  | some previous => if previous.op = .renamed then previous.oldRel else ev.oldRel
  | none => ev.oldRel

def FreshOrigin : Prop :=
  ev.op = .renamed → HeldBack staging ev ∨
    (renameOrigin staging ev ≠ ev.rel ∧
      ∀ k, k ≠ ev.rel → k ≠ ev.oldRel → ¬ Renames staging k (renameOrigin staging ev))

end

lemma renames_insert : Renames (staging.insert k it) dst src ↔
      (dst = k ∧ it.op = .renamed ∧ it.oldRel = src) ∨ (dst ≠ k ∧ Renames staging dst src) := by
  constructor
  · rintro ⟨other, hl, ho, hs⟩
    rcases lookup_insert_eq_some.mp hl with ⟨hd, rfl⟩ | ⟨hd, hl⟩
    · exact .inl ⟨hd, ho, hs⟩
    · exact .inr ⟨hd, other, hl, ho, hs⟩
  · rintro (⟨hd, ho, hs⟩ | ⟨hd, other, hl, ho, hs⟩)
    · exact ⟨it, lookup_insert_eq_some.mpr (.inl ⟨hd, rfl⟩), ho, hs⟩
    · exact ⟨other, lookup_insert_eq_some.mpr (.inr ⟨hd, hl⟩), ho, hs⟩

lemma renames_erase : Renames (staging.erase k) dst src ↔ dst ≠ k ∧ Renames staging dst src := by
  simp only [Renames, lookup_erase_eq_some]
  constructor
  · rintro ⟨it, hl, ho⟩
    exact ⟨hl.1, it, hl.2, ho⟩
  · rintro ⟨hd, it, hl, ho⟩
    exact ⟨it, ⟨hd, hl⟩, ho⟩

lemma mergeOp_renamed (he : ev.op ≠ .renamed) (h : (mergeOp it ev).op = .renamed) :
    it.op = .renamed ∧ (mergeOp it ev).oldRel = it.oldRel := by
  rcases ev with ⟨_, _, _, _, _, _, op, _⟩
  cases op with
  | renamed => exact (he rfl).elim
  | modified =>
    simp only [mergeOp] at h ⊢
    split at h
    · cases h
    · rename_i hm
      simp [h]
  | added | deleted | renameUncertain => cases h

lemma Outcome.renames_of_other (h : Outcome native wc now staging ev staging') (he : ev.op ≠ .renamed)
    (hr : Renames staging' dst src) : Renames staging dst src := by
  cases h with
  | fresh =>
    rcases renames_insert.mp hr with ⟨_, ho, _⟩ | ⟨_, hr⟩
    · exact (he ho).elim
    · exact hr
  | folded hl _ _ hf =>
    obtain ⟨_, _, _, rfl⟩ := fold_eq_some hf
    rw [stageRemoval] at hr
    split at hr
    · exact (renames_erase.mp hr).2
    · rcases renames_insert.mp hr with ⟨_, ho, _⟩ | ⟨_, hr⟩
      · cases ho
      · exact (renames_erase.mp hr).2
  | held =>
    rcases renames_insert.mp hr with ⟨_, ho, _⟩ | ⟨_, hr⟩
    · cases ho
    · exact hr
  | @updated it hl =>
    rcases renames_insert.mp hr with ⟨rfl, ho, hs⟩ | ⟨_, hr⟩
    · obtain ⟨hi, hsrc⟩ := mergeOp_renamed he ho
      exact ⟨it, hl, hi, hsrc.symm.trans hs⟩
    · exact hr

lemma Outcome.renames_of_renamed (h : Outcome native wc now staging ev staging') (he : ev.op = .renamed)
    (dst src : Path) :
    Renames staging' dst src ↔ (dst = ev.rel ∧ ev.oldRel = src) ∨ (dst ≠ ev.rel ∧ Renames staging dst src) := by
  cases h with
  | fresh => simp [renames_insert, newItem, he]
  | folded _ _ hd => simp [he] at hd
  | held _ _ _ ho => simp [he] at ho
  | updated => simp [renames_insert, refresh, mergeOp, he]

lemma redirect_injective {R R' : Path → Path → Prop} {old origin : Path} (hfix : ∀ k, ¬ R k k)
    (hinj : ∀ k k' src, R k src → R k' src → k = k')
    (hR : ∀ k src, R' k src ↔ (k = dst ∧ origin = src) ∨ (k ≠ dst ∧ k ≠ old ∧ R k src)) :
    ((∀ k, ¬ R' k k) ∧ ∀ k k' src, R' k src → R' k' src → k = k') ↔
      origin ≠ dst ∧ ∀ k, k ≠ dst → k ≠ old → ¬ R k origin := by
  have hdst : R' dst origin := (hR dst origin).mpr (.inl ⟨rfl, rfl⟩)
  constructor
  · rintro ⟨hfix', hinj'⟩
    refine ⟨?_, ?_⟩
    · intro h
      exact hfix' dst (h ▸ hdst)
    · intro k hk hold hr
      exact hk (hinj' k dst origin ((hR k origin).mpr (.inr ⟨hk, hold, hr⟩)) hdst)
  · rintro ⟨hne, hfree⟩
    refine ⟨?_, ?_⟩
    · intro k hr
      rcases (hR k k).mp hr with ⟨rfl, ho⟩ | ⟨_, _, hr⟩
      · exact hne ho
      · exact hfix k hr
    · intro k k' src hr hr'
      rcases (hR k src).mp hr with ⟨rfl, rfl⟩ | ⟨hk, hold, hr⟩
      · rcases (hR k' origin).mp hr' with ⟨rfl, _⟩ | ⟨hk', hold', hr'⟩
        · rfl
        · exact (hfree k' hk' hold' hr').elim
      · rcases (hR k' src).mp hr' with ⟨rfl, rfl⟩ | ⟨_, _, hr'⟩
        · exact (hfree k hk hold hr).elim
        · exact hinj k k' src hr hr'

lemma RenamesInjective.of_subset (hk : Keyed staging) (hk' : Keyed staging') (h : RenamesInjective staging)
    (hsub : ∀ dst src, Renames staging' dst src → Renames staging dst src) : RenamesInjective staging' := by
  obtain ⟨hfix, hinj⟩ := (renamesInjective_iff hk).mp h
  refine (renamesInjective_iff hk').mpr ⟨?_, ?_⟩
  · intro k hr
    exact hfix k (hsub k k hr)
  · intro k k' src hr hr'
    exact hinj k k' src (hsub k src hr) (hsub k' src hr')

lemma Replayed.op (h : Replayed staging ev ev') (ho : ev.op ≠ .renamed) : ev'.op ≠ .renamed := by
  rcases h with rfl | ⟨_, rfl, _⟩
  · exact ho
  · simp

lemma Replayed.eq (h : Replayed staging ev ev') (ho : ev.op = .renamed) : ev' = ev := by
  rcases h with rfl | ⟨hu, _⟩
  · rfl
  · simp [ho] at hu

section

variable (h : Collapse native staging ev staging' ev') (hn : native = true) (hr : ev.op = .renamed)
include h hn hr

lemma Collapse.redirect (hb : ¬ HeldBack staging ev) :
    staging' = staging.erase ev.oldRel ∧ ev'.op = .renamed ∧ ev'.rel = ev.rel ∧
      ev'.oldRel = renameOrigin staging ev := by
  cases h with
  | other hne => exact (hne hn hr).elim
  | uncertain _ _ hl hu => exact (hb ⟨_, hl, hu⟩).elim
  | first _ _ hl =>
    refine ⟨(erase_eq_self hl).symm, hr, rfl, ?_⟩
    rw [renameOrigin, hl]
  | hop _ _ hl _ hp => exact ⟨rfl, hr, rfl, by simp [renameOrigin, hl, hp]⟩
  | take _ _ hl _ hm =>
    simp only [StageItem.isMove, Bool.or_eq_false_iff, decide_eq_false_iff_not] at hm
    exact ⟨rfl, hr, rfl, by simp [renameOrigin, hl, hm.1]⟩

lemma Collapse.heldBack (hb : HeldBack staging ev) :
    staging' = staging ∧ ev' = { ev with op := .renameUncertain } := by
  obtain ⟨previous, hp, hu⟩ := hb
  cases h with
  | other hne => exact (hne hn hr).elim
  | uncertain => exact ⟨rfl, rfl⟩
  | first _ _ hl => simp [hl] at hp
  | hop _ _ hl hs ho =>
    obtain rfl := Option.mem_unique hl hp
    simp [hs, ho] at hu
  | take _ _ hl hs hm =>
    obtain rfl := Option.mem_unique hl hp
    rcases hu with hu | hu <;> simp [hs, hu, StageItem.isMove] at hm hu

end

lemma merge_renamesInjective (s : Service) (a : Arrival) (hn : s.nativeMover = true) (hk : Keyed s.staging)
    (hp : RenamesInjective s.staging) : RenamesInjective (merge s a).staging ↔ FreshOrigin s.staging a.ev := by
  have hk' := merge_keyed s a hk
  obtain ⟨hfix, hinj⟩ := (renamesInjective_iff hk).mp hp
  obtain ⟨staging, ev₁, ev₂, hc, hr, ho⟩ := addEventLocked_outcome a.disk a.now s a.ev
  change Outcome _ _ _ _ _ (merge s a).staging at ho
  by_cases hop : a.ev.op = .renamed
  · by_cases hb : HeldBack s.staging a.ev
    · obtain ⟨rfl, rfl⟩ := hc.heldBack hn hop hb
      refine iff_of_true ?_ (fun _ => .inl hb)
      exact hp.of_subset hk hk' fun _ _ => ho.renames_of_other (hr.op (by simp))
    · obtain ⟨rfl, hop₁, hrel, horigin⟩ := hc.redirect hn hop hb
      obtain rfl := hr.eq hop₁
      rw [renamesInjective_iff hk', FreshOrigin]
      simp only [hop, forall_const, hb, false_or]
      refine redirect_injective hfix hinj fun k src => ?_
      rw [ho.renames_of_renamed hop₁, hrel, horigin, renames_erase]
  · cases hc with
    | other =>
      refine iff_of_true ?_ (fun h => (hop h).elim)
      exact hp.of_subset hk hk' fun _ _ => ho.renames_of_other (hr.op hop)
    | first _ h | uncertain _ h | hop _ h | take _ h => exact (hop h).elim

/-- The staged renames stay injective without fixed points exactly when every free rename has a fresh origin. -/
theorem staged_renames_injective_iff (s : Service) (hn : s.nativeMover = true) (he : s.staging = ∅)
    (as : List Arrival) :
    (∀ pre, pre <+: as → RenamesInjective (run merge s pre).staging) ↔
      Admits merge (fun s a => FreshOrigin s.staging a.ev) s as := by
  have hkeyed : Keyed s.staging := by simp [Keyed, he]
  have hinj : RenamesInjective s.staging := by simp [RenamesInjective, he]
  refine along_iff_admits merge (I := fun s => s.nativeMover = true ∧ Keyed s.staging)
    (P := fun s => RenamesInjective s.staging) ?_ ?_ ⟨hn, hkeyed⟩ hinj as
  · rintro s a ⟨hn, hk⟩
    exact ⟨by rw [merge, addEventLocked_nativeMover, hn], merge_keyed s a hk⟩
  · rintro s a ⟨hn, hk⟩ hp
    exact merge_renamesInjective s a hn hk hp

def bareDisk : Disk where
  lstat _ := .error .notExist
  stat _ := .error .notExist
  hash _ := none

def movedEvent (old new : String) : Arrival where
  disk := bareDisk
  now := 0
  ev := { path := new.toList, rel := new.toList, oldRel := old.toList, op := .renamed, identityVerified := true }

theorem staged_renames_injective_on_chain :
    (run merge { nativeMover := true } [movedEvent "a" "b", movedEvent "b" "c"]).staging.keys = ["c".toList] ∧
      ∀ pre, pre <+: [movedEvent "a" "b", movedEvent "b" "c"] →
        RenamesInjective (run merge { nativeMover := true } pre).staging := by
  refine ⟨by decide, (staged_renames_injective_iff { nativeMover := true } rfl rfl _).mpr ⟨?_, ?_, trivial⟩⟩
  · intro _
    refine .inr ⟨by decide, ?_⟩
    rintro k _ _ ⟨it, hl, _⟩
    cases hl
  · intro _
    refine .inr ⟨by decide, ?_⟩
    rintro k _ hb ⟨it, hl, _⟩
    have hs : (merge { nativeMover := true } (movedEvent "a" "b")).staging =
        (∅ : Staging).insert "b".toList (newItem 0 (movedEvent "a" "b").ev) := rfl
    rw [hs, lookup_insert_eq_some] at hl
    rcases hl with ⟨hk, _⟩ | ⟨_, hl⟩
    · exact hb hk
    · cases hl

theorem rename_there_and_back_not_injective :
    ¬ RenamesInjective (run merge { nativeMover := true } [movedEvent "a" "b", movedEvent "b" "a"]).staging := by
  intro h
  exact h.1 "a" (newItem 0 (movedEvent "a" "a").ev) rfl rfl rfl

end FileES.Commit
