import FileES.Authority.Publisher
import FileES.Authority.Rights

/-! The access that a view lists for a repository, after each change that operations make to views. -/

namespace FileES.Authority

open Go Lib.Fallible List Option

variable {env : Env} {id repoID realmID : Str} {ps : List Projected} {v v' : View}

lemma View.unique (hv : v.validate env = true) : ∀ p ∈ v.repositories, ∀ q ∈ v.repositories, p.repoID = q.repoID → p = q := by
  simp only [View.validate, Bool.and_eq_true, decide_eq_true_eq] at hv
  exact inj_on_of_nodup_map hv.1.2

lemma Files.view_valid {f : Files} {client : Str} (h : f.view env client = some v) : v.validate env = true :=
  (filter_eq_some_iff.mp h).2

variable {g : Projected → Projected}

lemma find?_replaced (hg : ∀ p, (g p).repoID = p.repoID) : (replaced repoID g ps).find? (fun p => p.repoID = id) =
      (ps.find? (fun p => p.repoID = id)).map (fun p => if p.repoID = repoID then g p else p) := by
  have hkeep : (fun p : Projected => decide (p.repoID = id)) ∘ (fun p => if p.repoID = repoID then g p else p) =
      fun p => decide (p.repoID = id) := by
    funext p
    simp only [Function.comp]
    split
    · rw [hg]
    · rfl
  rw [replaced, find?_map, hkeep]

lemma accessIn_replaced (hg : ∀ p, (g p).repoID = p.repoID) : accessIn (replaced repoID g ps) id =
    if id = repoID then (ps.find? (fun p => p.repoID = id)).map (fun p => (g p).access) else accessIn ps id := by
  rw [accessIn, find?_replaced hg, Option.map_map, accessIn]
  cases hp : ps.find? (fun p => p.repoID = id) with
  | none => simp
  | some p =>
    have hid : p.repoID = id := by simpa using find?_some hp
    simp only [map_some, Function.comp, hid]
    split <;> rfl

lemma accessIn_filter : accessIn (ps.filter (fun p => p.repoID ≠ repoID)) id = if id = repoID then none else accessIn ps id := by
  rw [accessIn, accessIn, find?_filter]
  split
  · rename_i hid
    rw [map_eq_none_iff, find?_eq_none]
    intro p _
    simp [hid]
  · rename_i hid
    congr 2
    funext p
    rw [Bool.eq_iff_iff]
    simp only [decide_eq_true_eq, and_iff_right_iff_imp]
    rintro rfl
    exact hid

lemma accessIn_byRepoID_append {p : Projected} (hu : ∀ p' ∈ byRepoID (ps ++ [p]), ∀ q ∈ byRepoID (ps ++ [p]),
    p'.repoID = q.repoID → p' = q) (hp : ps.find? (fun q => q.repoID = p.repoID) = none) :
    accessIn (byRepoID (ps ++ [p])) id = if id = p.repoID then some p.access else accessIn ps id := by
  have hmem : ∀ q, q ∈ byRepoID (ps ++ [p]) ↔ q ∈ ps ∨ q = p := by
    intro q
    rw [byRepoID, mem_insertionSort, mem_append, mem_singleton]
  have hps : ∀ p' ∈ ps, ∀ q ∈ ps, p'.repoID = q.repoID → p' = q :=
    fun p' hp' q hq => hu p' ((hmem p').mpr (.inl hp')) q ((hmem q).mpr (.inl hq))
  apply ext
  intro access
  rw [accessIn_eq_some hu]
  split
  · rename_i hid
    rw [some.injEq]
    constructor
    · rintro ⟨q, hq, hqid, rfl⟩
      rw [hu q hq p ((hmem p).mpr (.inr rfl)) (hqid.trans hid)]
    · exact fun h => ⟨p, (hmem p).mpr (.inr rfl), hid.symm, h⟩
  · rename_i hid
    rw [accessIn_eq_some hps]
    constructor
    · rintro ⟨q, hq, hqid, ha⟩
      rcases (hmem q).mp hq with hq | rfl
      · exact ⟨q, hq, hqid, ha⟩
      · exact absurd hqid.symm hid
    · rintro ⟨q, hq, h⟩
      exact ⟨q, (hmem q).mpr (.inl hq), h⟩

variable {url old : Str} {record : Repository} {next : Option View}

lemma bump_repositories (v : View) (ps : List Projected) : (v.bump ps).repositories = ps := rfl

structure SameOwner (v v' : View) : Prop where
  realmID : v'.realmID = v.realmID
  role : v'.role = v.role

lemma offer_sameOwner (h : offer repoID realmID url record v = .ok next) : SameOwner v (next.getD v) := by
  rw [offer] at h
  split at h
  · cases h
    exact ⟨rfl, rfl⟩
  · split at h
    · cases h
      exact ⟨rfl, rfl⟩
    · obtain ⟨_, _, _, _, h⟩ := bind₂_ok.mp h
      cases h
      split <;> exact ⟨rfl, rfl⟩

lemma offer_listing (h : offer repoID realmID url record v = .ok next) (hv : (next.getD v).validate env = true) :
    accessIn (next.getD v).repositories id =
      if id = repoID ∧ v.realmID = realmID then some (ownerAccess record) else accessIn v.repositories id := by
  rw [offer] at h
  split at h
  · rename_i hrealm
    cases h
    rw [if_neg (fun h => hrealm h.2)]
    rfl
  · rename_i hrealm
    rw [not_not] at hrealm
    split at h
    · rename_i hnone
      cases h
      have hu := View.unique hv
      rw [getD_some, bump_repositories] at hu ⊢
      rw [accessIn_byRepoID_append hu hnone]
      simp only [hrealm, and_true]
      rfl
    · rename_i p hp
      obtain ⟨_, _, _, _, h⟩ := bind₂_ok.mp h
      cases h
      split
      · rename_i hsame
        rw [getD_none]
        split
        · rename_i hid
          rw [← entry_access, hid.1, hp, ← hsame]
          rfl
        · rfl
      · rw [getD_some, bump_repositories, accessIn_replaced (g := offered record) (fun _ => rfl)]
        simp only [hrealm, and_true]
        split
        · rename_i hid
          have hp' : v.repositories.find? (fun p => p.repoID = id) = some p := hid ▸ hp
          rw [hp']
          rfl
        · rfl

lemma heal_sameOwner (h : heal repoID realmID record v = .ok next) : SameOwner v (next.getD v) := by
  cases h
  split <;> exact ⟨rfl, rfl⟩

lemma heal_listing (h : heal repoID realmID record v = .ok next) :
    accessIn (next.getD v).repositories id = if id = repoID ∧ v.realmID = realmID ∧ record.readOnly = true
      then (accessIn v.repositories id).map (fun _ => .r) else accessIn v.repositories id := by
  have hreplaced : v.realmID = realmID → accessIn (replaced repoID (healed record) v.repositories) id =
      if id = repoID ∧ v.realmID = realmID ∧ record.readOnly = true
        then (accessIn v.repositories id).map (fun _ => .r) else accessIn v.repositories id := by
    intro hrealm
    rw [accessIn_replaced (g := healed record) (fun _ => rfl)]
    by_cases hid : id = repoID
    · cases hro : record.readOnly with
      | true =>
        rw [if_pos hid, if_pos ⟨hid, hrealm, rfl⟩, accessIn, Option.map_map]
        simp [healed, hro, Function.comp_def]
      | false =>
        rw [if_pos hid, if_neg (fun h => absurd h.2.2 (by decide)), accessIn]
        simp [healed, hro]
    · rw [if_neg hid, if_neg (fun h => hid h.1)]
  cases h
  split
  · rename_i hor
    rw [getD_none]
    by_cases hrealm : v.realmID = realmID
    · rw [← hreplaced hrealm, hor.resolve_left (not_not.mpr hrealm)]
    · rw [if_neg (fun h => hrealm h.2.1)]
  · rename_i hor
    rw [not_or, not_not] at hor
    exact hreplaced hor.1

lemma withdrawn_sameOwner (h : withdrawn repoID v = .ok next) : SameOwner v (next.getD v) := by
  cases h
  split <;> exact ⟨rfl, rfl⟩

lemma withdrawn_listing (h : withdrawn repoID v = .ok next) :
    accessIn (next.getD v).repositories id = if id = repoID then none else accessIn v.repositories id := by
  cases h
  split
  · exact accessIn_filter
  · rename_i hnone
    rw [getD_none]
    split
    · rename_i hid
      rw [Bool.not_eq_true, isSome_eq_false_iff, isNone_iff_eq_none] at hnone
      rw [← entry_access, hid, hnone]
      rfl
    · rfl

lemma reassign_sameOwner (h : reassign repoID old record v = .ok next) : SameOwner v (next.getD v) := by
  rw [reassign] at h
  split at h
  · exact withdrawn_sameOwner h
  · split at h
    · split at h <;>
      · cases h
        exact ⟨rfl, rfl⟩
    · cases h
      exact ⟨rfl, rfl⟩

lemma reassign_listing (h : reassign repoID old record v = .ok next) (hv : (next.getD v).validate env = true) :
    accessIn (next.getD v).repositories id = if id = repoID ∧ v.realmID = old then none
      else if id = repoID ∧ v.realmID = record.ownerRealmID then some (transferAccess record)
      else accessIn v.repositories id := by
  rw [reassign] at h
  split at h
  · rename_i hold
    rw [withdrawn_listing h]
    by_cases hid : id = repoID
    · rw [if_pos hid, if_pos ⟨hid, hold⟩]
    · rw [if_neg hid, if_neg (fun h => hid h.1), if_neg (fun h => hid h.1)]
  · rename_i hold
    rw [if_neg (fun h => hold h.2)]
    split at h
    · rename_i hnew
      split at h
      · rename_i p hp
        cases h
        rw [getD_some, bump_repositories, accessIn_replaced (g := transferred record) (fun _ => rfl)]
        simp only [hnew, and_true]
        split
        · rename_i hid
          have hp' : v.repositories.find? (fun p => p.repoID = id) = some p := hid ▸ hp
          rw [hp']
          rfl
        · rfl
      · rename_i hnone
        cases h
        have hu := View.unique hv
        rw [getD_some, bump_repositories] at hu ⊢
        rw [accessIn_byRepoID_append hu hnone]
        simp only [hnew, and_true]
        rfl
    · rename_i hnew
      cases h
      rw [if_neg (fun h => hnew h.2)]
      rfl

end FileES.Authority
