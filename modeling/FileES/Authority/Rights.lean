import FileES.Authority.Projection

/-! The rights that the two renderings of the authz file give. -/

namespace FileES.Authority

open Go Lib.Fallible Lib.Maps Repository List Option AList

variable {env : Env} {f : Files} {client id : Str}

def entitlement (env : Env) (f : Files) (client id : Str) : Option Access := do
  let c ← (activeClients f).lookup client
  let repo ← (liveRepositories f).lookup id
  let view ← f.view env client
  projectedAccess (activeGrants f) view.realmID view.role c.mobile (view.entry id) id repo

def ownerShare (env : Env) (f : Files) (client id : Str) : Option Access := do
  let repo ← (liveRepositories f).lookup id
  let view ← f.view env client
  if ownerMember repo id view then some (ownerAccess repo) else none

def rank : Option Access → ℕ
  | none => 0
  | some .r => 1
  | some .rw => 2

lemma mem_sortedStrings {l : List Str} {a : Str} : a ∈ sortedStrings l ↔ a ∈ l := mem_insertionSort _

variable {V : Type} {a : Authz} {repo : Repository}

lemma lookup_filterMap_sections (m : Map Str V) (g : Str → V → List Rule) (l : List Str) :
    (l.filterMap (fun id => (m.lookup id).map (fun v => (id, g id v)))).lookup id =
      if id ∈ l then (m.lookup id).map (g id) else none := by
  induction l with
  | nil => rfl
  | cons k l ih =>
    by_cases hk : id = k
    · subst hk
      cases hm : m.lookup id with
      | none =>
        rw [filterMap_cons_none (by simp [hm]), ih, hm]
        simp
      | some v =>
        rw [filterMap_cons_some (b := (id, g id v)) (by simp [hm])]
        simp
    · cases hm : m.lookup k with
      | none =>
        rw [filterMap_cons_none (by simp [hm]), ih]
        simp [hk]
      | some v =>
        rw [filterMap_cons_some (b := (k, g k v)) (by simp [hm]), lookup_cons, ih, beq_false_of_ne hk]
        simp [hk]

lemma lookup_sections (m : Map Str V) (g : Str → V → List Rule) :
    ((sortedStrings m.keys).filterMap (fun id => (m.lookup id).map (fun v => (id, g id v)))).lookup id =
      (m.lookup id).map (g id) := by
  rw [lookup_filterMap_sections]
  split
  · rfl
  · rename_i hnot
    rw [mem_sortedStrings] at hnot
    rw [lookup_eq_none.mpr hnot, map_none]

lemma access_of_lookup {rules : Option (List Rule)} (h : a.lookup id = rules) : a.access client id =
    if (rules.getD []).any (Rule.gives client .rw) then some .rw
    else if (rules.getD []).any (Rule.gives client .r) then some .r
    else none := by
  subst h
  rfl

lemma mem_ownerMembers :
    client ∈ ownerMembers env f id repo ↔ (f.view env client).any (ownerMember repo id) = true := by
  rw [ownerMembers, mem_sortedStrings, mem_filter, and_iff_right_iff_imp]
  intro h
  by_contra hnot
  rw [Files.view, lookup_eq_none.mpr hnot] at h
  cases h

lemma renderAuthz_access (h : renderAuthz env f = .ok a) : a.access client id = ownerShare env f client id := by
  obtain ⟨_, _, h⟩ := bind_ok.mp h
  cases h
  rw [access_of_lookup (lookup_sections _ _)]
  unfold ownerShare
  cases hr : (liveRepositories f).lookup id with
  | none => rfl
  | some repo =>
    have hmem : client ∈ ownerMembers env f id repo ↔ _ := mem_ownerMembers
    cases hv : f.view env client with
    | none =>
      rw [hv] at hmem
      simp [Rule.gives, hmem]
    | some view =>
      rw [hv, any_some] at hmem
      by_cases ho : ownerMember repo id view = true
      · cases ha : ownerAccess repo <;> simp [Rule.gives, hmem, ho, ha]
      · simp [Rule.gives, hmem, ho]

section

def Repository.rights (r : Repository) : Str × Purpose × Option ArchivePolicy :=
  (r.ownerRealmID, r.purpose, r.archivePolicy)

variable {r r' : Repository} {grants : Map (Str × Str) Access} {realmID : Str} {role : Role}
  {mobile : Bool} {current : Option Projected} {m m' repositories : Repositories} {access : Access} {view : View}

lemma readOnly_of_rights (h : r.rights = r'.rights) : r.readOnly = r'.readOnly := by
  simp only [rights, Prod.mk.injEq] at h
  obtain ⟨_, hpurpose, harchive⟩ := h
  rw [readOnly, readOnly, archiveReadOnly, archiveReadOnly, hpurpose, harchive]

lemma projectedAccess_of_rights (h : r.rights = r'.rights) :
    projectedAccess grants realmID role mobile current id r = projectedAccess grants realmID role mobile current id r' := by
  have hro := readOnly_of_rights h
  simp only [rights, Prod.mk.injEq] at h
  obtain ⟨howner, hpurpose, _⟩ := h
  simp only [projectedAccess, baseAccess, clientAccess, limited, howner, hpurpose, hro]

def SameRights (m m' : Repositories) : Prop := ∀ id, (m.lookup id).map Repository.rights = (m'.lookup id).map Repository.rights

lemma SameRights.insert (hr : m.lookup id = some r) (h : r.rights = r'.rights) : SameRights m (m.insert id r') := by
  intro k
  by_cases hk : k = id
  · subst hk
    rw [hr, lookup_insert, map_some, map_some, h]
  · rw [lookup_insert_ne hk]

lemma sameRights_projectShelf {record : Option Shares.UploadRecord} (h : projectShelf m record = .ok m') :
    SameRights m m' := by
  unfold projectShelf at h
  split at h
  · cases h
  · obtain ⟨_, _, h⟩ := bind_ok.mp h
    split at h
    · cases h
      exact fun _ => rfl
    · split at h
      · cases h
        exact fun _ => rfl
      · split at h
        · rename_i hshelf _
          obtain ⟨_, _, _, _, h⟩ := bind₂_ok.mp h
          cases h
          exact SameRights.insert hshelf rfl
        · cases h
          exact fun _ => rfl

lemma lookup_mapVal (g : V → V) (m : Map Str V) : (mapVal g m).lookup id = (m.lookup id).map g := by
  cases hm : m.lookup id with
  | some v => exact lookup_mapVal_eq_some.mpr ⟨v, hm, rfl⟩
  | none =>
    cases hl : (mapVal g m).lookup id with
    | none => rfl
    | some v =>
      obtain ⟨u, hu, _⟩ := lookup_mapVal_eq_some.mp hl
      rw [hm] at hu
      cases hu

lemma resetParent_rights (r : Repository) : (resetParent r).rights = r.rights := by
  unfold resetParent
  split <;> rfl

lemma sameRights_foldlM {records : List (Option Shares.UploadRecord)}
    (h : records.foldlM projectShelf m = .ok m') : SameRights m m' := by
  induction records generalizing m with
  | nil =>
    cases h
    exact fun _ => rfl
  | cons record records ih =>
    rw [foldlM_cons] at h
    obtain ⟨n, hstep, h⟩ := bind_ok.mp h
    exact fun id => (sameRights_projectShelf hstep id).trans (ih h id)

lemma sameRights_projectShelfParents {channels : Option (List (Option Shares.UploadRecord))}
    (h : projectShelfParents channels m = .ok m') : SameRights m m' := by
  unfold projectShelfParents at h
  split at h
  · cases h
    exact fun _ => rfl
  · intro id
    rw [← sameRights_foldlM h id, lookup_mapVal, Option.map_map]
    exact congrArg (Option.map · (m.lookup id)) (funext fun r => (resetParent_rights r).symm)

lemma entry_access (v : View) : (v.entry id).map Projected.access = accessIn v.repositories id := rfl

lemma accessIn_eq_some {next : List Projected} (hu : ∀ p ∈ next, ∀ q ∈ next, p.repoID = q.repoID → p = q) :
    accessIn next id = some access ↔ ∃ p ∈ next, p.repoID = id ∧ p.access = access := by
  unfold accessIn
  rw [map_eq_some_iff]
  constructor
  · rintro ⟨p, hp, ha⟩
    exact ⟨p, mem_of_find?_eq_some hp, by simpa using find?_some hp, ha⟩
  · rintro ⟨p, hp, hid, ha⟩
    cases hf : next.find? (fun p => p.repoID = id) with
    | none => exact absurd hid (by simpa using find?_eq_none.mp hf p hp)
    | some q =>
      refine ⟨q, rfl, ?_⟩
      have hq : q.repoID = id := by simpa using find?_some hf
      rw [hu q (mem_of_find?_eq_some hf) p hp (hq.trans hid.symm), ha]

lemma mem_projectedRepositories {p : Projected} : p ∈ projectedRepositories repositories grants mobile view ↔
      ∃ id repo access, repositories.lookup id = some repo ∧
        projectedAccess grants view.realmID view.role mobile (view.entry id) id repo = some access ∧
        p = projected id repo mobile (view.entry id) access := by
  rw [projectedRepositories, byRepoID, mem_insertionSort, mem_filterMap]
  constructor
  · rintro ⟨e, he, hp⟩
    obtain ⟨access, ha, rfl⟩ := map_eq_some_iff.mp hp
    exact ⟨e.1, e.2, access, mem_entries_iff.mp he, ha, rfl⟩
  · rintro ⟨id, repo, access, hr, ha, rfl⟩
    exact ⟨⟨id, repo⟩, mem_entries_iff.mpr hr, by rw [ha, map_some]⟩

lemma projectedRepositories_unique (p : Projected)
    (hp : p ∈ projectedRepositories repositories grants mobile view) (q : Projected)
    (hq : q ∈ projectedRepositories repositories grants mobile view) (h : p.repoID = q.repoID) : p = q := by
  obtain ⟨id, repo, access, hr, ha, rfl⟩ := mem_projectedRepositories.mp hp
  obtain ⟨id', repo', access', hr', ha', rfl⟩ := mem_projectedRepositories.mp hq
  obtain rfl : id = id' := h
  rw [hr, some.injEq] at hr'
  subst hr'
  rw [ha, some.injEq] at ha'
  rw [ha']

lemma accessIn_projectedRepositories : accessIn (projectedRepositories repositories grants mobile view) id =
      (repositories.lookup id).bind (projectedAccess grants view.realmID view.role mobile (view.entry id) id) := by
  apply Option.ext
  intro access
  rw [accessIn_eq_some projectedRepositories_unique, bind_eq_some_iff]
  constructor
  · rintro ⟨p, hp, hid, ha⟩
    obtain ⟨id', repo, access', hr, ha', rfl⟩ := mem_projectedRepositories.mp hp
    obtain rfl : id' = id := hid
    obtain rfl : access' = access := ha
    exact ⟨repo, hr, ha'⟩
  · rintro ⟨repo, hr, ha⟩
    exact ⟨_, mem_projectedRepositories.mpr ⟨id, repo, access, hr, ha, rfl⟩, rfl, rfl⟩

lemma readOnly_projectedAccess (hro : repo.readOnly = true)
    (h : projectedAccess grants realmID role mobile current id repo = some access) : access = .r := by
  unfold projectedAccess at h
  obtain ⟨base, _, h⟩ := bind_eq_some_iff.mp h
  obtain ⟨a, _, h⟩ := bind_eq_some_iff.mp h
  cases h
  simp [limited, hro]

end

structure Planned (env : Env) (f : Files) (repositories : Repositories) (plans : List Plan) : Prop where
  exact : ∀ plan ∈ plans, ∃ c view, (activeClients f).lookup plan.client = some c ∧ f.view env plan.client = some view ∧
    plan.next = projectedRepositories repositories (activeGrants f) c.mobile view
  every : ∀ client c, (activeClients f).lookup client = some c → ∃ plan ∈ plans, plan.client = client

variable {repositories : Repositories} {plan : Plan} {channels : Option (List (Option Shares.UploadRecord))}

lemma projectClient_ok {grants : Map (Str × Str) Access} {e : Sigma fun _ : Str => Client}
    (h : projectClient env f repositories grants e = .ok plan) :
    ∃ view realm, f.view env e.1 = some view ∧ view.realmID = e.2.realmID ∧ checkRealm f view = .ok realm ∧
      plan = planFor repositories grants e.1 e.2.mobile view realm ∧ plan.view.all (View.validate env) = true := by
  unfold projectClient at h
  split at h
  · cases h
  · rename_i view hv
    obtain ⟨_, hrealm, realm, hr, h⟩ := bind₂_ok.mp h
    unfold checkPlan at h
    split at h
    · rename_i hvalid
      cases h
      exact ⟨view, realm, hv, by simpa using require_ok.mp hrealm, hr, rfl, hvalid⟩
    · cases h

lemma planned_of_mapM {plans : List Plan}
    (h : (sortedClients (activeClients f)).mapM (projectClient env f repositories (activeGrants f)) = .ok plans) :
    Planned env f repositories plans := by
  constructor
  · intro plan hplan
    obtain ⟨e, he, hp⟩ := (mem_of_mapM_eq_ok h).mp hplan
    obtain ⟨view, realm, hv, _, _, rfl, _⟩ := projectClient_ok hp
    exact ⟨e.2, view, mem_entries_iff.mp ((mem_insertionSort _).mp he), hv, rfl⟩
  · intro client c hc
    obtain ⟨plan, hplan, hp⟩ := exists_of_mapM_eq_ok h ((mem_insertionSort _).mpr (mem_entries_iff.mpr hc))
    obtain ⟨view, realm, _, _, _, rfl, _⟩ := projectClient_ok hp
    exact ⟨_, hplan, rfl⟩

variable {plans : List Plan}

lemma accessIn_projection {c : Client} {view : View} (hs : SameRights (liveRepositories f) repositories)
    (hc : (activeClients f).lookup client = some c) (hv : f.view env client = some view) :
    accessIn (projectedRepositories repositories (activeGrants f) c.mobile view) id = entitlement env f client id := by
  have hid := hs id
  rw [accessIn_projectedRepositories, entitlement, hc, hv]
  cases hr : (liveRepositories f).lookup id with
  | none =>
    rw [hr, map_none, eq_comm, map_eq_none_iff] at hid
    rw [hid]
    rfl
  | some repo =>
    rw [hr, map_some, eq_comm, map_eq_some_iff] at hid
    obtain ⟨repo', hr', hrights⟩ := hid
    rw [hr']
    exact projectedAccess_of_rights hrights

section

variable (h : Planned env f repositories plans) (hs : SameRights (liveRepositories f) repositories)
include h hs

lemma Planned.accessIn (hp : plan ∈ plans) : accessIn plan.next id = entitlement env f plan.client id := by
  obtain ⟨c, view, hc, hv, hnext⟩ := h.exact plan hp
  rw [hnext]
  exact accessIn_projection hs hc hv

lemma Planned.mem_members {group : Group} : client ∈ members (activeClients f) plans id repo group ↔
      ∃ c access, (activeClients f).lookup client = some c ∧ entitlement env f client id = some access ∧
        groupOf repo (some c) access = group := by
  rw [members, mem_sortedStrings, List.mem_map]
  constructor
  · rintro ⟨plan, hplan, rfl⟩
    obtain ⟨hp, hany⟩ := mem_filter.mp hplan
    obtain ⟨c, view, hc, _, _⟩ := h.exact plan hp
    rw [h.accessIn hs hp, Option.any_eq_true] at hany
    obtain ⟨access, ha, hg⟩ := hany
    rw [hc, decide_eq_true_eq] at hg
    exact ⟨c, access, hc, ha, hg⟩
  · rintro ⟨c, access, hc, ha, hg⟩
    obtain ⟨plan, hp, rfl⟩ := h.every client c hc
    refine ⟨plan, mem_filter.mpr ⟨hp, ?_⟩, rfl⟩
    rw [h.accessIn hs hp, ha, hc]
    simpa using hg

end

lemma entitlement_repository {access : Access} (h : entitlement env f client id = some access) :
    ∃ c repo view, (activeClients f).lookup client = some c ∧ (liveRepositories f).lookup id = some repo ∧
      f.view env client = some view ∧
      projectedAccess (activeGrants f) view.realmID view.role c.mobile (view.entry id) id repo = some access := by
  unfold entitlement at h
  obtain ⟨c, hc, h⟩ := bind_eq_some_iff.mp h
  obtain ⟨repo, hr, h⟩ := bind_eq_some_iff.mp h
  obtain ⟨view, hv, h⟩ := bind_eq_some_iff.mp h
  exact ⟨c, repo, view, hc, hr, hv, h⟩

lemma Planned.access (h : Planned env f repositories plans) (hs : SameRights (liveRepositories f) repositories) :
    (renderCanonicalGrantAuthz repositories (activeClients f) plans).access client id = entitlement env f client id := by
  unfold renderCanonicalGrantAuthz
  rw [access_of_lookup (lookup_sections repositories (fun id repo => [⟨members (activeClients f) plans id repo .owner, .rw⟩,
    ⟨members (activeClients f) plans id repo .writer, .rw⟩, ⟨members (activeClients f) plans id repo .reader, .r⟩]))]
  have hid := hs id
  cases he : entitlement env f client id with
  | none =>
    cases hr : repositories.lookup id with
    | none => rfl
    | some repo =>
      have hno : ∀ group, client ∉ members (activeClients f) plans id repo group := by
        intro group hmem
        obtain ⟨c, access, _, ha, _⟩ := (h.mem_members hs).mp hmem
        rw [he] at ha
        cases ha
      simp [Rule.gives, hno]
  | some access =>
    obtain ⟨c, repo', view, hc, hr', _, hproj⟩ := entitlement_repository he
    rw [hr', map_some, eq_comm, map_eq_some_iff] at hid
    obtain ⟨repo, hr, hrights⟩ := hid
    have hmem : ∀ group, client ∈ members (activeClients f) plans id repo group ↔ groupOf repo (some c) access = group := by
      intro group
      rw [h.mem_members hs]
      constructor
      · rintro ⟨c', access', hc', ha', hg⟩
        rw [hc, some.injEq] at hc'
        rw [he, some.injEq] at ha'
        rw [hc', ha']
        exact hg
      · exact fun hg => ⟨c, access, hc, he, hg⟩
    rw [hr]
    cases access with
    | r =>
      have hg : groupOf repo (some c) .r = .reader := by simp [groupOf]
      simp [Rule.gives, hmem, hg]
    | rw =>
      have hro : repo.readOnly = false := by
        by_contra hro
        rw [readOnly_of_rights hrights, Bool.not_eq_false] at hro
        cases readOnly_projectedAccess hro hproj
      have hg : groupOf repo (some c) .rw = .owner ∨ groupOf repo (some c) .rw = .writer := by
        unfold groupOf
        simp only [hro, Bool.or_false, reduceCtorEq, decide_false, Bool.false_eq_true, if_false]
        split
        · exact .inl rfl
        · exact .inr rfl
      rcases hg with hg | hg <;> simp [Rule.gives, hmem, hg]

lemma canonicalAuthz_ok (h : canonicalAuthz env channels f = .ok a) :
    ∃ repositories plans, projectShelfParents channels (liveRepositories f) = .ok repositories ∧
      (sortedClients (activeClients f)).mapM (projectClient env f repositories (activeGrants f)) = .ok plans ∧
      a = renderCanonicalGrantAuthz repositories (activeClients f) plans := by
  obtain ⟨model, hmodel, h⟩ := bind_ok.mp h
  obtain ⟨_, _, _, _, _, _, hmodel⟩ := bind₃_ok.mp hmodel
  cases hmodel
  obtain ⟨repositories, hshelves, plans, hplans, h⟩ := bind₂_ok.mp h
  cases h
  exact ⟨repositories, plans, hshelves, hplans, rfl⟩

lemma canonicalAuthz_access (h : canonicalAuthz env channels f = .ok a) :
    a.access client id = entitlement env f client id := by
  obtain ⟨repositories, plans, hshelves, hplans, rfl⟩ := canonicalAuthz_ok h
  exact (planned_of_mapM hplans).access (sameRights_projectShelfParents hshelves)

end FileES.Authority
