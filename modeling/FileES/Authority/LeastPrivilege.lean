import FileES.Authority.Agreement

/-! Who may write and who may read according to the canonical rendering of the authz file. -/

namespace FileES.Authority

open Go Lib.Fallible Lib.Maps List Option

variable {env : Env} {channels : Option (List (Option Shares.UploadRecord))} {f : Files} {a : Authz} {client id : Str}

structure Known (env : Env) (f : Files) (client id : Str) (c : Client) (repo : Repository) (v : View) : Prop where
  active : (activeClients f).lookup client = some c
  repository : (liveRepositories f).lookup id = some repo
  view : f.view env client = some v

structure MayWrite (f : Files) (id : Str) (c : Client) (repo : Repository) (v : View) : Prop where
  entitled : repo.ownerRealmID = c.realmID ∨ (activeGrants f).lookup (id, c.realmID) = some .rw
  role : v.role ≠ .ro
  shelf : repo.purpose ≠ .uploadShelf
  archive : repo.archiveReadOnly = false
  mobile : c.mobile = true → repo.purpose = .none ∧ accessIn v.repositories id = some .rw

structure MayRead (f : Files) (id : Str) (c : Client) (repo : Repository) (v : View) : Prop where
  entitled : repo.ownerRealmID = c.realmID ∨ ((activeGrants f).lookup (id, c.realmID)).isSome = true
  mobile : c.mobile = true → (accessIn v.repositories id).isSome = true

variable {grants : Map (Str × Str) Access} {realmID : Str} {role : Role} {mobile : Bool} {repo : Repository}
  {v : View} {base access : Access}

lemma baseAccess_rw : baseAccess grants realmID id repo = some .rw ↔
    repo.ownerRealmID = realmID ∨ grants.lookup (id, realmID) = some .rw := by
  rw [baseAccess]
  split
  · rename_i howner
    simp [howner]
  · rename_i howner
    simp [howner]

lemma baseAccess_isSome : (baseAccess grants realmID id repo).isSome = true ↔
    repo.ownerRealmID = realmID ∨ (grants.lookup (id, realmID)).isSome = true := by
  rw [baseAccess]
  split
  · rename_i howner
    simp [howner]
  · rename_i howner
    simp [howner]

lemma limited_rw : limited role repo access = .rw ↔ access = .rw ∧ role ≠ .ro ∧ repo.readOnly = false := by
  rw [limited]
  cases role <;> cases repo.readOnly <;> cases access <;> simp

lemma clientAccess_rw : clientAccess mobile repo (v.entry id) base = some .rw ↔
    base = .rw ∧ (mobile = true → repo.purpose = .none ∧ accessIn v.repositories id = some .rw) := by
  rw [clientAccess_listed]
  cases mobile with
  | false => simp
  | true =>
    by_cases hp : repo.purpose = .none
    · rcases accessIn v.repositories id with _ | _ | _ <;> simp [hp]
    · simp [hp]

lemma projectedAccess_rw : projectedAccess grants realmID role mobile (v.entry id) id repo = some .rw ↔
    (repo.ownerRealmID = realmID ∨ grants.lookup (id, realmID) = some .rw) ∧ role ≠ .ro ∧ repo.readOnly = false ∧
      (mobile = true → repo.purpose = .none ∧ accessIn v.repositories id = some .rw) := by
  rw [projectedAccess, ← baseAccess_rw, bind_eq_bind, bind_eq_some_iff]
  constructor
  · rintro ⟨base, hbase, h⟩
    obtain ⟨access, haccess, h⟩ := bind_eq_some_iff.mp h
    obtain ⟨rfl, hrole, hro⟩ := limited_rw.mp (some.inj h)
    obtain ⟨rfl, hmobile⟩ := clientAccess_rw.mp haccess
    exact ⟨hbase, hrole, hro, hmobile⟩
  · rintro ⟨hbase, hrole, hro, hmobile⟩
    refine ⟨.rw, hbase, bind_eq_some_iff.mpr ⟨.rw, clientAccess_rw.mpr ⟨rfl, hmobile⟩, ?_⟩⟩
    exact congrArg some (limited_rw.mpr ⟨rfl, hrole, hro⟩)

lemma projectedAccess_some (h : projectedAccess grants realmID role mobile (v.entry id) id repo = some access) :
    (repo.ownerRealmID = realmID ∨ (grants.lookup (id, realmID)).isSome = true) ∧
      (mobile = true → (accessIn v.repositories id).isSome = true) := by
  obtain ⟨base, hbase, h⟩ := bind_eq_some_iff.mp h
  obtain ⟨_, haccess, _⟩ := bind_eq_some_iff.mp h
  refine ⟨baseAccess_isSome.mp (by rw [hbase]; rfl), ?_⟩
  rintro rfl
  rw [clientAccess_listed, if_pos rfl] at haccess
  split at haccess
  · obtain ⟨a, ha, _⟩ := map_eq_some_iff.mp haccess
    rw [ha]
    rfl
  · cases haccess

lemma readOnly_eq_false : repo.readOnly = false ↔ repo.purpose ≠ .uploadShelf ∧ repo.archiveReadOnly = false := by
  rw [Repository.readOnly, Bool.or_eq_false_iff, decide_eq_false_iff_not]

section

variable (h : canonicalAuthz env channels f = .ok a)
include h

lemma realm_of_canonicalAuthz {c : Client}
    (hc : (activeClients f).lookup client = some c) (hv : f.view env client = some v) : v.realmID = c.realmID := by
  obtain ⟨repositories, plans, _, hplans, _⟩ := canonicalAuthz_ok h
  obtain ⟨plan, _, hp⟩ := exists_of_mapM_eq_ok hplans ((mem_insertionSort _).mpr (mem_entries_iff.mpr hc))
  obtain ⟨v', _, hv', hrealm, _⟩ := projectClient_ok hp
  rw [hv] at hv'
  cases hv'
  exact hrealm

lemma canonicalAuthz_write :
    a.access client id = some .rw ↔ ∃ c repo v, Known env f client id c repo v ∧ MayWrite f id c repo v := by
  rw [canonicalAuthz_access h]
  constructor
  · intro he
    obtain ⟨c, repo, v, hc, hr, hv, he⟩ := entitlement_repository he
    obtain ⟨hentitled, hrole, hro, hmobile⟩ := projectedAccess_rw.mp he
    obtain ⟨hshelf, harchive⟩ := readOnly_eq_false.mp hro
    rw [realm_of_canonicalAuthz h hc hv] at hentitled
    exact ⟨c, repo, v, ⟨hc, hr, hv⟩, hentitled, hrole, hshelf, harchive, hmobile⟩
  · rintro ⟨c, repo, v, hknown, hmay⟩
    rw [entitlement_eq hknown.repository hknown.view, hknown.active, bind_some, projectedAccess_rw,
      realm_of_canonicalAuthz h hknown.active hknown.view]
    exact ⟨hmay.entitled, hmay.role, readOnly_eq_false.mpr ⟨hmay.shelf, hmay.archive⟩, hmay.mobile⟩

lemma canonicalAuthz_read (ha : a.access client id ≠ none) :
    ∃ c repo v, Known env f client id c repo v ∧ MayRead f id c repo v := by
  rw [canonicalAuthz_access h] at ha
  obtain ⟨access, he⟩ := ne_none_iff_exists'.mp ha
  obtain ⟨c, repo, v, hc, hr, hv, he⟩ := entitlement_repository he
  obtain ⟨hentitled, hmobile⟩ := projectedAccess_some he
  rw [realm_of_canonicalAuthz h hc hv] at hentitled
  exact ⟨c, repo, v, ⟨hc, hr, hv⟩, hentitled, hmobile⟩

lemma canonicalAuthz_groups :
    ∀ part ∈ a, part.2.Pairwise (fun g g' => ∀ client ∈ g.members, client ∉ g'.members) := by
  obtain ⟨repositories, plans, hshelves, hplans, rfl⟩ := canonicalAuthz_ok h
  have hplanned := planned_of_mapM hplans
  have hs := sameRights_projectShelfParents hshelves
  have hone : ∀ id repo client group group', client ∈ members (activeClients f) plans id repo group →
      client ∈ members (activeClients f) plans id repo group' → group = group' := by
    intro id repo client group group' hg hg'
    obtain ⟨c, access, hc, ha, rfl⟩ := (hplanned.mem_members hs).mp hg
    obtain ⟨c', access', hc', ha', rfl⟩ := (hplanned.mem_members hs).mp hg'
    rw [hc, some.injEq] at hc'
    rw [ha, some.injEq] at ha'
    rw [hc', ha']
  intro part hpart
  obtain ⟨id, _, hpart⟩ := mem_filterMap.mp hpart
  obtain ⟨repo, _, rfl⟩ := map_eq_some_iff.mp hpart
  have hdisjoint : ∀ group group', group ≠ group' → ∀ client ∈ members (activeClients f) plans id repo group,
      client ∉ members (activeClients f) plans id repo group' :=
    fun group group' hne client hg hg' => hne (hone id repo client group group' hg hg')
  simp only [pairwise_cons, mem_cons, not_mem_nil, or_false, forall_eq_or_imp, forall_eq, IsEmpty.forall_iff,
    implies_true, List.Pairwise.nil, and_true]
  exact ⟨⟨hdisjoint .owner .writer (by decide), hdisjoint .owner .reader (by decide)⟩, hdisjoint .writer .reader (by decide)⟩

end

/-- Who may write, who at most may read, one group for each client, and the access of the projected view. -/
theorem canonical_least_privilege (env : Env) (channels : Option (List (Option Shares.UploadRecord))) (f : Files) (a : Authz)
    (h : canonicalAuthz env channels f = .ok a) :
    (∀ client id, a.access client id = some .rw ↔ ∃ c repo v, Known env f client id c repo v ∧ MayWrite f id c repo v) ∧
    (∀ client id, a.access client id ≠ none → ∃ c repo v, Known env f client id c repo v ∧ MayRead f id c repo v) ∧
    (∀ part ∈ a, part.2.Pairwise (fun g g' => ∀ client ∈ g.members, client ∉ g'.members)) ∧
    ∃ repositories, projectShelfParents channels (liveRepositories f) = .ok repositories ∧
      ∀ client c v, (activeClients f).lookup client = some c → f.view env client = some v → ∀ id,
        a.access client id = accessIn (projectedRepositories repositories (activeGrants f) c.mobile v) id := by
  refine ⟨fun _ _ => canonicalAuthz_write h, fun _ _ => canonicalAuthz_read h, canonicalAuthz_groups h, ?_⟩
  obtain ⟨repositories, _, hshelves, _, _⟩ := canonicalAuthz_ok h
  refine ⟨repositories, hshelves, fun client c v hc hv id => ?_⟩
  rw [canonicalAuthz_access h, accessIn_projection (sameRights_projectShelfParents hshelves) hc hv]

theorem canonical_least_privilege_of_shared :
    canonicalAuthz sampleEnv none shared.wc = .ok (shared.authz.getD []) ∧
      ∃ c repo v, Known sampleEnv shared.wc guest photos c repo v ∧ MayWrite shared.wc photos c repo v := by
  have hok : canonicalAuthz sampleEnv none shared.wc = .ok (shared.authz.getD []) := by decide +kernel
  refine ⟨hok, ((canonical_least_privilege sampleEnv none shared.wc _ hok).1 guest photos).mp ?_⟩
  decide +kernel

def trashRecord : Repository := { photosRecord with purpose := .uploadTrash }

def trashFiles : Files where
  repositories := [⟨photos, some trashRecord⟩].toAList
  views := [⟨phone, viewOf homeRealm [{ photosEntry .rw with purpose := .uploadTrash }]⟩].toAList
  grants := ∅
  clients := [⟨phone, some ⟨homeRealm, true, true⟩⟩].toAList
  realms := [⟨homeRealm, ⟨[], true⟩⟩].toAList

/-- A phone gets no access to a repository with a purpose, although its realm owns it and its view lists it with full
access. -/
theorem phone_without_trash :
    (canonicalAuthz sampleEnv none trashFiles).toOption.any (fun a => a.access phone photos = none) = true ∧
    (activeClients trashFiles).lookup phone = some ⟨homeRealm, true, true⟩ ∧
    (liveRepositories trashFiles).lookup photos = some trashRecord ∧
    trashRecord.ownerRealmID = homeRealm ∧ trashRecord.purpose ≠ .uploadShelf ∧ trashRecord.archiveReadOnly = false ∧
    (trashFiles.view sampleEnv phone).any (fun v => v.role ≠ .ro && accessIn v.repositories photos = some .rw) = true := by
  decide +kernel

end FileES.Authority
