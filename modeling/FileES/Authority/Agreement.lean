import FileES.Authority.Listings
import FileES.Authority.Requests

/-! When the rules of the data authz file are those that the canonical records call for. -/

namespace FileES.Authority

open Go Lib.Effects Lib.Fallible Lib.Maps Option AList

variable {env : Env} {f f₁ : Files} {client id : Str}

def Agrees (env : Env) (s : Service) : Prop :=
  ∀ client id, (s.authz.getD []).access client id = entitlement env s.wc client id

def Full (repo : Repository) (listed : Option Access) : Prop :=
  listed = some .rw ∨ (repo.readOnly = true ∧ listed = some .r)

/-- An owner's client lists the repository in full, a mobile one may leave it out, and no other grant counts. -/
def OwnersOnly (grants : Map (Str × Str) Access) (c : Option Client) (realmID : Str) (role : Role)
    (id : Str) (repo : Repository) (listed : Option Access) : Prop :=
  match c with
  | none => repo.ownerRealmID = realmID → ¬ Full repo listed
  | some c =>
    if repo.ownerRealmID = realmID then
      if c.mobile = true then
        if repo.purpose = .none then listed = none ∨ (Full repo listed ∧ (role = .ro → repo.readOnly = true))
        else ¬ Full repo listed
      else Full repo listed ∧ (role = .ro → repo.readOnly = true)
    else grants.lookup (id, realmID) = none ∨ (c.mobile = true ∧ (repo.purpose ≠ .none ∨ listed = none))

variable {repo : Repository} {v : View} {grants : Map (Str × Str) Access} {mobile : Bool}

lemma ownerMember_iff (hv : v.validate env = true) :
    ownerMember repo id v = true ↔ repo.ownerRealmID = v.realmID ∧ Full repo (accessIn v.repositories id) := by
  have hu := View.unique hv
  simp only [ownerMember, Bool.and_eq_true, decide_eq_true_eq, List.any_eq_true, Bool.or_eq_true, Full,
    accessIn_eq_some hu]
  rw [eq_comm (a := v.realmID)]
  refine and_congr_right (fun _ => ?_)
  constructor
  · rintro ⟨p, hp, hid, ha | ha⟩
    · exact .inl ⟨p, hp, hid, ha⟩
    · exact .inr ⟨ha.1, p, hp, hid, ha.2⟩
  · rintro (⟨p, hp, hid, ha⟩ | ⟨hro, p, hp, hid, ha⟩)
    · exact ⟨p, hp, hid, .inl ha⟩
    · exact ⟨p, hp, hid, .inr ⟨hro, ha⟩⟩

lemma clientAccess_listed {access : Access} : clientAccess mobile repo (v.entry id) access = if mobile then
        if repo.purpose = .none then (accessIn v.repositories id).map (fun a => if a = .r then .r else access) else none
      else some access := by
  rw [clientAccess, ← entry_access, Option.map_map]
  rfl

lemma ownersOnly_iff {c : Option Client}
    (hv : v.validate env = true) : (if ownerMember repo id v then some (ownerAccess repo) else none) =
      (c.bind fun c => projectedAccess grants v.realmID v.role c.mobile (v.entry id) id repo) ↔
    OwnersOnly grants c v.realmID v.role id repo (accessIn v.repositories id) := by
  have hm : ownerMember repo id v = true ↔ _ := ownerMember_iff hv
  generalize ownerMember repo id v = member at hm ⊢
  cases c with
  | none =>
    rw [OwnersOnly, bind_none]
    cases member <;> simp_all
  | some c =>
    rw [bind_some, projectedAccess, OwnersOnly]
    simp only [clientAccess_listed, baseAccess]
    generalize accessIn v.repositories id = listed at hm ⊢
    by_cases howner : repo.ownerRealmID = v.realmID
    · rw [if_pos howner, if_pos howner]
      simp only [howner, true_and] at hm
      by_cases hp : repo.purpose = .none <;> cases hro : repo.readOnly <;> cases hrole : v.role <;>
        cases hmobile : c.mobile <;> rcases listed with _ | _ | _ <;> cases member <;>
        simp_all [Full, ownerAccess, limited]
    · rw [if_neg howner, if_neg howner]
      have hmember : member = false := by
        rw [← Bool.not_eq_true, hm]
        exact fun h => howner h.1
      rw [hmember]
      by_cases hp : repo.purpose = .none <;> cases hmobile : c.mobile <;> cases listed <;>
        cases grants.lookup (id, v.realmID) <;> simp [hp]

section

variable (hr : (liveRepositories f).lookup id = some repo) (hv : f.view env client = some v)
include hr hv

lemma ownerShare_eq :
    ownerShare env f client id = if ownerMember repo id v then some (ownerAccess repo) else none := by
  rw [ownerShare, hr, hv]
  rfl

lemma entitlement_eq : entitlement env f client id = ((activeClients f).lookup client).bind fun c =>
      projectedAccess (activeGrants f) v.realmID v.role c.mobile (v.entry id) id repo := by
  rw [entitlement, hr, hv]
  rfl

end

section

variable (h : (liveRepositories f).lookup id = none ∨ f.view env client = none)
include h

lemma ownerShare_eq_none : ownerShare env f client id = none := by
  rw [ownerShare]
  rcases h with h | h
  · rw [h]
    rfl
  · rw [h]
    cases (liveRepositories f).lookup id <;> rfl

lemma entitlement_eq_none : entitlement env f client id = none := by
  rw [entitlement]
  cases (activeClients f).lookup client with
  | none => rfl
  | some c =>
    rcases h with h | h
    · rw [h]
      rfl
    · rw [h]
      cases (liveRepositories f).lookup id <;> rfl

end

variable {repoID realmID name url : Str} {purpose : Purpose} {record : Repository} {write : Bool} {r : Request}

/-- `OwnersOnly` for every view and every live repository once the new one is published and listed by its owner. -/
def OwnersSuffice (env : Env) (f : Files) (repoID realmID name url : Str) (purpose : Purpose) : Prop :=
  ∀ record write, recordFor f repoID realmID name url purpose = .ok (record, write) →
    ∀ client v, f.view env client = some v → ∀ id repo,
      (if id = repoID then some record else (liveRepositories f).lookup id) = some repo →
      OwnersOnly (activeGrants f) ((activeClients f).lookup client) v.realmID v.role id repo
        (if id = repoID ∧ v.realmID = realmID then some (ownerAccess record) else accessIn v.repositories id)

def publication (repoID realmID url : Str) (record : Repository) (write : Bool) : Request :=
  ⟨if write then some (repoID, record) else none, [], offer repoID realmID url record, [.repository repoID]⟩

lemma request_publish (h : request env f (.publish repoID realmID name url purpose) = .ok (some r)) :
    ∃ record write, recordFor f repoID realmID name url purpose = .ok (record, write) ∧
      r = publication repoID realmID url record write := by
  obtain ⟨_, _, _, _, record, hrecord, h⟩ := bind₃_ok.mp h
  cases h
  exact ⟨record.1, record.2, hrecord, rfl⟩

section

variable (h : recordFor f repoID realmID name url purpose = .ok (record, write))
include h

lemma recordFor_ok :
    record.state ≠ .deleted ∧ (write = false → f.repositories.lookup repoID = some (some record)) := by
  rw [recordFor] at h
  split at h
  · cases h
    exact ⟨by simp, fun h => absurd h (by decide)⟩
  · cases h
  · rename_i old hold
    obtain ⟨_, _, _, _, h⟩ := bind₂_ok.mp h
    obtain ⟨_, hpurpose, _, hstate, h⟩ := bind₂_ok.mp h
    have hpurpose := require_ok.mp hpurpose
    have hstate := require_ok.mp hstate
    simp only [decide_eq_true_eq, Bool.or_eq_true] at hpurpose hstate
    cases h
    refine ⟨hstate, fun hkept => ?_⟩
    simp only [Bool.and_eq_false_iff, decide_eq_false_iff_not, not_not] at hkept
    have hsame : (if purpose = .none then old.purpose else purpose) = old.purpose := by
      split
      · rfl
      · rename_i hnone
        exact ((hpurpose.resolve_left (by
          rintro (h | h)
          · exact hnone h
          · exact (hkept.resolve_left hnone) h))).symm
    rw [hold, hsame]

lemma lookup_live_publication : (liveRepositories ((publication repoID realmID url record write).saved f)).lookup id =
      if id = repoID then some record else (liveRepositories f).lookup id := by
  obtain ⟨hstate, hkept⟩ := recordFor_ok h
  have hlive : live (some record) = some record := live_eq_some.mpr ⟨rfl, hstate⟩
  cases write with
  | true =>
    rw [lookup_liveRepositories, lookup_liveRepositories]
    show ((f.repositories.insert repoID (some record)).lookup id).bind live = _
    split
    · rename_i hid
      rw [hid, lookup_insert, bind_some, hlive]
    · rename_i hid
      rw [lookup_insert_ne hid]
  | false =>
    show (liveRepositories f).lookup id = _
    split
    · rename_i hid
      rw [lookup_liveRepositories, hid, hkept rfl, bind_some, hlive]
    · rfl

lemma agrees_publication_iff (hx : Executed env (publication repoID realmID url record write) f f₁) :
    (∀ client id, ownerShare env f₁ client id = entitlement env f₁ client id) ↔
      OwnersSuffice env f repoID realmID name url purpose := by
  have hlive : ∀ id, (liveRepositories f₁).lookup id = if id = repoID then some record else (liveRepositories f).lookup id := by
    intro id
    rw [← lookup_live_publication h, liveRepositories, hx.records.repositories, ← liveRepositories]
  have hactive : activeGrants f₁ = activeGrants f ∧ activeClients f₁ = activeClients f := by
    rw [activeGrants, activeClients, hx.records.grants, hx.clients]
    exact ⟨congrArg _ (Request.recorded_grants), rfl⟩
  have hshown : ∀ client v, f.view env client = some v → ∀ id repo, (liveRepositories f₁).lookup id = some repo →
      (ownerShare env f₁ client id = entitlement env f₁ client id ↔
        OwnersOnly (activeGrants f) ((activeClients f).lookup client) v.realmID v.role id repo
          (if id = repoID ∧ v.realmID = realmID then some (ownerAccess record) else accessIn v.repositories id)) := by
    intro client v hv id repo hr
    have hrewritten := hx.view client
    rw [hv] at hrewritten
    obtain ⟨next, hoffer, hv'⟩ := hrewritten
    have hvalid := Files.view_valid hv'
    have howner := offer_sameOwner hoffer
    rw [ownerShare_eq hr hv', entitlement_eq hr hv', hactive.1, hactive.2, ownersOnly_iff hvalid, offer_listing hoffer hvalid,
      howner.realmID, howner.role]
  constructor
  · intro hagrees record' write' hrecord client v hv id repo hrepo
    rw [h] at hrecord
    cases hrecord
    exact (hshown client v hv id repo ((hlive id).trans hrepo)).mp (hagrees client id)
  · intro hsuffice client id
    cases hr : (liveRepositories f₁).lookup id with
    | none => rw [ownerShare_eq_none (.inl hr), entitlement_eq_none (.inl hr)]
    | some repo =>
      cases hv : f.view env client with
      | none =>
        have hrewritten := hx.view client
        rw [hv] at hrewritten
        rw [ownerShare_eq_none (.inr hrewritten), entitlement_eq_none (.inr hrewritten)]
      | some v =>
        exact (hshown client v hv id repo hr).mpr (hsuffice record write h client v hv id repo ((hlive id).symm.trans hr))

end

lemma projectedAccess_of_listing {role : Role}
    {current current' : Option Projected} (hs : (current'.map Projected.access).isSome = (current.map Projected.access).isSome)
    (h : repo.readOnly = false → current'.map Projected.access = current.map Projected.access) :
    projectedAccess grants realmID role mobile current' id repo = projectedAccess grants realmID role mobile current id repo := by
  rw [projectedAccess, projectedAccess]
  cases baseAccess grants realmID id repo with
  | none => rfl
  | some base =>
    simp only [bind_eq_bind, bind_some, clientAccess]
    cases mobile with
    | false => rfl
    | true =>
      rw [isSome_map, isSome_map] at hs
      cases current with
      | none => rw [isNone_iff_eq_none.mp (isSome_eq_false_iff.mp hs)]
      | some p =>
        obtain ⟨p', rfl⟩ := isSome_iff_exists.mp hs
        cases hro : repo.readOnly with
        | true => split_ifs <;> simp [limited, hro]
        | false =>
          have hp : p'.access = p.access := by simpa using h hro
          simp only [map_some, hp]

lemma readRepository_ok (h : readRepository f repoID = .ok record) :
    f.repositories.lookup repoID = some (some record) := by
  obtain ⟨_, _, h⟩ := bind_ok.mp h
  split at h
  · cases h
  · cases h
  · rename_i r hr
    obtain ⟨_, _, h⟩ := bind_ok.mp h
    cases h
    exact hr

lemma activatable_ok (h : activatable f repoID realmID = .ok record) :
    f.repositories.lookup repoID = some (some record) ∧ record.state ≠ .deleted ∧ record.ownerRealmID = realmID := by
  obtain ⟨r, hr, _, howner, h⟩ := bind₂_ok.mp h
  obtain ⟨_, _, _, hstate, h⟩ := bind₂_ok.mp h
  cases h
  refine ⟨readRepository_ok hr, ?_, by simpa using require_ok.mp howner⟩
  intro hdel
  have := require_ok.mp hstate
  simp [hdel] at this

lemma entitlement_activate (hr : request env f (.activate repoID realmID) = .ok (some r))
    (hx : Executed env r f f₁) : entitlement env f₁ client id = entitlement env f client id := by
  obtain ⟨record, hrecord, hr⟩ := bind_ok.mp hr
  obtain ⟨hfile, hstate, howner⟩ := activatable_ok hrecord
  cases hr
  have hlive : (liveRepositories f₁).lookup id =
      if id = repoID then some { record with state := .active } else (liveRepositories f).lookup id := by
    rw [liveRepositories, hx.records.repositories, Request.saved_repositories, ← liveRepositories, lookup_liveRepositories,
      lookup_liveRepositories, Request.recorded]
    by_cases hactive : record.state = .active
    · simp only [hactive, ne_eq, not_true, if_false]
      split
      · rename_i hid
        rw [hid, hfile, bind_some]
        exact live_eq_some.mpr ⟨by rw [← hactive], by simp⟩
      · rfl
    · simp only [ne_eq, hactive, not_false_eq_true, if_true, Files.putRepository]
      split
      · rename_i hid
        rw [hid, lookup_insert, bind_some]
        exact live_eq_some.mpr ⟨rfl, by simp⟩
      · rename_i hid
        rw [lookup_insert_ne hid]
  have hactive : activeGrants f₁ = activeGrants f ∧ activeClients f₁ = activeClients f := by
    rw [activeGrants, activeClients, hx.records.grants, hx.clients]
    exact ⟨congrArg _ Request.recorded_grants, rfl⟩
  have hview := hx.view client
  cases hv : f.view env client with
  | none =>
    rw [hv] at hview
    rw [entitlement_eq_none (.inr hview), entitlement_eq_none (.inr hv)]
  | some v =>
    rw [hv] at hview
    obtain ⟨next, hheal, hv'⟩ := hview
    have hsame := heal_sameOwner hheal
    have hlisted : accessIn _ id = _ := heal_listing hheal
    rw [← entry_access, ← entry_access] at hlisted
    by_cases hid : id = repoID
    · have hold : (liveRepositories f).lookup id = some record := by
        rw [lookup_liveRepositories, hid, hfile, bind_some]
        exact live_eq_some.mpr ⟨rfl, hstate⟩
      rw [if_pos hid] at hlive
      rw [entitlement_eq hlive hv', entitlement_eq hold hv, hactive.1, hactive.2, hsame.realmID, hsame.role]
      refine congrArg _ (funext fun c => (projectedAccess_of_rights rfl).trans ?_)
      refine projectedAccess_of_listing ?_ (fun hro => ?_)
      · rw [hlisted]
        split
        · rw [isSome_map]
        · rfl
      · rw [hlisted, if_neg]
        exact fun h => absurd (h.2.2.symm.trans hro) (by decide)
    · rw [if_neg hid] at hlive
      rw [if_neg (fun h => hid h.1)] at hlisted
      cases hr : (liveRepositories f).lookup id with
      | none => rw [entitlement_eq_none (.inl (hlive.trans hr)), entitlement_eq_none (.inl hr)]
      | some repo =>
        rw [entitlement_eq (hlive.trans hr) hv', entitlement_eq hr hv, hactive.1, hactive.2, hsame.realmID, hsame.role]
        exact congrArg _ (funext fun c => projectedAccess_of_listing (congrArg _ hlisted) (fun _ => hlisted))

/-- When an operation that succeeds leaves the right rules. One that has nothing to do leaves them as they are. -/
def AuthzFits (env : Env) (s : Service) : Operation → Prop
  | .publish repoID realmID name url purpose => OwnersSuffice env s.wc repoID realmID name url purpose
  | .activate _ _ => Agrees env s
  | op => request env s.wc op = .ok none → Agrees env s

variable {s : Service}

lemma Finished.agrees_rebuild {a₀ : Option Authz} (h : Finished env f₁ a₀ s.wc s.authz .rebuild) : Agrees env s := by
  have hrebuilt : Rebuilt env f₁ s.wc s.authz := h
  obtain ⟨b, hb, hgives⟩ := hrebuilt.gives
  intro client id
  rw [hb, hrebuilt.rebuilding.entitlement]
  exact hgives client id

lemma Succeeded.agrees_iff {s' : Service} {op : Operation} (h : Succeeded env op s s.wc s.authz s') :
    Agrees env s' ↔ AuthzFits env s op := by
  rcases h with ⟨hnone, _, hwc, hauthz⟩ | ⟨r, f₁, s₁, paths, hr, hx, ⟨_, hf⟩, _, rfl⟩
  · have hsame : Agrees env s' ↔ Agrees env s := by rw [Agrees, Agrees, hwc, hauthz]
    rw [hsame]
    cases op with
    | publish repoID realmID name url purpose =>
      obtain ⟨_, _, _, _, _, _, hnone⟩ := bind₃_ok.mp hnone
      cases hnone
    | activate repoID realmID => exact Iff.rfl
    | _ => exact ⟨fun h _ => h, fun h => h hnone⟩
  · have hsame : Agrees env (s₁.committed paths) ↔ Agrees env s₁ := Iff.rfl
    rw [hsame]
    have hrebuild : op.finish = .rebuild → (Agrees env s₁ ↔ (request env s.wc op = .ok none → Agrees env s)) := by
      intro hop
      rw [hop] at hf
      refine ⟨fun _ hnone => ?_, fun _ => hf.agrees_rebuild⟩
      rw [hnone] at hr
      cases hr
    cases op with
    | publish repoID realmID name url purpose =>
      obtain ⟨record, write, hrecord, rfl⟩ := request_publish hr
      obtain ⟨hfiles, b, hb, hauthz⟩ := hf
      rw [AuthzFits, ← agrees_publication_iff hrecord hx, Agrees, hfiles, hauthz]
      exact forall₂_congr fun client id => by rw [getD_some, renderAuthz_access hb]
    | activate repoID realmID =>
      obtain ⟨hfiles, hauthz⟩ := hf
      rw [AuthzFits, Agrees, Agrees, hfiles, hauthz]
      exact forall₂_congr fun client id => by rw [entitlement_activate hr hx]
    | _ => exact hrebuild rfl

/-- After a success the rules are those of the records exactly when the owners' rules suffice, or held before. -/
theorem authz_agrees_iff (env : Env) (op : Operation) (s s' : Service) (script rest : List Answer)
    (h : perform env op s script = (.ok (), s', rest)) :
    (∀ a, canonicalAuthz env s'.channels s'.wc = .ok a → ∀ client id, a.access client id = entitlement env s'.wc client id) ∧
      (Agrees env s' ↔ AuthzFits env s op) := by
  refine ⟨fun a ha client id => canonicalAuthz_access ha, ?_⟩
  exact ((ensures_perform op).of_run ⟨.refl s, rfl, rfl⟩ h).agrees_iff

/-! Two realms: `homeRealm` owns the repository `photos` and has granted it to `guestRealm`. -/

def homeRealm : Str := "11111111-1111-4111-8111-111111111111"
def guestRealm : Str := "22222222-2222-4222-8222-222222222222"
def photos : Str := "33333333-3333-4333-8333-333333333333"
def letters : Str := "44444444-4444-4444-8444-444444444444"
def laptop : Str := "55555555-5555-4555-8555-555555555555"
def guest : Str := "66666666-6666-4666-8666-666666666666"
def phone : Str := "77777777-7777-4777-8777-777777777777"

def sampleEnv : Env := ⟨fun _ => true, fun _ => true, none⟩

def photosRecord : Repository :=
  ⟨repositorySchema, homeRealm, "photos", "svn://data/photos", .active, [], .none, [], none⟩

def photosEntry (access : Access) : Projected := { shown photosRecord photos with access := access, state := .active }

def viewOf (realmID : Str) (entries : List Projected) : Option View := some ⟨realmID, [], 1, .normal, entries, []⟩

def photosGrant : Grant := ⟨homeRealm, some .rw, none, []⟩

def sampleFiles (grants : List (Sigma fun _ : Str × Str => Option Grant)) (entries : List Projected) : Files where
  repositories := [⟨photos, some photosRecord⟩].toAList
  views := [⟨laptop, viewOf homeRealm [photosEntry .rw]⟩, ⟨guest, viewOf guestRealm entries⟩].toAList
  grants := grants.toAList
  clients := [⟨laptop, some ⟨homeRealm, true, false⟩⟩, ⟨guest, some ⟨guestRealm, true, false⟩⟩].toAList
  realms := [⟨homeRealm, ⟨[], true⟩⟩, ⟨guestRealm, ⟨[], true⟩⟩].toAList

def serviceOf (f : Files) : Service where
  wc := f
  head := f
  authz := (canonicalAuthz sampleEnv none f).toOption
  channels := none
  backend := ∅
  trees := ∅
  staging := []
  released := f.repositories.keys
  removals := []

def shared : Service := serviceOf (sampleFiles [⟨(photos, guestRealm), some photosGrant⟩] [photosEntry .rw])

theorem authz_agrees_of_revoke :
    (perform sampleEnv (.revokeGrant homeRealm guestRealm photos) shared (calls 20)).1 = .ok () ∧
      Agrees sampleEnv (perform sampleEnv (.revokeGrant homeRealm guestRealm photos) shared (calls 20)).2.1 := by
  have hok : (perform sampleEnv (.revokeGrant homeRealm guestRealm photos) shared (calls 20)).1 = .ok () := by decide +kernel
  have hsome : (request sampleEnv shared.wc (.revokeGrant homeRealm guestRealm photos)).toOption.any isSome = true := by
    decide +kernel
  refine ⟨hok, (authz_agrees_iff sampleEnv _ shared _ _ _ (run_eq_of_result hok)).2.mpr (fun h => ?_)⟩
  rw [h] at hsome
  cases hsome

/-- Creating another repository takes the access of the guests away. -/
theorem publish_drops_grant :
    canonicalAuthz sampleEnv shared.channels shared.wc = .ok (shared.authz.getD []) ∧
    (shared.authz.getD []).access guest photos = some .rw ∧
    (perform sampleEnv (.publish letters homeRealm "letters" "svn://data/letters" .none) shared (calls 20)).1 = .ok () ∧
    ((canonicalAuthz sampleEnv none (perform sampleEnv (.publish letters homeRealm "letters" "svn://data/letters"
      .none) shared (calls 20)).2.1.wc).toOption.bind (fun a => a.access guest photos)) = some .rw ∧
    ((perform sampleEnv (.publish letters homeRealm "letters" "svn://data/letters" .none) shared
      (calls 20)).2.1.authz.getD []).access guest photos = none := by
  decide +kernel

end FileES.Authority
