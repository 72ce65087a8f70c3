import FileES.Authority.Agreement
import FileES.Lib.Runs

/-! A mobile client keeps to the repositories and the access that it was paired with. -/

namespace FileES.Authority

open Go Lib.Effects Lib.Fallible Lib.Maps Lib.Runs Option AList

structure Pairing where
  (client realmID : Str)
  access : Str → Option Access

structure Confined (env : Env) (p : Pairing) (f : Files) : Prop where
  mobile : ∀ c, f.clients.lookup p.client = some (some c) → c.mobile = true
  shown : ∀ v, f.view env p.client = some v → v.realmID = p.realmID ∧
    ∀ id, rank (accessIn v.repositories id) ≤ rank (p.access id)

def Ruled (p : Pairing) (a : Option Authz) : Prop := ∀ id, rank ((a.getD []).access p.client id) ≤ rank (p.access id)

structure KeepsToPairing (env : Env) (p : Pairing) (s : Service) : Prop where
  wc : Confined env p s.wc
  head : Confined env p s.head
  rules : Ruled p s.authz

variable {env : Env} {p : Pairing} {f f₀ f₁ head : Files} {id : Str}

variable {role : Role} {repo : Repository} {v : View}

lemma rank_limited {access : Access} : rank (some (limited role repo access)) ≤ rank (some access) := by
  rw [limited]
  split
  · cases access <;> decide
  · exact le_rfl

lemma rank_projectedAccess_mobile {grants : Map (Str × Str) Access} {realmID : Str} :
    rank (projectedAccess grants realmID role true (v.entry id) id repo) ≤ rank (accessIn v.repositories id) := by
  rw [projectedAccess]
  cases baseAccess grants realmID id repo with
  | none => exact Nat.zero_le _
  | some base =>
    simp only [bind_eq_bind, bind_some, clientAccess_listed, if_true]
    split
    · cases accessIn v.repositories id with
      | none => exact Nat.zero_le _
      | some a =>
        refine rank_limited.trans ?_
        cases a <;> cases base <;> decide
    · exact Nat.zero_le _

lemma lookup_activeClients {client : Str} {c : Client} (h : (activeClients f).lookup client = some c) :
    f.clients.lookup client = some (some c) := by
  obtain ⟨file, hfile, hc⟩ := lookup_filterMap_eq_some.mp h
  rw [hfile, (filter_eq_some_iff.mp hc).1]

lemma Confined.entitlement (h : Confined env p f) (id : Str) :
    rank (entitlement env f p.client id) ≤ rank (p.access id) := by
  cases he : Authority.entitlement env f p.client id with
  | none => exact Nat.zero_le _
  | some access =>
    obtain ⟨c, repo, v, hc, _, hv, hproj⟩ := entitlement_repository he
    rw [← hproj, h.mobile c (lookup_activeClients hc)]
    exact rank_projectedAccess_mobile.trans ((h.shown v hv).2 id)

lemma Confined.ownerShare (h : Confined env p f) (id : Str) : rank (ownerShare env f p.client id) ≤ rank (p.access id) := by
  cases hv : f.view env p.client with
  | none =>
    rw [ownerShare_eq_none (.inr hv)]
    exact Nat.zero_le _
  | some v =>
    cases hr : (liveRepositories f).lookup id with
    | none =>
      rw [ownerShare_eq_none (.inl hr)]
      exact Nat.zero_le _
    | some repo =>
      rw [ownerShare_eq hr hv]
      split
      · rename_i hmember
        refine le_trans ?_ ((h.shown v hv).2 id)
        rcases ((ownerMember_iff (Files.view_valid hv)).mp hmember).2 with hrw | ⟨hro, hr⟩
        · rw [hrw]
          cases ownerAccess repo <;> decide
        · rw [hr, ownerAccess, if_pos hro]
      · exact Nat.zero_le _

lemma Gives.ruled {a : Option Authz} (h : Gives env f a) (hf : Confined env p f) : Ruled p a := by
  obtain ⟨b, rfl, hb⟩ := h
  intro id
  rw [getD_some, hb]
  exact hf.entitlement id

lemma ruled_renderAuthz {b : Authz} (h : renderAuthz env f = .ok b) (hf : Confined env p f) : Ruled p (some b) := by
  intro id
  rw [getD_some, renderAuthz_access h]
  exact hf.ownerShare id

section

lemma Confined.of_view (hf : Confined env p f) (h : Confined env p head) (hc : f₁.clients.lookup p.client = f.clients.lookup p.client)
    (hv : f₁.views.lookup p.client = head.views.lookup p.client) : Confined env p f₁ := by
  refine ⟨?_, ?_⟩
  · rw [hc]
    exact hf.mobile
  · rw [show f₁.view env p.client = head.view env p.client from view_congr hv]
    exact h.shown

lemma Confined.congr (h : Confined env p f₀) (hc : f.clients.lookup p.client = f₀.clients.lookup p.client)
    (hv : f.views.lookup p.client = f₀.views.lookup p.client) : Confined env p f := h.of_view h hc hv

def Narrows (env : Env) (p : Pairing) (f : Files) (g : View → Except Str (Option View)) : Prop :=
  ∀ v next, f.view env p.client = some v → g v = .ok next → (next.getD v).validate env = true →
    (next.getD v).realmID = v.realmID ∧ ∀ id, rank (accessIn (next.getD v).repositories id) ≤ rank (p.access id)

variable {g : View → Except Str (Option View)}

lemma Confined.rewritten (h : Confined env p f₀) (hg : Narrows env p f₀ g) (hc : f.clients = f₀.clients)
    (hv : ViewRewritten env g f₀ f p.client) : Confined env p f := by
  refine ⟨by rw [hc]; exact h.mobile, ?_⟩
  rw [ViewRewritten] at hv
  intro v' hv'
  cases hview : f₀.view env p.client with
  | none =>
    rw [hview, hv'] at hv
    cases hv
  | some v =>
    rw [hview] at hv
    obtain ⟨next, hnext, hv⟩ := hv
    obtain ⟨hrealm, hlisted⟩ := hg v next hview hnext (Files.view_valid hv)
    rw [hv, some.injEq] at hv'
    rw [← hv']
    exact ⟨hrealm.trans (h.shown v hview).1, hlisted⟩

lemma Confined.rewriting {done : List Str} (h : Confined env p f₀) (hg : Narrows env p f₀ g)
    (hf : Rewriting env g f₀ done f) : Confined env p f := by
  by_cases hdone : p.client ∈ done
  · exact h.rewritten hg hf.records.clients (hf.written p.client hdone)
  · exact h.congr (by rw [hf.records.clients]) (hf.pending p.client hdone)

lemma Confined.rebuilding (h : Confined env p f₀) (hf : Rebuilding env f₀ f) : Confined env p f := by
  rcases hf.views p.client with hsame | ⟨v, hlookup, hvalid, hshows⟩
  · exact h.congr (by rw [hf.clients]) hsame
  · have hview : f.view env p.client = some v := by
      rw [Files.view, hlookup]
      simp [Option.filter, hvalid]
    obtain ⟨v₀, hv₀, hrealm, _⟩ := hshows.was
    refine ⟨by rw [hf.clients]; exact h.mobile, ?_⟩
    intro v' hv'
    rw [hview, some.injEq] at hv'
    rw [← hv']
    refine ⟨hrealm.trans (h.shown v₀ hv₀).1, fun id => ?_⟩
    rw [hshows.entries]
    exact h.entitlement id

section

variable (h : Confined env p head) (hf : Confined env p f)
include h hf

lemma Confined.copy (place : Place) : Confined env p (place.copy head f) := by
  cases place with
  | repository id => exact hf.congr rfl rfl
  | grant key => exact hf.congr rfl rfl
  | view client =>
    by_cases hclient : p.client = client
    · refine hf.of_view h rfl ?_
      rw [hclient, Place.copy, lookup_transfer, if_pos rfl]
    · refine hf.congr rfl ?_
      rw [Place.copy, lookup_transfer, if_neg hclient]

lemma Confined.copies (places : List Place) : Confined env p (places.foldl (fun f place => place.copy head f) f) := by
  induction places generalizing f with
  | nil => exact hf
  | cons place places ih => exact ih (h.copy hf place)

lemma Confined.restored : Confined env p (head.restored f) := by
  have hc : ∀ c, (head.restored f).clients.lookup p.client = some (some c) → c.mobile = true := by
    intro c hlookup
    rcases mem_lookup_union.mp hlookup with hlookup | ⟨_, hlookup⟩
    · exact h.mobile c hlookup
    · exact hf.mobile c hlookup
  refine ⟨hc, ?_⟩
  by_cases hmem : p.client ∈ head.views
  · rw [show (head.restored f).view env p.client = head.view env p.client from view_congr (lookup_union_left hmem)]
    exact h.shown
  · rw [show (head.restored f).view env p.client = f.view env p.client from view_congr (lookup_union_right hmem)]
    exact hf.shown

end

end

/-- An operation that cannot list more for the client than it was paired with. -/
def Covered (env : Env) (p : Pairing) (f : Files) : Operation → Prop
  | .publish repoID realmID _ _ _ => realmID = p.realmID → p.access repoID = some .rw ∨
      ∀ v, f.view env p.client = some v → accessIn v.repositories repoID ≠ none
  | .transferOwner repoID newRealmID => newRealmID = p.realmID → p.access repoID = some .rw
  | _ => True

lemma rank_le_of_full {access : Option Access} {b : Option Access} (h : b = some .rw) : rank access ≤ rank b := by
  rw [h]
  rcases access with _ | _ | _ <;> decide

variable {repoID realmID url : Str} {record : Repository}

lemma offer_narrow {next : Option View} (h : offer repoID realmID url record v = .ok next)
    (hrealm : v.realmID = realmID) (hlisted : accessIn v.repositories repoID ≠ none) :
    rank (some (ownerAccess record)) ≤ rank (accessIn v.repositories repoID) := by
  rw [offer, if_neg (not_not.mpr hrealm)] at h
  rw [← entry_access] at hlisted ⊢
  split at h
  · rename_i hnone
    rw [hnone] at hlisted
    exact absurd rfl hlisted
  · rename_i entry hentry
    obtain ⟨_, hcheck, _⟩ := bind_ok.mp h
    have hcheck := require_ok.mp hcheck
    simp only [Bool.and_eq_true, Bool.or_eq_true, decide_eq_true_eq] at hcheck
    rw [hentry, map_some]
    rcases hcheck.2 with hsame | ⟨hr, hrw⟩
    · rw [hsame]
    · rw [hr, hrw]
      decide

section

variable (h : Confined env p f)
include h

lemma narrows_unchanged : Narrows env p f unchanged := by
  rintro v next hv ⟨⟩ _
  exact ⟨rfl, (h.shown v hv).2⟩

lemma narrows_offer (hcovered : realmID = p.realmID → p.access repoID = some .rw ∨
      ∀ v, f.view env p.client = some v → accessIn v.repositories repoID ≠ none) :
    Narrows env p f (offer repoID realmID url record) := by
  intro v next hv hnext hvalid
  refine ⟨(offer_sameOwner hnext).realmID, fun id => ?_⟩
  rw [offer_listing hnext hvalid]
  split
  · rename_i hid
    obtain ⟨rfl, hrealm⟩ := hid
    rcases hcovered (hrealm.symm.trans ((h.shown v hv).1)) with hfull | hlisted
    · exact rank_le_of_full hfull
    · exact (offer_narrow hnext hrealm (hlisted v hv)).trans ((h.shown v hv).2 id)
  · exact (h.shown v hv).2 id

lemma narrows_heal : Narrows env p f (heal repoID realmID record) := by
  intro v next hv hnext _
  refine ⟨(heal_sameOwner hnext).realmID, fun id => ?_⟩
  rw [heal_listing hnext]
  refine le_trans ?_ ((h.shown v hv).2 id)
  split
  · rcases accessIn v.repositories id with _ | _ | _ <;> decide
  · exact le_rfl

lemma narrows_withdrawn : Narrows env p f (withdrawn repoID) := by
  intro v next hv hnext _
  refine ⟨(withdrawn_sameOwner hnext).realmID, fun id => ?_⟩
  rw [withdrawn_listing hnext]
  split
  · exact Nat.zero_le _
  · exact (h.shown v hv).2 id

lemma narrows_reassign {old : Str} (hcovered : record.ownerRealmID = p.realmID → p.access repoID = some .rw) :
    Narrows env p f (reassign repoID old record) := by
  intro v next hv hnext hvalid
  refine ⟨(reassign_sameOwner hnext).realmID, fun id => ?_⟩
  rw [reassign_listing hnext hvalid]
  split
  · exact Nat.zero_le _
  · split
    · rename_i hid
      rw [hid.1]
      exact rank_le_of_full (hcovered (hid.2.symm.trans ((h.shown v hv).1)))
    · exact (h.shown v hv).2 id

lemma Confined.narrows {op : Operation} {r : Request}
    (hr : request env f op = .ok (some r)) (hcovered : Covered env p f op) : Narrows env p f r.views := by
  cases op with
  | publish repoID realmID name url purpose =>
    obtain ⟨record, write, _, rfl⟩ := request_publish hr
    exact narrows_offer h hcovered
  | activate repoID realmID =>
    obtain ⟨record, _, hr⟩ := bind_ok.mp hr
    cases hr
    exact narrows_heal h
  | delete repoID realmID =>
    obtain ⟨record, _, hr⟩ := bind_ok.mp hr
    cases hr
    exact narrows_withdrawn h
  | grant owner recipient repoID access =>
    obtain ⟨next, _, hr⟩ := bind_ok.mp hr
    obtain ⟨g, _, rfl⟩ := map_eq_some_iff.mp (Except.ok.inj hr)
    exact narrows_unchanged h
  | revokeGrant owner recipient repoID =>
    obtain ⟨g, _, hr⟩ := bind_ok.mp hr
    cases hr
    exact narrows_unchanged h
  | transferOwner repoID newRealmID =>
    obtain ⟨record, _, hr⟩ := bind_ok.mp hr
    have hr := Except.ok.inj hr
    split at hr
    · cases hr
    · cases hr
      exact narrows_reassign h hcovered
  | withdrawRealmGrants realmID repoIDs =>
    obtain ⟨_, _, hr⟩ := bind_ok.mp hr
    cases hr
    exact narrows_unchanged h
  | setRepositoryEditingPolicy realmID repoID policy =>
    obtain ⟨record, _, hr⟩ := bind_ok.mp hr
    have hr := Except.ok.inj hr
    split at hr
    · cases hr
    · cases hr
      exact narrows_unchanged h
  | rebuild =>
    cases hr
    exact narrows_unchanged h

end

variable {op : Operation} {r : Request} {s s' : Service} {a₀ a : Option Authz}

lemma Confined.saved (h : Confined env p f₀) (r : Request) (done : List ((Str × Str) × Grant)) :
    Confined env p ((r.recorded f₀).putGrants done) := by
  have hgrants : ((r.recorded f₀).putGrants done).views = (r.recorded f₀).views ∧ _ ∧ _ := putGrants_others done
  refine h.congr ?_ ?_
  · rw [hgrants.2.1, r.recorded_others.2.1]
  · rw [hgrants.1, r.recorded_others.1]

lemma Narrows.saved {g : View → Except Str (Option View)} (h : Narrows env p f₀ g) (r : Request) :
    Narrows env p (r.saved f₀) g := by
  have hview : (r.saved f₀).view env p.client = f₀.view env p.client := view_congr (by rw [r.saved_views])
  intro v next hv
  rw [hview] at hv
  exact h v next hv

lemma Confined.executing (h : Confined env p f₀) (hg : Narrows env p f₀ r.views) (hx : Executing env r f₀ f) : Confined env p f := by
  cases hx with
  | start => exact h
  | saving _ => exact h.saved r _
  | showing hrewriting => exact (h.saved r r.grants).rewriting (hg.saved r) hrewriting

lemma Confined.executed (h : Confined env p f₀) (hg : Narrows env p f₀ r.views) (hx : Executed env r f₀ f) : Confined env p f :=
  (h.saved r r.grants).rewritten (hg.saved r) hx.records.clients (hx.views p.client)

lemma Confined.finishing {finish : Finish} (h : Confined env p f₁) (ha : Ruled p a₀)
    (hf : Finishing env f₁ a₀ f a finish) : Confined env p f ∧ Ruled p a := by
  cases finish with
  | owners =>
    obtain ⟨rfl, rfl | ⟨b, hb, rfl⟩⟩ := hf
    · exact ⟨h, ha⟩
    · exact ⟨h, ruled_renderAuthz hb h⟩
  | nothing =>
    obtain ⟨rfl, rfl⟩ := hf
    exact ⟨h, ha⟩
  | rebuild =>
    obtain ⟨hrebuilding, rfl | hgives⟩ := hf
    · exact ⟨h.rebuilding hrebuilding, ha⟩
    · exact ⟨h.rebuilding hrebuilding, hgives.ruled h⟩

lemma Confined.midway (h : Confined env p f₀) (ha : Ruled p a₀) (hcovered : Covered env p f₀ op)
    (hm : Midway env op f₀ a₀ f a) : Confined env p f ∧ Ruled p a := by
  cases hm with
  | start => exact ⟨h, ha⟩
  | executing hr hx => exact ⟨h.executing (h.narrows hr hcovered) hx, ha⟩
  | finishing hr hx hf => exact (h.executed (h.narrows hr hcovered) hx).finishing ha hf

lemma KeepsToPairing.committed (h : KeepsToPairing env p s) (paths : List Place) : KeepsToPairing env p (s.committed paths) :=
  ⟨h.wc, h.wc.copies h.head paths, h.rules⟩

lemma KeepsToPairing.perform (h : KeepsToPairing env p s) (hcovered : Covered env p s.wc op)
    (script : List Answer) : KeepsToPairing env p (perform env op s script).2.1 := by
  have hstopped : ∀ s', Stopped env op s s.wc s.authz s' → KeepsToPairing env p s' := by
    rintro s' ⟨hbeside, f₁, ⟨places, hplaces⟩, hm⟩
    obtain ⟨hf, ha⟩ := h.wc.midway h.rules hcovered hm
    refine ⟨?_, by rw [hbeside.head]; exact h.head, ha⟩
    rw [hplaces]
    exact h.head.copies hf places
  have hsucceeded : ∀ s', Succeeded env op s s.wc s.authz s' → KeepsToPairing env p s' := by
    rintro s' (⟨_, hbeside, hwc, hauthz⟩ | ⟨r, f₁, s₁, paths, hr, hx, ⟨hbeside, hf⟩, _, rfl⟩)
    · exact ⟨hwc ▸ h.wc, hbeside.head ▸ h.head, hauthz ▸ h.rules⟩
    · obtain ⟨hwc, ha⟩ := (h.wc.executed (h.wc.narrows hr hcovered) hx).finishing h.rules hf.finishing
      exact KeepsToPairing.committed ⟨hwc, by rw [hbeside.head]; exact h.head, ha⟩ paths
  exact Ensures.final (((ensures_perform op).fails hstopped).post (fun _ => hsucceeded)) ⟨.refl s, rfl, rfl⟩ script

lemma KeepsToPairing.reconcile (h : KeepsToPairing env p s) (script : List Answer) :
    KeepsToPairing env p (reconcile s script).2.1 := by
  refine Ensures.final (Ensures.post (Ensures.fails ensures_reconcile (fun s' hs' => ?_)) (fun _ s' hs' => ?_))
    (s := s) ⟨.refl s, rfl, rfl⟩ script
  · obtain ⟨hbeside, hwc, hauthz⟩ := hs'
    refine ⟨?_, by rw [hbeside.head]; exact h.head, by rw [hauthz]; exact h.rules⟩
    rcases hwc with hwc | hwc | hwc
    · rw [hwc]
      exact h.wc
    · rw [hwc]
      exact h.head.restored h.wc
    · rw [hwc]
      exact h.head
  · obtain ⟨hbeside, hwc, hauthz⟩ := hs'
    exact ⟨by rw [hwc]; exact h.head, by rw [hbeside.head]; exact h.head, by rw [hauthz]; exact h.rules⟩

inductive Event
  | operation (op : Operation) (script : List Answer)
  | reconcile (script : List Answer)

def step (env : Env) (s : Service) : Event → Service
  | .operation op script => (perform env op s script).2.1
  | .reconcile script => (reconcile s script).2.1

def CoveredEvent (env : Env) (p : Pairing) (s : Service) : Event → Prop
  | .operation op _ => Covered env p s.wc op
  | .reconcile _ => True

/-- Through failures, crashes and reconciliations a mobile client keeps to its pairing. -/
theorem mobile_keeps_to_pairing (env : Env) (p : Pairing) (s : Service) (events : List Event) (h : KeepsToPairing env p s)
    (hcovered : Admits (step env) (CoveredEvent env p) s events) : Along (step env) (KeepsToPairing env p) s events := by
  refine along_of_admits (step env) (fun s e hs he => ?_) h hcovered
  cases e with
  | operation op script => exact hs.perform he script
  | reconcile script => exact hs.reconcile script

def pairedFiles : Files where
  repositories := [⟨photos, some photosRecord⟩].toAList
  views := [⟨laptop, viewOf homeRealm [photosEntry .rw]⟩, ⟨phone, viewOf homeRealm [photosEntry .r]⟩].toAList
  grants := ∅
  clients := [⟨laptop, some ⟨homeRealm, true, false⟩⟩, ⟨phone, some ⟨homeRealm, true, true⟩⟩].toAList
  realms := [⟨homeRealm, ⟨[], true⟩⟩, ⟨guestRealm, ⟨[], true⟩⟩].toAList

def phonePairing : Pairing := ⟨phone, homeRealm, accessIn [photosEntry .r]⟩

lemma confined_pairedFiles : Confined sampleEnv phonePairing pairedFiles := by
  have hclient : pairedFiles.clients.lookup phone = some (some ⟨homeRealm, true, true⟩) := by decide +kernel
  have hview : pairedFiles.view sampleEnv phone = some ⟨homeRealm, [], 1, .normal, [photosEntry .r], []⟩ := by decide +kernel
  refine ⟨fun c hc => ?_, fun v hv => ?_⟩
  · rw [show phonePairing.client = phone from rfl, hclient, some.injEq, some.injEq] at hc
    rw [← hc]
  · rw [show phonePairing.client = phone from rfl, hview, some.injEq] at hv
    rw [← hv]
    exact ⟨rfl, fun id => le_rfl⟩

lemma keepsToPairing_paired : KeepsToPairing sampleEnv phonePairing (serviceOf pairedFiles) := by
  refine ⟨confined_pairedFiles, confined_pairedFiles, fun id => ?_⟩
  show rank (((canonicalAuthz sampleEnv none pairedFiles).toOption.getD []).access phone id) ≤ _
  cases ha : canonicalAuthz sampleEnv none pairedFiles with
  | error _ => exact Nat.zero_le _
  | ok a =>
    rw [Except.toOption, getD_some, canonicalAuthz_access ha]
    exact confined_pairedFiles.entitlement id

def coveredEvents : List Event :=
  [.operation (.publish letters guestRealm "letters" "svn://data/letters" .none) (calls 20),
    .operation (.delete photos homeRealm) (calls 20), .reconcile (calls 4)]

theorem mobile_keeps_to_pairing_of_guests :
    Admits (step sampleEnv) (CoveredEvent sampleEnv phonePairing) (serviceOf pairedFiles) coveredEvents ∧
      Along (step sampleEnv) (KeepsToPairing sampleEnv phonePairing) (serviceOf pairedFiles) coveredEvents := by
  have hadmits : Admits (step sampleEnv) (CoveredEvent sampleEnv phonePairing) (serviceOf pairedFiles) coveredEvents :=
    ⟨fun h => absurd h (by decide), trivial, trivial, trivial⟩
  exact ⟨hadmits, mobile_keeps_to_pairing sampleEnv phonePairing _ _ keepsToPairing_paired hadmits⟩

/-- A repository that is created in its realm is listed for the phone and open to it with full access. -/
theorem phone_gains_published :
    accessIn [photosEntry .r] letters = none ∧
    (perform sampleEnv (.publish letters homeRealm "letters" "svn://data/letters" .none) (serviceOf pairedFiles)
      (calls 20)).1 = .ok () ∧
    ((perform sampleEnv (.publish letters homeRealm "letters" "svn://data/letters" .none) (serviceOf pairedFiles)
      (calls 20)).2.1.wc.view sampleEnv phone).any (fun v => accessIn v.repositories letters = some .rw) = true ∧
    ((perform sampleEnv (.publish letters homeRealm "letters" "svn://data/letters" .none) (serviceOf pairedFiles)
      (calls 20)).2.1.authz.getD []).access phone letters = some .rw := by
  decide +kernel

end FileES.Authority
