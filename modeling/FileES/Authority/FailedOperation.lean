import FileES.Authority.Agreement

/-! The rules that are in force after an operation has failed and the working copy has been reconciled. -/

namespace FileES.Authority

open Go Lib.Effects Lib.Fallible Lib.Maps List Option AList

variable {env : Env} {f f₁ : Files} {client id : Str}

def NoExtra (env : Env) (s : Service) : Prop :=
  ∀ client id, rank ((s.authz.getD []).access client id) ≤ rank (entitlement env s.head client id)

variable {role : Role} {repo : Repository} {grants grants₁ : Map (Str × Str) Access} {realmID : Str}

lemma rank_limited_mono {a b : Access} (h : rank (some a) ≤ rank (some b)) :
    rank (some (limited role repo a)) ≤ rank (some (limited role repo b)) := by
  rw [limited, limited]
  split
  · exact le_rfl
  · exact h

lemma rank_projectedAccess_mono {mobile : Bool} {v v₁ : View}
    (hbase : rank (baseAccess grants₁ realmID id repo) ≤ rank (baseAccess grants realmID id repo))
    (hlisted : rank (accessIn v₁.repositories id) ≤ rank (accessIn v.repositories id)) :
    rank (projectedAccess grants₁ realmID role mobile (v₁.entry id) id repo) ≤
      rank (projectedAccess grants realmID role mobile (v.entry id) id repo) := by
  rw [projectedAccess, projectedAccess]
  simp only [clientAccess_listed]
  generalize baseAccess grants₁ realmID id repo = base₁ at hbase ⊢
  generalize baseAccess grants realmID id repo = base at hbase ⊢
  generalize accessIn v₁.repositories id = listed₁ at hlisted ⊢
  generalize accessIn v.repositories id = listed at hlisted ⊢
  rcases base₁ with _ | base₁
  · exact Nat.zero_le _
  rcases base with _ | base
  · cases base₁ <;> exact absurd hbase (by decide)
  simp only [bind_eq_bind, bind_some]
  cases mobile with
  | false => exact rank_limited_mono hbase
  | true =>
    by_cases hp : repo.purpose = .none
    · simp only [if_true, if_pos hp]
      rcases listed₁ with _ | listed₁
      · exact Nat.zero_le _
      rcases listed with _ | listed
      · cases listed₁ <;> exact absurd hlisted (by decide)
      refine rank_limited_mono ?_
      revert hbase hlisted
      cases listed₁ <;> cases listed <;> cases base₁ <;> cases base <;> decide
    · simp only [if_true, if_neg hp]
      exact Nat.zero_le _

lemma rank_baseAccess_mono (h : rank (grants₁.lookup (id, realmID)) ≤ rank (grants.lookup (id, realmID))) :
    rank (baseAccess grants₁ realmID id repo) ≤ rank (baseAccess grants realmID id repo) := by
  rw [baseAccess, baseAccess]
  split
  · exact le_rfl
  · exact h

structure Fewer (env : Env) (f f₁ : Files) (id : Str) : Prop where
  clients : f₁.clients = f.clients
  record : ∀ r₁, (liveRepositories f₁).lookup id = some r₁ → ∃ r, (liveRepositories f).lookup id = some r ∧ r₁.rights = r.rights
  grants : ∀ realm, rank ((activeGrants f₁).lookup (id, realm)) ≤ rank ((activeGrants f).lookup (id, realm))
  views : ∀ client v₁, f₁.view env client = some v₁ → ∃ v, f.view env client = some v ∧ SameOwner v v₁ ∧
    rank (accessIn v₁.repositories id) ≤ rank (accessIn v.repositories id)

lemma Fewer.entitlement (h : Fewer env f f₁ id) : rank (entitlement env f₁ client id) ≤ rank (entitlement env f client id) := by
  cases he : Authority.entitlement env f₁ client id with
  | none => exact Nat.zero_le _
  | some access =>
    obtain ⟨c, r₁, v₁, hc, hr₁, hv₁, hproj⟩ := entitlement_repository he
    obtain ⟨r, hr, hrights⟩ := h.record r₁ hr₁
    obtain ⟨v, hv, howner, hlisted⟩ := h.views client v₁ hv₁
    rw [activeClients, h.clients, ← activeClients] at hc
    rw [← hproj, entitlement_eq hr hv, hc, bind_some, projectedAccess_of_rights hrights, howner.realmID, howner.role]
    exact rank_projectedAccess_mono (rank_baseAccess_mono (h.grants v.realmID)) hlisted

lemma lookup_activeGrants (f : Files) (key : Str × Str) :
    (activeGrants f).lookup key = (f.grants.lookup key).bind (fun g => g.bind Grant.access) := by
  apply Option.ext
  intro access
  rw [activeGrants, lookup_filterMap_eq_some, bind_eq_some_iff]

variable {writes : List ((Str × Str) × Grant)} {w : (Str × Str) × Grant} {key : Str × Str}

lemma lookup_putGrants (key : Str × Str) :
    (∃ g, (key, g) ∈ writes ∧ (f.putGrants writes).grants.lookup key = some (some g)) ∨
      (key ∉ writes.map Prod.fst ∧ (f.putGrants writes).grants.lookup key = f.grants.lookup key) := by
  by_cases hmem : key ∈ writes.map Prod.fst
  · refine .inl ?_
    induction writes generalizing f with
    | nil => cases hmem
    | cons w writes ih =>
      by_cases hrest : key ∈ writes.map Prod.fst
      · obtain ⟨g, hg, hlookup⟩ := ih (f := f.putGrant w.1 w.2) hrest
        exact ⟨g, mem_cons_of_mem _ hg, hlookup⟩
      · obtain rfl : key = w.1 := by
          rw [map_cons, mem_cons] at hmem
          exact hmem.resolve_right hrest
        exact ⟨w.2, mem_cons_self, (lookup_putGrants_of_not_mem hrest).trans (lookup_insert _)⟩
  · exact .inr ⟨hmem, lookup_putGrants_of_not_mem hmem⟩

lemma access_of_mem_revoked {k : Str × Str} {file : Option Grant} {g : Grant}
    (h : (k, g) ∈ revoked key file) : g.access = none := by
  rw [revoked.eq_def] at h
  split at h
  · cases h
  · split at h
    · cases h
    · rw [mem_singleton, Prod.mk.injEq] at h
      rw [h.2]

lemma access_of_mem_revocations {repoID : Str} (h : w ∈ revocations f repoID) : w.2.access = none := by
  obtain ⟨e, _, hw⟩ := mem_flatMap.mp h
  exact access_of_mem_revoked hw

lemma access_of_mem_withdrawals {repoIDs : List Str} (h : w ∈ withdrawals f realmID repoIDs) : w.2.access = none := by
  obtain ⟨id, _, hw⟩ := mem_flatMap.mp h
  exact access_of_mem_revoked hw

lemma rank_activeGrants_revoked (h : ∀ w ∈ writes, w.2.access = none) (key : Str × Str) :
    rank ((activeGrants (f.putGrants writes)).lookup key) ≤ rank ((activeGrants f).lookup key) := by
  rw [lookup_activeGrants, lookup_activeGrants]
  rcases lookup_putGrants key with ⟨g, hg, hlookup⟩ | ⟨_, hlookup⟩
  · rw [hlookup, bind_some, bind_some, h (key, g) hg]
    exact Nat.zero_le _
  · rw [hlookup]

lemma lookup_activeGrants_revocations (f : Files) (repoID realm : Str) :
    (activeGrants (f.putGrants (revocations f repoID))).lookup (repoID, realm) = none := by
  rw [lookup_activeGrants]
  rcases lookup_putGrants (repoID, realm) with ⟨g, hg, hlookup⟩ | ⟨hnot, hlookup⟩
  · rw [hlookup, bind_some, bind_some]
    exact access_of_mem_revocations hg
  · rw [hlookup]
    cases hfile : f.grants.lookup (repoID, realm) with
    | none => rfl
    | some file =>
      cases file with
      | none => rfl
      | some g =>
        rw [bind_some, bind_some]
        by_contra haccess
        refine hnot (mem_map.mpr ⟨((repoID, realm), { g with access := none }), ?_, rfl⟩)
        refine mem_flatMap.mpr ⟨⟨(repoID, realm), some g⟩, mem_filter.mpr ⟨mem_entries_iff.mpr hfile, by simp⟩, ?_⟩
        rw [revoked, if_neg haccess]
        exact mem_singleton.mpr rfl

variable {r : Request}

lemma lookup_live_saved (r : Request) (f : Files) (id : Str) : (liveRepositories (r.saved f)).lookup id =
    match r.record with
    | none => (liveRepositories f).lookup id
    | some (k, repo) => if id = k then live (some repo) else (liveRepositories f).lookup id := by
  rw [lookup_liveRepositories, lookup_liveRepositories, r.saved_repositories, Request.recorded.eq_def]
  cases r.record with
  | none => rfl
  | some e =>
    show ((f.repositories.insert e.1 (some e.2)).lookup id).bind live =
      if id = e.1 then live (some e.2) else (f.repositories.lookup id).bind live
    split
    · rename_i hid
      rw [hid, lookup_insert, bind_some]
    · rename_i hid
      rw [lookup_insert_ne hid]

lemma putGrants_congr {g g' : Files} (h : g.grants = g'.grants) (writes : List ((Str × Str) × Grant)) :
    (g.putGrants writes).grants = (g'.putGrants writes).grants := by
  induction writes generalizing g g' with
  | nil => exact h
  | cons w writes ih => exact ih (by simp only [Files.putGrant, h])

lemma activeGrants_saved (r : Request) (f : Files) : activeGrants (r.saved f) = activeGrants (f.putGrants r.grants) := by
  rw [activeGrants, activeGrants, Request.saved, putGrants_congr r.recorded_grants]

lemma Fewer.of_executed (hx : Executed env r f f₁)
    (hrecord : ∀ r₁, (liveRepositories (r.saved f)).lookup id = some r₁ →
      ∃ r, (liveRepositories f).lookup id = some r ∧ r₁.rights = r.rights)
    (hgrants : ∀ realm, rank ((activeGrants (f.putGrants r.grants)).lookup (id, realm)) ≤ rank ((activeGrants f).lookup (id, realm)))
    (hviews : ∀ v next, r.views v = .ok next → (next.getD v).validate env = true → SameOwner v (next.getD v) ∧
      rank (accessIn (next.getD v).repositories id) ≤ rank (accessIn v.repositories id)) : Fewer env f f₁ id := by
  refine ⟨hx.clients, ?_, ?_, ?_⟩
  · rw [liveRepositories, hx.records.repositories, ← liveRepositories]
    exact hrecord
  · rw [activeGrants, hx.records.grants, ← activeGrants, activeGrants_saved]
    exact hgrants
  · intro client v₁ hv₁
    have hview := hx.view client
    cases hv : f.view env client with
    | none =>
      rw [hv, hv₁] at hview
      cases hview
    | some v =>
      rw [hv] at hview
      obtain ⟨next, hnext, hv₁'⟩ := hview
      rw [hv₁, some.injEq] at hv₁'
      rw [hv₁']
      exact ⟨v, rfl, hviews v next hnext (hv₁' ▸ Files.view_valid hv₁)⟩

lemma views_unchanged (v : View) (next : Option View) (h : unchanged v = .ok next) : SameOwner v (next.getD v) ∧
    rank (accessIn (next.getD v).repositories id) ≤ rank (accessIn v.repositories id) := by
  cases h
  exact ⟨⟨rfl, rfl⟩, le_rfl⟩

/-- Nobody gets an access by it: no grant gets wider, and those whom the owners' rules would name write already. -/
def Withdraws (env : Env) (f : Files) : Operation → Prop
  | .publish repoID realmID name url purpose => ∀ record write, recordFor f repoID realmID name url purpose = .ok (record, write) →
      ∀ client v, f.view env client = some v → ∀ id repo,
        (if id = repoID then some record else (liveRepositories f).lookup id) = some repo → repo.ownerRealmID = v.realmID →
        Full repo (if id = repoID ∧ v.realmID = realmID then some (ownerAccess record) else accessIn v.repositories id) →
        rank (some (ownerAccess repo)) ≤ rank (entitlement env f client id)
  | .grant _ recipient repoID access => rank (some access) ≤ rank ((activeGrants f).lookup (repoID, recipient))
  | .transferOwner repoID newRealmID => ∀ client v, f.view env client = some v → v.realmID = newRealmID →
      (activeClients f).lookup client = none ∨ entitlement env f client repoID = some .rw
  | _ => True

variable {repoID : Str} {access : Access} {g : Grant}

lemma fewer_delete (hr : request env f (.delete repoID realmID) = .ok (some r)) (hx : Executed env r f f₁) :
    Fewer env f f₁ id := by
  obtain ⟨record, hrecord, hr⟩ := bind_ok.mp hr
  cases hr
  refine Fewer.of_executed hx ?_ (fun realm => rank_activeGrants_revoked (fun w hw => access_of_mem_revocations hw) _) ?_
  · intro r₁ hr₁
    rw [lookup_live_saved] at hr₁
    by_cases hstate : record.state = .deleted
    · simp only [hstate, ne_eq, not_true, if_false] at hr₁
      exact ⟨r₁, hr₁, rfl⟩
    · simp only [ne_eq, hstate, not_false_eq_true, if_true] at hr₁
      split at hr₁
      · obtain ⟨hsome, hlive⟩ := live_eq_some.mp hr₁
        cases hsome
        exact absurd rfl hlive
      · exact ⟨r₁, hr₁, rfl⟩
  · intro v next hnext _
    refine ⟨withdrawn_sameOwner hnext, ?_⟩
    rw [withdrawn_listing hnext]
    split
    · exact Nat.zero_le _
    · exact le_rfl

lemma fewer_grants (hx : Executed env ⟨none, writes, unchanged, []⟩ f f₁)
    (h : ∀ realm, rank ((activeGrants (f.putGrants writes)).lookup (id, realm)) ≤ rank ((activeGrants f).lookup (id, realm))) :
    Fewer env f f₁ id := by
  refine Fewer.of_executed hx (fun r₁ hr₁ => ?_) h (fun v next hnext _ => views_unchanged v next hnext)
  rw [lookup_live_saved] at hr₁
  exact ⟨r₁, hr₁, rfl⟩

lemma grantRequest_access {owner recipient : Str}
    (h : grantRequest env f owner recipient repoID access = .ok (some g)) : g.access = some access := by
  simp only [grantRequest, bind_ok] at h
  obtain ⟨_, _, _, _, _, _, _, _, _, _, h⟩ := h
  have hfresh : ∀ old, (freshGrant env owner repoID old).map some = .ok (some g) → g.access = some .rw := by
    intro old hold
    obtain ⟨g', hg', hsome⟩ := map_eq_ok.mp hold
    obtain ⟨cutoff, _, hg'⟩ := bind_ok.mp hg'
    cases hg'
    cases hsome
    rfl
  rw [grantRecord.eq_def] at h
  split at h
  · cases h
    rfl
  · exact hfresh none h
  · cases h
  · obtain ⟨_, _, h⟩ := bind_ok.mp h
    cases h
    rfl
  · obtain ⟨_, _, h⟩ := bind_ok.mp h
    split at h
    · cases h
    · exact hfresh _ h

lemma rank_activeGrants_put (hg : g.access = some access)
    (h : rank (some access) ≤ rank ((activeGrants f).lookup key)) (k : Str × Str) :
    rank ((activeGrants (f.putGrants [(key, g)])).lookup k) ≤ rank ((activeGrants f).lookup k) := by
  rw [lookup_activeGrants (f.putGrants [(key, g)])]
  rcases lookup_putGrants k with ⟨g', hmem, hlookup⟩ | ⟨_, hlookup⟩
  · rw [mem_singleton, Prod.mk.injEq] at hmem
    rw [hlookup, bind_some, bind_some, hmem.1, hmem.2, hg]
    exact h
  · rw [hlookup, lookup_activeGrants]

lemma entitlement_transfer {newRealmID : Str} (hw : Withdraws env f (.transferOwner repoID newRealmID))
    (hr : request env f (.transferOwner repoID newRealmID) = .ok (some r)) (hx : Executed env r f f₁) :
    rank (entitlement env f₁ client id) ≤ rank (entitlement env f client id) := by
  obtain ⟨record, _, hr⟩ := bind_ok.mp hr
  have hr := Except.ok.inj hr
  split at hr
  · cases hr
  cases hr
  by_cases hid : id = repoID
  · cases he : entitlement env f₁ client id with
    | none => exact Nat.zero_le _
    | some access =>
      obtain ⟨c, r₁, v₁, hc, hr₁, hv₁, hproj⟩ := entitlement_repository he
      rw [activeClients, hx.clients, ← activeClients] at hc
      rw [liveRepositories, hx.records.repositories, ← liveRepositories, lookup_live_saved] at hr₁
      simp only [if_pos hid] at hr₁
      have howner : r₁.ownerRealmID = newRealmID := by
        have := (live_eq_some.mp hr₁).1
        cases this
        rfl
      have hview := hx.view client
      cases hv : f.view env client with
      | none =>
        rw [hv, hv₁] at hview
        cases hview
      | some v =>
        rw [hv] at hview
        obtain ⟨next, hnext, hv₁'⟩ := hview
        rw [hv₁, some.injEq] at hv₁'
        have hrealm : v₁.realmID = v.realmID := by
          rw [hv₁']
          exact (reassign_sameOwner hnext).realmID
        by_cases hnew : v.realmID = newRealmID
        · rcases hw client v hv hnew with hnone | hfull
          · rw [hnone] at hc
            cases hc
          · rw [hid, hfull]
            cases access <;> decide
        · obtain ⟨base, hbase, _⟩ := bind_eq_some_iff.mp hproj
          rw [baseAccess, hrealm, howner, if_neg (fun h => hnew h.symm), activeGrants, hx.records.grants, ← activeGrants,
            activeGrants_saved, hid, lookup_activeGrants_revocations] at hbase
          cases hbase
  · refine (Fewer.of_executed hx ?_ (fun realm => rank_activeGrants_revoked (fun w hw => access_of_mem_revocations hw) _) ?_).entitlement
    · intro r₁ hr₁
      rw [lookup_live_saved] at hr₁
      simp only [if_neg hid] at hr₁
      exact ⟨r₁, hr₁, rfl⟩
    · intro v next hnext hvalid
      refine ⟨reassign_sameOwner hnext, ?_⟩
      rw [reassign_listing hnext hvalid, if_neg (fun h => hid h.1), if_neg (fun h => hid h.1)]

lemma fewer_policy {policy : Str} (hr : request env f (.setRepositoryEditingPolicy realmID repoID policy) = .ok (some r))
    (hx : Executed env r f f₁) : Fewer env f f₁ id := by
  obtain ⟨record, hrecord, hr⟩ := bind_ok.mp hr
  have hr := Except.ok.inj hr
  split at hr
  · cases hr
  cases hr
  refine Fewer.of_executed hx ?_ (fun _ => le_rfl) (fun v next hnext _ => views_unchanged v next hnext)
  intro r₁ hr₁
  rw [lookup_live_saved] at hr₁
  simp only at hr₁
  split at hr₁
  · rename_i hid
    obtain ⟨_, _, _, _, hrecord⟩ := bind₂_ok.mp hrecord
    obtain ⟨record', howned, _, _, hrecord⟩ := bind₂_ok.mp hrecord
    cases hrecord
    obtain ⟨record', hactive, _, _, howned⟩ := bind₂_ok.mp howned
    cases howned
    obtain ⟨record', hread, _, _, _, _, hactive⟩ := bind₃_ok.mp hactive
    cases hactive
    obtain ⟨hr₁, hstate⟩ := live_eq_some.mp hr₁
    cases hr₁
    refine ⟨record, ?_, rfl⟩
    rw [lookup_liveRepositories, hid, readRepository_ok hread, bind_some]
    exact live_eq_some.mpr ⟨rfl, hstate⟩
  · exact ⟨r₁, hr₁, rfl⟩

lemma Withdraws.entitlement {op : Operation} (hw : Withdraws env f op) (hop : op.finish = .rebuild)
    (hr : request env f op = .ok (some r)) (hx : Executed env r f f₁) :
    rank (entitlement env f₁ client id) ≤ rank (entitlement env f client id) := by
  cases op with
  | publish repoID realmID name url purpose => cases hop
  | activate repoID realmID => cases hop
  | delete repoID realmID => exact (fewer_delete hr hx).entitlement
  | grant owner recipient repoID access =>
    obtain ⟨next, hnext, hr⟩ := bind_ok.mp hr
    obtain ⟨g, rfl, rfl⟩ := map_eq_some_iff.mp (Except.ok.inj hr)
    exact (fewer_grants hx (fun realm => rank_activeGrants_put (grantRequest_access hnext) hw _)).entitlement
  | revokeGrant owner recipient repoID =>
    obtain ⟨g, _, hr⟩ := bind_ok.mp hr
    cases hr
    refine (fewer_grants hx (fun realm => rank_activeGrants_revoked ?_ _)).entitlement
    intro w hw
    rw [mem_singleton.mp hw]
  | transferOwner repoID newRealmID => exact entitlement_transfer hw hr hx
  | withdrawRealmGrants realmID repoIDs =>
    obtain ⟨_, _, hr⟩ := bind_ok.mp hr
    cases hr
    exact (fewer_grants hx (fun realm => rank_activeGrants_revoked (fun w hw => access_of_mem_withdrawals hw) _)).entitlement
  | setRepositoryEditingPolicy realmID repoID policy => exact (fewer_policy hr hx).entitlement
  | rebuild =>
    cases hr
    exact (fewer_grants hx (fun _ => le_rfl)).entitlement

lemma Withdraws.ownerShare {name url : Str} {purpose : Purpose}
    (hw : Withdraws env f (.publish repoID realmID name url purpose))
    (hr : request env f (.publish repoID realmID name url purpose) = .ok (some r)) (hx : Executed env r f f₁) :
    rank (ownerShare env f₁ client id) ≤ rank (Authority.entitlement env f client id) := by
  obtain ⟨record, write, hrecord, rfl⟩ := request_publish hr
  cases hv₁ : f₁.view env client with
  | none =>
    rw [ownerShare_eq_none (.inr hv₁)]
    exact Nat.zero_le _
  | some v₁ =>
    cases hrepo : (liveRepositories f₁).lookup id with
    | none =>
      rw [ownerShare_eq_none (.inl hrepo)]
      exact Nat.zero_le _
    | some repo =>
      rw [ownerShare_eq hrepo hv₁]
      split
      · rename_i hmember
        have hview := hx.view client
        cases hv : f.view env client with
        | none =>
          rw [hv, hv₁] at hview
          cases hview
        | some v =>
          rw [hv] at hview
          obtain ⟨next, hnext, hv₁'⟩ := hview
          rw [hv₁, some.injEq] at hv₁'
          have hvalid : (next.getD v).validate env = true := hv₁' ▸ Files.view_valid hv₁
          rw [hv₁', ownerMember_iff hvalid, offer_listing hnext hvalid, (offer_sameOwner hnext).realmID] at hmember
          rw [liveRepositories, hx.records.repositories, ← liveRepositories, lookup_live_publication hrecord] at hrepo
          exact hw record write hrecord client v hv id repo hrepo hmember.1 hmember.2
      · exact Nat.zero_le _

variable {op : Operation} {s s' : Service}

lemma NoExtra.stopped (h : NoExtra env s) (hclean : s.wc = s.head) (hw : Withdraws env s.wc op)
    (hs : Stopped env op s s.wc s.authz s') : NoExtra env s' := by
  obtain ⟨hbeside, f₁, _, hm⟩ := hs
  intro client id
  rw [hbeside.head]
  have hkept : s'.authz = s.authz → rank ((s'.authz.getD []).access client id) ≤ rank (entitlement env s.head client id) := by
    intro hsame
    rw [hsame]
    exact h client id
  generalize s'.authz = a at hm hkept ⊢
  cases hm with
  | start => exact hkept rfl
  | executing hr hx => exact hkept rfl
  | finishing hr hx hf =>
    cases hop : op.finish with
    | owners =>
      rw [hop] at hf
      obtain ⟨_, hsame | ⟨b, hb, rfl⟩⟩ := hf
      · exact hkept hsame
      · cases op with
        | publish repoID realmID name url purpose =>
          rw [getD_some, renderAuthz_access hb, ← hclean]
          exact hw.ownerShare hr hx
        | _ => cases hop
    | nothing =>
      rw [hop] at hf
      exact hkept hf.2
    | rebuild =>
      rw [hop] at hf
      obtain ⟨_, hsame | ⟨b, rfl, hgives⟩⟩ := hf
      · exact hkept hsame
      · rw [getD_some, hgives, ← hclean]
        exact hw.entitlement hop hr hx

lemma noExtra_serviceOf (f : Files) : NoExtra sampleEnv (serviceOf f) := by
  intro client id
  show rank (((canonicalAuthz sampleEnv none f).toOption.getD []).access client id) ≤ rank (entitlement sampleEnv f client id)
  cases ha : canonicalAuthz sampleEnv none f with
  | error _ => exact Nat.zero_le _
  | ok a => rw [Except.toOption, getD_some, canonicalAuthz_access ha]

def failingAfter (n : ℕ) : List Answer := calls n ++ ⟨[], .failed⟩ :: calls 20

def reconciled (s : Service) : Service := (reconcile s (calls 4)).2.1

def failedRevoke : Service :=
  (perform sampleEnv (.revokeGrant homeRealm guestRealm photos) (reconciled shared) (failingAfter 6)).2.1

def unshared : Service := serviceOf (sampleFiles [] [])

def failedGrant : Service :=
  (perform sampleEnv (.grant homeRealm guestRealm photos .rw) (reconciled unshared) (failingAfter 5)).2.1

end FileES.Authority
