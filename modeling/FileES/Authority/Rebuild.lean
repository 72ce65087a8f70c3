import FileES.Authority.Steps

/-! A rebuild of the authority: it changes no client's access, and the authz file and the views it writes show it. -/

namespace FileES.Authority

open Go Lib.Effects Lib.Fallible Lib.Maps List Option AList

variable {env : Env} {s₀ : Service} {f₀ f : Files} {client id : Str}

def AllLive (m : Repositories) : Prop := ∀ id r, m.lookup id = some r → r.state ≠ .deleted

lemma lookup_liveRepositories : (liveRepositories f).lookup id = (f.repositories.lookup id).bind live := by
  apply Option.ext
  intro r
  rw [liveRepositories, lookup_filterMap_eq_some, bind_eq_some_iff]

variable {r : Repository} {m m' : Repositories}

lemma live_eq_some {file : Option Repository} : live file = some r ↔ file = some r ∧ r.state ≠ .deleted := by
  cases file with
  | none => simp [live]
  | some r' =>
    rw [live, some.injEq]
    split
    · rename_i hdel
      simp only [reduceCtorEq, false_iff, not_and, not_not]
      rintro rfl
      exact hdel
    · rename_i hlive
      rw [some.injEq]
      constructor
      · rintro rfl
        exact ⟨rfl, hlive⟩
      · exact fun h => h.1

lemma allLive_liveRepositories : AllLive (liveRepositories f) := by
  intro id r hr
  rw [lookup_liveRepositories, bind_eq_some_iff] at hr
  obtain ⟨_, _, hr⟩ := hr
  exact (live_eq_some.mp hr).2

lemma AllLive.projectShelf {record : Option Shares.UploadRecord} (hm : AllLive m)
    (h : projectShelf m record = .ok m') : AllLive m' := by
  rw [Authority.projectShelf.eq_def] at h
  split at h
  · cases h
  · obtain ⟨_, _, h⟩ := bind_ok.mp h
    split at h
    · cases h
      exact hm
    · split at h
      · cases h
        exact hm
      · split at h
        · rename_i shelf parent hshelf hparent
          obtain ⟨_, _, _, _, h⟩ := bind₂_ok.mp h
          cases h
          intro k r hr
          rcases lookup_insert_eq_some.mp hr with ⟨_, rfl⟩ | ⟨_, hr⟩
          · show activated _ parent shelf ≠ .deleted
            rw [activated]
            split
            · decide
            · exact hm _ shelf hshelf
          · exact hm k r hr
        · cases h
          exact hm

lemma AllLive.projectShelfParents {channels : Option (List (Option Shares.UploadRecord))} (hm : AllLive m)
    (h : projectShelfParents channels m = .ok m') : AllLive m' := by
  cases channels with
  | none =>
    cases h
    exact hm
  | some records =>
    have hfold : ∀ n, AllLive n → records.foldlM Authority.projectShelf n = .ok m' → AllLive m' := by
      clear h
      induction records with
      | nil =>
        intro n hn h
        cases h
        exact hn
      | cons record records ih =>
        intro n hn h
        rw [foldlM_cons] at h
        obtain ⟨n', hstep, h⟩ := bind_ok.mp h
        exact ih n' (hn.projectShelf hstep) h
    refine hfold _ ?_ h
    intro id r hr
    obtain ⟨r', hr', rfl⟩ := lookup_mapVal_eq_some.mp hr
    have := hm id r' hr'
    rw [resetParent]
    split <;> exact this

structure Shelving (m : Repositories) (f₀ f : Files) : Prop where
  views : f.views = f₀.views
  grants : f.grants = f₀.grants
  clients : f.clients = f₀.clients
  realms : f.realms = f₀.realms
  records : ∀ id, f.repositories.lookup id = f₀.repositories.lookup id ∨
    ∃ r, m.lookup id = some r ∧ f.repositories.lookup id = some (some r)

lemma Shelving.refl : Shelving m f f := ⟨rfl, rfl, rfl, rfl, fun _ => .inl rfl⟩

lemma Shelving.put (h : Shelving m f₀ f) (hr : m.lookup id = some r) : Shelving m f₀ (f.putRepository id r) := by
  refine { h with records := fun k => ?_ }
  by_cases hk : k = id
  · subst hk
    exact .inr ⟨r, hr, lookup_insert _⟩
  · rw [Files.putRepository, lookup_insert_ne hk]
    exact h.records k

lemma Shelving.sameRights (h : Shelving m f₀ f) (hm : AllLive m) (hs : SameRights (liveRepositories f₀) m) :
    SameRights (liveRepositories f₀) (liveRepositories f) := by
  intro id
  rcases h.records id with he | ⟨r, hr, he⟩
  · rw [lookup_liveRepositories, lookup_liveRepositories, he]
  · have hid := hs id
    rw [hid, hr, lookup_liveRepositories, he, bind_some, live_eq_some.mpr ⟨rfl, hm id r hr⟩]

lemma ensures_saveShelves {a₀ : Option Authz} (before : Repositories) :
    Ensures (Fixed s₀ f₀ a₀) (m.entries.foldlM (saveProjected before) [])
      (fun _ => Among s₀ (Shelving m f₀) a₀) (Among s₀ (Shelving m f₀) a₀) := by
  have hloop := Ensures.foldlM (R := Among s₀ (Shelving m f₀) a₀)
    (J := fun _ (_ : List Place) => Among s₀ (Shelving m f₀) a₀)
    (f := saveProjected before) (l := m.entries) (fun done e rest heq changed => ?_) []
  · refine hloop.pre (fun s hs => hs.mono (fun f a hf => ?_))
    rw [hf.1]
    exact ⟨.refl, hf.2⟩
  · have hlookup : m.lookup e.1 = some e.2 := mem_entries_iff.mp (by rw [heq]; simp)
    rw [saveProjected]
    split
    · exact .done
    · have hput : ∀ f a, Shelving m f₀ f ∧ a = a₀ → Shelving m f₀ (f.putRepository e.1 e.2) ∧ a = a₀ :=
        fun f a hf => ⟨hf.1.put hlookup, hf.2⟩
      exact .seq (ensures_write (g := (·.putRepository e.1 e.2)) hput (fun _ _ hf => hf) hput) .done

lemma projectedAccess_again {grants : Map (Str × Str) Access} {realmID : Str} {role : Role}
    {mobile : Bool} {current current' : Option Projected} {repo : Repository}
    (h : current'.map Projected.access = projectedAccess grants realmID role mobile current id repo) :
    projectedAccess grants realmID role mobile current' id repo =
      projectedAccess grants realmID role mobile current id repo := by
  rw [projectedAccess] at h
  rw [projectedAccess, projectedAccess]
  cases hb : baseAccess grants realmID id repo with
  | none => rfl
  | some base =>
    rw [hb] at h
    simp only [bind_eq_bind, bind_some] at h ⊢
    cases mobile with
    | false => rfl
    | true =>
      by_cases hp : repo.purpose = .none
      · simp only [clientAccess, if_true, if_pos hp] at h ⊢
        cases current with
        | none => rw [map_eq_none_iff.mp h]
        | some p =>
          simp only [Option.map_some, Option.bind_some, Option.pure_def, Option.map_eq_some_iff] at h ⊢
          obtain ⟨p', rfl, ha⟩ := h
          rw [map_some, bind_some, ha]
          cases hl : role = Role.ro || repo.readOnly with
          | true => simp [limited, hl]
          | false => cases hpa : p.access <;> cases base <;> simp [limited, hl]
      · simp only [clientAccess, if_true, if_neg hp]

structure Shows (env : Env) (f₀ : Files) (client : Str) (v' : View) : Prop where
  was : ∃ v, f₀.view env client = some v ∧ v'.realmID = v.realmID ∧ v'.role = v.role
  entries : ∀ id, accessIn v'.repositories id = entitlement env f₀ client id

structure Rebuilding (env : Env) (f₀ f : Files) : Prop where
  grants : f.grants = f₀.grants
  clients : f.clients = f₀.clients
  realms : f.realms = f₀.realms
  rights : SameRights (liveRepositories f₀) (liveRepositories f)
  views : ∀ client, f.views.lookup client = f₀.views.lookup client ∨
    ∃ v, f.views.lookup client = some (some v) ∧ v.validate env = true ∧ Shows env f₀ client v

lemma Rebuilding.entitlement (h : Rebuilding env f₀ f) : entitlement env f client id = entitlement env f₀ client id := by
  rw [Authority.entitlement, Authority.entitlement, activeGrants, activeClients, h.grants, h.clients, ← activeGrants,
    ← activeClients]
  cases hc : (activeClients f₀).lookup client with
  | none => rfl
  | some c =>
    have hid := h.rights id
    cases hr : (liveRepositories f₀).lookup id with
    | none =>
      rw [hr, map_none, eq_comm, map_eq_none_iff] at hid
      rw [hid]
      rfl
    | some repo =>
      rw [hr, map_some, eq_comm, map_eq_some_iff] at hid
      obtain ⟨repo', hr', hrights⟩ := hid
      rw [hr']
      simp only [bind_eq_bind, bind_some]
      rcases h.views client with he | ⟨v', hv', hvalid, hshows⟩
      · rw [view_congr he]
        exact congrArg _ (funext fun v => projectedAccess_of_rights hrights)
      · obtain ⟨v, hv, hrealm, hrole⟩ := hshows.was
        have hview : f.view env client = some v' := by
          rw [Files.view, hv']
          simp [filter, hvalid]
        have hentry := hshows.entries id
        rw [Authority.entitlement, hc, hr, hv] at hentry
        simp only [bind_eq_bind, bind_some] at hentry
        rw [hview, hv, bind_some, bind_some, projectedAccess_of_rights hrights, hrealm, hrole]
        exact projectedAccess_again hentry

lemma Shelving.rebuilding (h : Shelving m f₀ f) (hm : AllLive m)
    (hs : SameRights (liveRepositories f₀) m) : Rebuilding env f₀ f :=
  ⟨h.grants, h.clients, h.realms, h.sameRights hm hs, fun client => .inl (by rw [h.views])⟩

structure Planning (env : Env) (f₀ : Files) (m : Repositories) (done : List (Sigma fun _ : Str => Client))
    (plans : List Plan) (f : Files) : Prop where
  rebuilding : Rebuilding env f₀ f
  plans : done.mapM (projectClient env f₀ m (activeGrants f₀)) = .ok plans
  shown : ∀ e ∈ done, ∃ v, f.view env e.1 = some v ∧ Shows env f₀ e.1 v
  pending : ∀ client, (∀ e ∈ done, e.1 ≠ client) → f.views.lookup client = f₀.views.lookup client

variable {f' : Files} {done : List (Sigma fun _ : Str => Client)} {plans : List Plan} {plan : Plan}
  {e : Sigma fun _ : Str => Client} {a₀ : Option Authz}

variable {v : View}

lemma shows_planFor {v' : View} {realm : Realm} {c : Client} (hs : SameRights (liveRepositories f₀) m)
    (hc : (activeClients f₀).lookup client = some c) (hv : f₀.view env client = some v)
    (hplan : (planFor m (activeGrants f₀) client c.mobile v realm).view.getD v = v') : Shows env f₀ client v' := by
  have hlist : v'.repositories = projectedRepositories m (activeGrants f₀) c.mobile v ∧ v'.realmID = v.realmID ∧
      v'.role = v.role := by
    subst hplan
    rw [planFor]
    split
    · rename_i h
      exact ⟨h.1, rfl, rfl⟩
    · exact ⟨rfl, rfl, rfl⟩
  refine ⟨⟨v, hv, hlist.2⟩, fun id => ?_⟩
  rw [hlist.1]
  exact accessIn_projection hs hc hv

lemma Planning.next (h : Planning env f₀ m done plans f) (hplan : projectClient env f₀ m (activeGrants f₀) e = .ok plan)
    (hr : Rebuilding env f₀ f') (hshow : ∃ v, f'.view env e.1 = some v ∧ Shows env f₀ e.1 v)
    (hother : ∀ client, client ≠ e.1 → f'.views.lookup client = f.views.lookup client) (he : ∀ e' ∈ done, e'.1 ≠ e.1) :
    Planning env f₀ m (done ++ [e]) (plans ++ [plan]) f' := by
  refine ⟨hr, ?_, ?_, ?_⟩
  · rw [mapM_append, h.plans, mapM_cons, mapM_nil, hplan]
    rfl
  · intro e' he'
    rcases mem_append.mp he' with he' | he'
    · obtain ⟨v, hv, hshow⟩ := h.shown e' he'
      exact ⟨v, (view_congr (hother e'.1 (he e' he'))).trans hv, hshow⟩
    · rw [mem_singleton.mp he']
      exact hshow
  · intro client hclient
    rw [hother client (fun h => hclient e (by simp) h.symm)]
    exact h.pending client (fun e' he' => hclient e' (mem_append_left _ he'))

lemma Rebuilding.putView (h : Rebuilding env f₀ f) (hvalid : v.validate env = true)
    (hshow : Shows env f₀ client v) : Rebuilding env f₀ (f.putView client v) := by
  refine { h with views := fun k => ?_ }
  by_cases hk : k = client
  · subst hk
    exact .inr ⟨v, lookup_insert _, hvalid, hshow⟩
  · rw [Files.putView, lookup_insert_ne hk]
    exact h.views k

lemma ensures_savePlan (hs : SameRights (liveRepositories f₀) m) (hc : (activeClients f₀).lookup e.1 = some e.2)
    (he : ∀ e' ∈ done, e'.1 ≠ e.1) (changed : List Place) :
    Ensures (Among s₀ (Planning env f₀ m done plans) a₀) (savePlan env f₀ m (activeGrants f₀) (plans, changed) e)
      (fun saved => At s₀ (fun f a => Planning env f₀ m (done ++ [e]) saved.1 f ∧ a = a₀))
      (Among s₀ (Rebuilding env f₀) a₀) := by
  refine .except (fun s hs => hs.mono (fun f a hf => ⟨hf.1.rebuilding, hf.2⟩)) (fun plan hplan => ?_)
  obtain ⟨v, realm, hv, _, _, rfl, hvalid⟩ := projectClient_ok hplan
  cases hview : (planFor m (activeGrants f₀) e.1 e.2.mobile v realm).view with
  | none =>
    refine .pure (fun s hs' => hs'.mono (fun f a hf => ⟨hf.1.next hplan hf.1.rebuilding ?_ (fun _ _ => rfl) he, hf.2⟩))
    exact ⟨v, (view_congr (hf.1.pending e.1 he)).trans hv, shows_planFor hs hc hv (by rw [hview]; rfl)⟩
  | some v' =>
    rw [hview, all_some] at hvalid
    have hshow : Shows env f₀ e.1 v' := shows_planFor hs hc hv (by rw [hview]; rfl)
    refine .seq (ensures_write (g := (·.putView e.1 v'))
      (Ψ := fun f a => Planning env f₀ m (done ++ [e]) (plans ++ [planFor m (activeGrants f₀) e.1 e.2.mobile v realm]) f ∧ a = a₀)
      (fun f a hf => ⟨?_, hf.2⟩) (fun f a hf => ⟨hf.1.rebuilding, hf.2⟩)
      (fun f a hf => ⟨hf.1.rebuilding.putView hvalid hshow, hf.2⟩)) (.pure (fun _ hs => hs))
    exact hf.1.next hplan (hf.1.rebuilding.putView hvalid hshow) ⟨v', view_putView hvalid, hshow⟩
      (fun client hne => lookup_insert_ne hne) he

def Gives (env : Env) (f : Files) (a : Option Authz) : Prop :=
  ∃ b, a = some b ∧ ∀ client id, b.access client id = entitlement env f client id

structure Rebuilt (env : Env) (f₀ f : Files) (a : Option Authz) : Prop where
  rebuilding : Rebuilding env f₀ f
  shown : ∀ client c, (activeClients f₀).lookup client = some c → ∃ v, f.view env client = some v ∧ Shows env f₀ client v
  gives : Gives env f₀ a

lemma sortedClients_nodup (clients : Map Str Client) : ((sortedClients clients).map Sigma.fst).Nodup := by
  rw [sortedClients, (perm_insertionSort _ _).map Sigma.fst |>.nodup_iff]
  exact clients.keys_nodup

lemma ensures_savePlans (hs : SameRights (liveRepositories f₀) m) (changed : List Place) :
    Ensures (At s₀ (fun f a => Rebuilding env f₀ f ∧ f.views = f₀.views ∧ a = a₀))
      ((sortedClients (activeClients f₀)).foldlM (savePlan env f₀ m (activeGrants f₀)) ([], changed))
      (fun saved => At s₀ (fun f a => Planning env f₀ m (sortedClients (activeClients f₀)) saved.1 f ∧ a = a₀))
      (Among s₀ (Rebuilding env f₀) a₀) := by
  have hloop := Ensures.foldlM (R := Among s₀ (Rebuilding env f₀) a₀)
    (J := fun done (saved : List Plan × List Place) => Among s₀ (Planning env f₀ m done saved.1) a₀)
    (f := savePlan env f₀ m (activeGrants f₀)) (l := sortedClients (activeClients f₀))
    (fun done e rest heq saved => ?_) ([], changed)
  · refine hloop.pre (fun s hs => hs.mono (fun f a hf => ⟨⟨hf.1, rfl, by simp, fun client _ => ?_⟩, hf.2.2⟩))
    rw [hf.2.1]
  · have hmem : e ∈ sortedClients (activeClients f₀) := by
      rw [heq]
      simp
    refine ensures_savePlan hs (mem_entries_iff.mp ((mem_insertionSort _).mp hmem)) ?_ saved.2
    have hnodup := sortedClients_nodup (activeClients f₀)
    rw [heq, map_append] at hnodup
    intro e' he' heq'
    exact disjoint_of_nodup_append hnodup (mem_map_of_mem he') (by simp [heq'])

lemma ensures_rebuildGrantAuthority (f₀ : Files) (a₀ : Option Authz) :
    Ensures (Fixed s₀ f₀ a₀) (rebuildGrantAuthority env) (fun _ => At s₀ (fun f a => Rebuilt env f₀ f a))
      (At s₀ (fun f a => Rebuilding env f₀ f ∧ (a = a₀ ∨ Gives env f₀ a))) := by
  have hin : ∀ s, Fixed s₀ f₀ a₀ s → At s₀ (fun f a => Rebuilding env f₀ f ∧ (a = a₀ ∨ Gives env f₀ a)) s := by
    refine fun s hs => hs.mono (fun f a hf => ?_)
    rw [hf.1]
    exact ⟨⟨rfl, rfl, rfl, fun _ => rfl, fun _ => .inl rfl⟩, .inl hf.2⟩
  refine ensures_read_at (fun s₁ _ hwc hauthz => ?_)
  rw [hwc, hauthz]
  refine .except hin (fun model hmodel => ?_)
  obtain ⟨_, _, _, _, _, _, hmodel⟩ := bind₃_ok.mp hmodel
  cases hmodel
  refine .except hin (fun m hm => ?_)
  have hs := sameRights_projectShelfParents hm
  have hlive := allLive_liveRepositories.projectShelfParents hm
  refine .bind (.fails (ensures_saveShelves (liveRepositories f₀))
    (fun s hs' => hs'.mono (fun f a hf => ⟨hf.1.rebuilding hlive hs, .inl hf.2⟩))) (fun changed => ?_)
  refine .bind (.pre (.fails (ensures_savePlans hs changed) (fun s hs' => hs'.mono (fun f a hf => ⟨hf.1, .inl hf.2⟩)))
    (fun s hs' => hs'.mono (fun f a hf => ⟨hf.1.rebuilding hlive hs, hf.1.views, hf.2⟩))) (fun saved => ?_)
  have hfinish : ∀ f, Planning env f₀ m (sortedClients (activeClients f₀)) saved.1 f →
      Rebuilt env f₀ f (some (renderCanonicalGrantAuthz m (activeClients f₀) saved.1)) := by
    refine fun f hf => ⟨hf.rebuilding, ?_, ⟨_, rfl, fun client id => (planned_of_mapM hf.plans).access hs⟩⟩
    exact fun client c hc => hf.shown ⟨client, c⟩ ((mem_insertionSort _).mpr (mem_entries_iff.mpr hc))
  refine .seq (Q := At s₀ (fun f a => Rebuilt env f₀ f a)) (.onlyIf_of (fun _ => ?_) (fun hskip => ?_))
    .done
  · refine ensures_putAuthz (fun f a hf => hfinish f hf.1) (fun f a hf => ⟨hf.1.rebuilding, .inl hf.2⟩) (fun f a hf => ?_)
    exact ⟨hf.1.rebuilding, .inr (hfinish f hf.1).gives⟩
  · refine fun s hs' => hs'.mono (fun f a hf => ?_)
    rw [decide_eq_false_iff_not, not_not] at hskip
    rw [hf.2, hskip]
    exact hfinish f hf.1

end FileES.Authority
