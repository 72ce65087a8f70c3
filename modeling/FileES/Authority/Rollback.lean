import FileES.Authority.Agreement
import FileES.Authority.Creation
import FileES.Lib.Completion

/-! When the rollback of a failed creation completes. -/

namespace FileES.Authority

open Go Lib.Durable Lib.Effects Lib.Fallible Lib.Maps List Option AList

variable {P : Service → Prop} {env : Env} {s₀ : Service} {f₀ f : Files} {a₀ : Option Authz} {repoID realmID client : Str}

lemma completes_call_bind {β : Type} {k : Write → Op β} {T : β → Service → Prop}
    (h : Completes succeeds P (k .done) T) : Completes succeeds P (call >>= k) T := by
  have hcall : Completes succeeds P call (fun w s => w = .done ∧ P s) := by
    refine .bind .ask (fun a => ?_)
    refine .seq (Q := fun s => a.write = .done ∧ P s) (.update (fun s hs => ?_)) ?_
    · obtain ⟨rfl, hs⟩ := hs
      exact ⟨rfl, hs⟩
    · exact .pure (fun s hs => hs)
  refine .bind hcall (fun w s hw => ?_)
  obtain ⟨rfl, hs⟩ := hw
  exact h s hs

lemma completes_save {f : Service → Service} : Completes succeeds P (save f) (fun _ _ => True) :=
  completes_call_bind (.bind (Q := fun _ _ => True) (.update (fun _ _ => trivial)) (fun _ => .any))

lemma completes_command {text : Str} : Completes succeeds P (command text) (fun _ _ => True) :=
  completes_call_bind (.any)

lemma completes_addPaths (done todo : List Place) : Completes succeeds P (addPaths done todo) (fun _ _ => True) := by
  induction todo generalizing done with
  | nil => exact .any
  | cons p todo ih => exact completes_call_bind (ih (done ++ [p]))

lemma completes_publishPaths (paths : List Place) : Completes succeeds P (publishPaths paths) (fun _ _ => True) := by
  rw [publishPaths]
  split
  · exact .any
  · refine .seq (completes_addPaths [] paths) (completes_call_bind ?_)
    exact .update (fun _ _ => trivial)

section

variable {g : View → Except Str (Option View)}

lemma completes_rewriteView {done : List Str} {changed : List Place} (hd : client ∉ done)
    (hg : ∀ v, f₀.view env client = some v → ∃ next, g v = .ok next ∧ ∀ v' ∈ next, v'.validate env = true) :
    Completes succeeds (Among s₀ (Rewriting env g f₀ done) a₀) (rewriteView env g changed client)
      (fun _ _ => True) := by
  refine .read_bind (fun s₁ hs₁ => ?_)
  rw [show s₁.wc.view env client = f₀.view env client from view_congr (hs₁.2.1.pending client hd)]
  cases hv : f₀.view env client with
  | none => exact .any
  | some v =>
    obtain ⟨next, hnext, hvalid⟩ := hg v hv
    refine .except hnext ?_
    cases next with
    | none => exact .any
    | some v' =>
      refine .except (a := ()) (require_ok.mpr (hvalid v' rfl)) ?_
      exact .seq completes_save .any

lemma completes_rewriteViews
    (hg : ∀ client v, f₀.view env client = some v → ∃ next, g v = .ok next ∧ ∀ v' ∈ next, v'.validate env = true) :
    Completes succeeds (Fixed s₀ f₀ a₀) (rewriteViews env g) (fun _ _ => True) := by
  refine Completes.read_bind (fun s₁ hs₁ => ?_)
  rw [hs₁.2.1]
  have hloop := Completes.foldlM (w := succeeds)
    (J := fun done (_ : List Place) => Among s₀ (Rewriting env g f₀ done) a₀)
    (f := rewriteView env g) (l := f₀.views.keys) (fun done client rest heq changed => ?_) []
  · refine hloop.conseq (fun s hs => hs.1.mono (fun f a hf => ?_)) (fun _ _ _ => trivial)
    rw [hf.1]
    exact ⟨.start, hf.2⟩
  · have hd : client ∉ done := by
      have hnodup : f₀.views.keys.Nodup := f₀.views.keys_nodup
      rw [heq] at hnodup
      exact fun hmem => disjoint_of_nodup_append hnodup hmem (by simp)
    exact (completes_rewriteView hd (hg client)).ensuring (ensures_rewriteView hd changed)

lemma completes_revokeRepositoryGrants (hf : f.grants = f₀.grants)
    (hg : ∀ key file, f₀.grants.lookup key = some file → key.1 = repoID → ∃ g, file = some g ∧ g.valid key = true) :
    Completes succeeds (Fixed s₀ f a₀) (revokeRepositoryGrants repoID) (fun _ _ => True) := by
  refine Completes.read_bind (fun s₁ hs₁ => ?_)
  rw [hs₁.2.1, hf]
  have hloop := Completes.foldlM (w := succeeds) (J := fun _ (_ : List Place) (_ : Service) => True)
    (f := fun changed e => revokeFile changed e.1 e.2) (l := f₀.grants.entries.filter (fun e => e.1.1 = repoID))
    (fun done e rest heq changed => ?_) []
  · exact hloop.pre (fun _ _ => trivial)
  · have hmem : e ∈ f₀.grants.entries.filter (fun e => e.1.1 = repoID) := by
      rw [heq]
      simp
    obtain ⟨hentry, hid⟩ := mem_filter.mp hmem
    obtain ⟨g, hfile, hvalid⟩ := hg e.1 e.2 (mem_entries_iff.mp hentry) (by simpa using hid)
    rw [hfile]
    refine .except (a := ()) (require_ok.mpr hvalid) ?_
    split
    · exact .any
    · exact .seq completes_save .any

lemma completes_rebuildGrantAuthority {b : Authz} (h : canonicalAuthz env s₀.channels f₀ = .ok b) :
    Completes succeeds (Fixed s₀ f₀ a₀) (rebuildGrantAuthority env) (fun _ _ => True) := by
  refine Completes.read_bind (fun s₁ hs₁ => ?_)
  rw [hs₁.2.1, hs₁.1.channels]
  obtain ⟨model, hmodel, m, hshelves, plans, hplans, _⟩ := bind₃_ok.mp h
  refine .except hmodel (.except hshelves ?_)
  have hsave := Completes.foldlM (w := succeeds) (J := fun _ (_ : List Place) (_ : Service) => True)
    (f := saveProjected model.repositories) (l := m.entries) (fun done e rest heq changed => ?_) []
  · refine .bind (hsave.pre (fun _ _ => trivial)) (fun changed => ?_)
    have hplan := Completes.foldlM (w := succeeds) (J := fun _ (_ : List Plan × List Place) (_ : Service) => True)
      (f := savePlan env f₀ m model.grants) (l := sortedClients model.clients) (fun done e rest heq saved => ?_) ([], changed)
    · refine .bind hplan (fun saved => .seq (.onlyIf completes_save) ?_)
      exact .any
    · obtain ⟨plan, _, hproject⟩ := exists_of_mapM_eq_ok hplans (show e ∈ sortedClients model.clients by rw [heq]; simp)
      refine .except hproject ?_
      cases plan.view with
      | none => exact .any
      | some v => exact .seq completes_save .any
  · rw [saveProjected]
    split
    · exact .any
    · exact .seq completes_save .any

end

/-- The record allows the removal, the grants can be read, no lock hangs on it, and the rest can be projected. -/
structure Removable (env : Env) (channels : Option (List (Option Shares.UploadRecord))) (f : Files)
    (repoID realmID : Str) : Prop where
  identifier : isUUID repoID = true
  authorized : ∃ record, authorizeDelete f repoID realmID = .ok record
  grants : ∀ key file, f.grants.lookup key = some file → key.1 = repoID → ∃ g, file = some g ∧ g.valid key = true
  locks : ∀ client v, f.view env client = some v → repoID ∉ v.lockRequests
  projected : ∀ r, request env f (.delete repoID realmID) = .ok (some r) →
    ∃ b, canonicalAuthz env channels (rewrittenViews env (withdrawn repoID) (r.saved f)) = .ok b

variable {v : View} {op : Str} {r : BackendRecord}

lemma mem_entry {id : Str} : (v.entry id).isSome = true ↔ id ∈ v.repositories.map Projected.repoID := by
  rw [View.entry, List.find?_isSome, List.mem_map]
  simp

lemma withdrawn_valid (hv : v.validate env = true) :
    (∃ next, withdrawn repoID v = .ok next ∧ ∀ v' ∈ next, v'.validate env = true) ↔ repoID ∉ v.lockRequests := by
  have hlocked : ∀ id ∈ v.lockRequests, id ∈ v.repositories.map Projected.repoID := by
    simp only [View.validate, Bool.and_eq_true, List.all_eq_true, decide_eq_true_eq] at hv
    exact hv.2
  constructor
  · rintro ⟨next, hnext, hvalid⟩ hlock
    have hentry := mem_entry.mpr (hlocked repoID hlock)
    rw [withdrawn, if_pos hentry] at hnext
    cases hnext
    have := hvalid _ rfl
    simp only [View.validate, Bool.and_eq_true, List.all_eq_true, decide_eq_true_eq] at this
    obtain ⟨p, hp, hid⟩ := List.mem_map.mp (this.2 repoID hlock)
    have := (mem_filter.mp hp).2
    simp [hid] at this
  · intro hfree
    refine ⟨_, rfl, fun v' hv' => ?_⟩
    split at hv'
    · cases hv'
      simp only [View.validate, Bool.and_eq_true, List.all_eq_true, decide_eq_true_eq] at hv ⊢
      obtain ⟨⟨⟨⟨⟨hrealm, halias⟩, hgen⟩, hall⟩, hnodup⟩, hlocks⟩ := hv
      refine ⟨⟨⟨⟨⟨hrealm, halias⟩, Nat.le_add_left 1 _⟩, fun p hp => hall p (List.mem_filter.mp hp).1⟩, ?_⟩, ?_⟩
      · exact hnodup.sublist (filter_sublist.map Projected.repoID)
      · intro id hid
        obtain ⟨p, hp, rfl⟩ := mem_map.mp (hlocks id hid)
        refine mem_map.mpr ⟨p, mem_filter.mpr ⟨hp, ?_⟩, rfl⟩
        simp only [decide_not, Bool.not_eq_true', decide_eq_false_iff_not]
        exact fun he => hfree (he ▸ hid)
    · cases hv'

lemma request_delete (env : Env) {record : Repository} (h : authorizeDelete f₀ repoID realmID = .ok record) :
    ∃ r, request env f₀ (.delete repoID realmID) = .ok (some r) ∧
      (r.record = if decide (record.state ≠ .deleted) then some (repoID, { record with state := .deleted }) else none) ∧
      r.grants = revocations f₀ repoID := by
  rw [request, h]
  exact ⟨_, rfl, by simp, rfl⟩

lemma completes_delete (h : Removable env s₀.channels f₀ repoID realmID) :
    Completes succeeds (Fixed s₀ f₀ a₀) (delete env repoID realmID) (fun _ _ => True) := by
  obtain ⟨record, hrecord⟩ := h.authorized
  refine Completes.read_bind (fun s₁ hs₁ => ?_)
  rw [hs₁.2.1]
  refine .except hrecord (.pre (P := Fixed s₀ f₀ a₀) ?_ (fun s hs => hs.1))
  obtain ⟨r, hr, hrecorded, hgrants⟩ := request_delete env hrecord
  refine Completes.bind ((Completes.onlyIf completes_save).ensuring (ensures_record hr hrecorded)) (fun _ => ?_)
  refine .bind ((completes_revokeRepositoryGrants r.recorded_grants h.grants).ensuring
    (ensures_revokeRepositoryGrants hr hgrants)) (fun revoked => ?_)
  have hrewrite : Completes succeeds (Fixed s₀ (r.saved f₀) a₀) (rewriteViews env (withdrawn repoID))
      (fun _ _ => True) := by
    refine completes_rewriteViews (fun client v hv => ?_)
    rw [show (r.saved f₀).view env client = f₀.view env client from view_congr (by rw [r.saved_views])] at hv
    exact (withdrawn_valid (Files.view_valid hv)).mpr (h.locks client v hv)
  refine .bind (hrewrite.ensuring (ensures_rewriteViews (withdrawn repoID) (r.saved f₀) a₀)) (fun changed => ?_)
  obtain ⟨b, hb⟩ := h.projected r hr
  refine .bind (.pre (completes_rebuildGrantAuthority hb) (fun s hs => hs.mono (fun f a hf => ⟨hf.1.exact, hf.2⟩)))
    (fun rebuilt => completes_publishPaths _)

lemma ensures_grants_valid : Ensures (Fixed s₀ f a₀) (revokeRepositoryGrants repoID)
    (fun _ _ => ∀ key file, f.grants.lookup key = some file → key.1 = repoID → ∃ g, file = some g ∧ g.valid key = true)
    (fun _ => True) := by
  refine ensures_read_at (fun s₁ _ hs₁ _ => ?_)
  rw [hs₁]
  have hloop := Ensures.foldlM (R := fun _ => True)
    (J := fun done (_ : List Place) (_ : Service) => ∀ e ∈ done, ∃ g, e.2 = some g ∧ g.valid e.1 = true)
    (f := fun changed e => revokeFile changed e.1 e.2) (l := f.grants.entries.filter (fun e => e.1.1 = repoID))
    (fun done e rest _ changed => ?_) []
  · refine hloop.conseq (fun _ _ => by simp) (fun _ _ hall key file hfile hid => ?_)
    exact hall ⟨key, file⟩ (mem_filter.mpr ⟨mem_entries_iff.mpr hfile, by simpa using hid⟩)
  · have hnext : ∀ g, e.2 = some g → g.valid e.1 = true → (∀ e' ∈ done, ∃ g, e'.2 = some g ∧ g.valid e'.1 = true) →
        ∀ e' ∈ done ++ [e], ∃ g, e'.2 = some g ∧ g.valid e'.1 = true := by
      intro g hg hvalid hdone e' he'
      rcases mem_append.mp he' with he' | he'
      · exact hdone e' he'
      · rw [mem_singleton.mp he']
        exact ⟨g, hg, hvalid⟩
    cases hfile : e.2 with
    | none => exact .fail (fun _ _ => trivial)
    | some g =>
      refine .checked (fun _ hvalid => ?_)
      have hvalid := require_ok.mp hvalid
      split
      · exact .pure (fun s hs => hnext g hfile hvalid hs)
      · refine .bind (Q := fun _ _ => ∀ e' ∈ done ++ [e], ∃ g, e'.2 = some g ∧ g.valid e'.1 = true) ?_
          (fun _ => .done)
        exact ensures_save (fun _ _ hs => hs) (fun _ _ => trivial) (fun _ hs => hnext g hfile hvalid hs) (fun _ _ => trivial)

lemma ensures_canonical : Ensures (Fixed s₀ f₀ a₀) (rebuildGrantAuthority env)
    (fun _ _ => ∃ b, canonicalAuthz env s₀.channels f₀ = .ok b) (fun _ => True) := by
  refine ensures_read_at (fun s₁ hbeside hs₁ _ => ?_)
  rw [hs₁, hbeside.channels]
  refine Ensures.checked (fun model hmodel => ?_)
  refine .checked (fun m hshelves => ?_)
  refine .bind (.fails Ensures.any (fun _ _ => trivial)) (fun changed => ?_)
  have hloop := Ensures.foldlM (R := fun _ => True)
    (J := fun done (saved : List Plan × List Place) (_ : Service) => done.mapM (projectClient env f₀ m model.grants) = .ok saved.1)
    (f := savePlan env f₀ m model.grants) (l := sortedClients model.clients) (fun done e rest _ saved => ?_) ([], changed)
  · refine .bind (hloop.pre (fun _ _ => rfl)) (fun saved => .fact (fun _ hplans => ?_))
    exact ⟨_, bind_ok.mpr ⟨model, hmodel, bind_ok.mpr ⟨m, hshelves, bind_ok.mpr ⟨_, hplans, rfl⟩⟩⟩⟩
  · refine .checked (fun plan hplan => ?_)
    have hnext : done.mapM (projectClient env f₀ m model.grants) = .ok saved.1 →
        (done ++ [e]).mapM (projectClient env f₀ m model.grants) = .ok (saved.1 ++ [plan]) := by
      intro hdone
      rw [mapM_append, hdone, mapM_cons, mapM_nil, hplan]
      rfl
    cases plan.view with
    | none => exact .pure (fun _ hs => hnext hs)
    | some v =>
      refine .bind (Q := fun _ _ => (done ++ [e]).mapM (projectClient env f₀ m model.grants) = .ok (saved.1 ++ [plan])) ?_
        (fun _ => .pure (fun _ hs => hs))
      exact ensures_save (fun _ _ hs => hs) (fun _ _ => trivial) (fun _ hs => hnext hs) (fun _ _ => trivial)

lemma ensures_removable (hid : isUUID repoID = true) : Ensures (Fixed s₀ f₀ a₀) (delete env repoID realmID)
    (fun _ _ => Removable env s₀.channels f₀ repoID realmID) (fun _ => True) := by
  refine ensures_read_at (fun s₁ _ hs₁ _ => ?_)
  rw [hs₁]
  refine .checked (fun record hrecord => ?_)
  obtain ⟨r, hr, hrecorded, hgrants⟩ := request_delete env hrecord
  refine .seq (.fails (ensures_record hr hrecorded) (fun _ _ => trivial)) ?_
  refine .bind (.fails ((ensures_revokeRepositoryGrants hr hgrants).and ensures_grants_valid) (fun _ _ => trivial))
    (fun revoked s as hs => ?_)
  obtain ⟨hs, hvalid⟩ := hs
  rw [r.recorded_grants] at hvalid
  have hrest : Ensures (Fixed s₀ (r.saved f₀) a₀) (do
      let changed ← rewriteViews env (withdrawn repoID)
      let rebuilt ← rebuildGrantAuthority env
      publishPaths (.repository repoID :: (revoked ++ changed ++ rebuilt)))
      (fun _ _ => Removable env s₀.channels f₀ repoID realmID) (fun _ => True) := by
    refine .bind (.fails (ensures_rewriteViews (withdrawn repoID) (r.saved f₀) a₀) (fun _ _ => trivial))
      (fun changed => ensures_each_start (fun f₁ a₁ hf₁ => ?_))
    refine .bind ensures_canonical (fun rebuilt => .fact (fun _ hb => ?_))
    refine ⟨hid, ⟨record, hrecord⟩, hvalid, fun client v hv => ?_, fun r' hr' => ?_⟩
    · have hrewritten := hf₁.1.views client
      rw [ViewRewritten, show (r.saved f₀).view env client = f₀.view env client from view_congr (by rw [r.saved_views]),
        hv] at hrewritten
      obtain ⟨next, hnext, hv₁⟩ := hrewritten
      refine (withdrawn_valid (Files.view_valid hv)).mp ⟨next, hnext, fun v' hv' => ?_⟩
      obtain rfl : next = some v' := hv'
      exact Files.view_valid hv₁
    · rw [hr, Except.ok.injEq, some.injEq] at hr'
      rw [← hr', ← hf₁.1.exact]
      exact hb
  exact hrest s as hs

lemma completes_rollbackCreate (hr : r.stage = .rollbackPending)
    (h : Removable env s₀.channels f₀ r.repoID r.realmID) :
    Completes succeeds (Fixed s₀ f₀ a₀) (rollbackCreate env op r) (fun _ _ => True) := by
  rw [rollbackCreate, hr]
  refine .seq (.except (a := ()) (require_ok.mpr h.identifier) (.seq (completes_delete h)
    (completes_call_bind (.bind (Q := fun _ _ => True) (.update (fun _ _ => trivial))
      (fun _ => .bind (Q := fun _ _ => True) (.any) (fun _ => completes_command)))))) ?_
  exact .seq completes_save (.seq completes_save completes_command)

lemma ensures_rollbackCreate_removable (hr : r.stage = .rollbackPending) :
    Ensures (Fixed s₀ f₀ a₀) (rollbackCreate env op r)
      (fun _ _ => Removable env s₀.channels f₀ r.repoID r.realmID) (fun _ => True) := by
  rw [rollbackCreate, hr]
  refine .bind (Q := fun _ _ => Removable env s₀.channels f₀ r.repoID r.realmID)
    (.checked (fun _ hid => ?_)) (fun _ => .fact (fun _ h => h))
  exact .seq (ensures_removable (require_ok.mp hid)) (.fact (fun _ h => h))

lemma ensures_removeRecord : Ensures P (removeRecord op) (fun _ s => s.backend.lookup op = none) (fun _ => True) := by
  have hsteady : Steady (fun s : Service => s.backend.lookup op = none) := by
    intro s id hs
    rw [(beside_clientCommit s id).1.backend]
    exact hs
  refine .seq (Q := fun s => s.backend.lookup op = none) ?_ (ensures_command hsteady (fun _ _ => trivial))
  exact .pre (P := fun _ => True) (ensures_save (fun _ _ _ => trivial) (fun _ _ => trivial)
    (fun s _ => lookup_erase _ _) (fun _ _ => trivial)) (fun _ _ => trivial)

/-- A pending rollback completes exactly when the repository can be removed; then its record is gone. -/
theorem rollback_completes_iff (env : Env) (op : Str) (r : BackendRecord) (s : Service) (hr : r.stage = .rollbackPending) :
    ((∃ n, (rollbackCreate env op r s (calls n)).1 = .ok ()) ↔ Removable env s.channels s.wc r.repoID r.realmID) ∧
      ∀ script s' rest, rollbackCreate env op r s script = (.ok (), s', rest) → s'.backend.lookup op = none := by
  refine ⟨⟨?_, fun h => ?_⟩, fun script s' rest hrun => ?_⟩
  · rintro ⟨n, hn⟩
    exact (ensures_rollbackCreate_removable hr).of_run ⟨.refl s, rfl, rfl⟩ (run_eq_of_result hn)
  · obtain ⟨n, a, ha⟩ := (completes_rollbackCreate hr h).exists_ok (s := s) ⟨.refl s, rfl, rfl⟩
    exact ⟨n, ha⟩
  · have hremoved : Ensures (fun _ => True) (rollbackCreate env op r) (fun _ s => s.backend.lookup op = none) (fun _ => True) := by
      rw [rollbackCreate, hr]
      exact .seq .any (.seq .any ensures_removeRecord)
    exact hremoved.of_run trivial hrun

def creation : Str := "88888888-8888-4888-8888-888888888888"

def photosPending : BackendRecord := ⟨homeRealm, "photos", photos, "svn://data/photos", .rollbackPending, .none⟩

theorem rollback_completes_of_published : photosPending.stage = .rollbackPending ∧
    Removable sampleEnv shared.channels shared.wc photos homeRealm :=
  ⟨rfl, (rollback_completes_iff sampleEnv creation photosPending shared rfl).1.mp ⟨40, by decide +kernel⟩⟩

lemma startWorker_blocked {s : Service} (hkeys : sortedStrings s.backend.keys = [op])
    (hr : s.backend.lookup op = some r) (hop : isUUID op = true) (hstage : r.stage = .rollbackPending)
    (hdenied : ∀ record, authorizeDelete s.head r.repoID r.realmID ≠ .ok record) (script : List Answer) :
    (startWorker env s script).1 ≠ .ok () := by
  have hnever : Ensures (At s (fun f a => f = s.wc ∧ a = s.authz)) (startWorker env) (fun _ _ => False) (fun _ => True) := by
    refine .seq (.fails ensures_reconcile (fun _ _ => trivial)) ?_
    refine ensures_read_at (fun s₁ hbeside₁ _ _ => ?_)
    rw [hbeside₁.backend, hkeys]
    refine .bind (Q := fun _ _ => False) ?_ (fun _ => .fact (fun _ h => h))
    refine ensures_read_at (fun s₂ hbeside₂ _ _ => ?_)
    have hfailed : (isUUID op && r.stage.failed) = true := by rw [hop, hstage]; rfl
    simp only [hbeside₂.backend, hr, hfailed]
    refine (ensures_rollbackCreate_removable hstage).post (fun _ _ hremovable => ?_)
    obtain ⟨record, hrecord⟩ := hremovable.authorized
    exact hdenied record hrecord
  intro hok
  exact hnever.of_run ⟨.refl s, rfl, rfl⟩ (run_eq_of_result hok)

def lettersProvision : Provision := ⟨fun _ => letters, fun _ => .ok "svn://data/letters"⟩

def failedCreation : Service :=
  (createWithPurpose sampleEnv lettersProvision creation homeRealm "letters" .none shared (calls 14 ++ ⟨[], .failed⟩ :: calls 60)).2.1

/-- The publisher has taken the record back, so the rollback is never authorized and no worker ever starts again. -/
theorem failed_creation_blocks_workers :
    (createWithPurpose sampleEnv lettersProvision creation homeRealm "letters" .none shared
      (calls 14 ++ ⟨[], .failed⟩ :: calls 60)).1 = .error (.fail "file does not exist") ∧
    (failedCreation.backend.lookup creation).map BackendRecord.stage = some .rollbackPending ∧
    ∀ script, (startWorker sampleEnv failedCreation script).1 ≠ .ok () := by
  have hrecord : failedCreation.backend.lookup creation =
      some ⟨homeRealm, "letters", letters, "svn://data/letters", .rollbackPending, .none⟩ := by decide +kernel
  have hdenied : (authorizeDelete failedCreation.head letters homeRealm).toOption = none := by decide +kernel
  refine ⟨by decide +kernel, by rw [hrecord]; rfl, ?_⟩
  refine startWorker_blocked (by decide +kernel) hrecord (by decide +kernel) rfl (fun record hok => ?_)
  rw [hok] at hdenied
  cases hdenied

end FileES.Authority
