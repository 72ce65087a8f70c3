import FileES.Authority.Rebuild

/-! What an operation of the authority does to the files, the authz file and the service repository, at any point where
it can end. -/

namespace FileES.Authority

open Go Lib.Effects Lib.Fallible List AList

variable {env : Env} {s₀ : Service} {f₀ f f₁ : Files} {a₀ a : Option Authz} {op : Operation}

structure Request where
  record : Option (Str × Repository)
  grants : List ((Str × Str) × Grant)
  views : View → Except Str (Option View)
  places : List Place

def unchanged (_ : View) : Except Str (Option View) := .ok none

def revoked (key : Str × Str) (file : Option Grant) : List ((Str × Str) × Grant) :=
  match file with
  | none => []
  | some g => if g.access = none then [] else [(key, { g with access := none })]

def revocations (f : Files) (repoID : Str) : List ((Str × Str) × Grant) :=
  (f.grants.entries.filter (fun e => e.1.1 = repoID)).flatMap (fun e => revoked e.1 e.2)

def withdrawals (f : Files) (realmID : Str) (repoIDs : List Str) : List ((Str × Str) × Grant) :=
  repoIDs.dedup.flatMap (fun id => revoked (id, realmID) (f.grants.lookup (id, realmID)).join)

def request (env : Env) (f : Files) : Operation → Except Str (Option Request)
  | .publish repoID realmID name url purpose => do
    require (validRepoID repoID) "invalid repository id"
    require (validPurpose purpose) "canonical repository purpose is invalid"
    let record ← recordFor f repoID realmID name url purpose
    pure (some ⟨if record.2 then some (repoID, record.1) else none, [], offer repoID realmID url record.1,
      [.repository repoID]⟩)
  | .activate repoID realmID => do
    let record ← activatable f repoID realmID
    pure (some ⟨if record.state ≠ .active then some (repoID, { record with state := .active }) else none, [],
      heal repoID realmID { record with state := .active }, []⟩)
  | .delete repoID realmID => do
    let record ← authorizeDelete f repoID realmID
    pure (some ⟨if record.state ≠ .deleted then some (repoID, { record with state := .deleted }) else none,
      revocations f repoID, withdrawn repoID, [.repository repoID]⟩)
  | .grant owner recipient repoID access => do
    let next ← grantRequest env f owner recipient repoID access
    pure (next.map (fun g => ⟨none, [((repoID, recipient), g)], unchanged, []⟩))
  | .revokeGrant owner recipient repoID => do
    let g ← revokeRequest f owner recipient repoID
    pure (some ⟨none, [((repoID, recipient), { g with access := none })], unchanged, []⟩)
  | .transferOwner repoID newRealmID => do
    let record ← transferable f repoID
    pure (if record.ownerRealmID = newRealmID then none
      else some ⟨some (repoID, { record with ownerRealmID := newRealmID }), revocations f repoID,
        reassign repoID record.ownerRealmID { record with ownerRealmID := newRealmID }, []⟩)
  | .withdrawRealmGrants realmID repoIDs => do
    require (isUUID realmID && repoIDs.all isUUID) "realm grant withdrawal identifiers must be UUID"
    pure (some ⟨none, withdrawals f realmID repoIDs, unchanged, []⟩)
  | .setRepositoryEditingPolicy realmID repoID policy => do
    let record ← editable f realmID repoID policy
    pure (if record.editingPolicy = normalizeEditingPolicy policy then none
      else some ⟨some (repoID, { record with editingPolicy := normalizeEditingPolicy policy }), [], unchanged, []⟩)
  | .rebuild => .ok (some ⟨none, [], unchanged, []⟩)

inductive Finish
  | owners
  | nothing
  | rebuild

def Operation.finish : Operation → Finish
  | .publish .. => .owners
  | .activate .. => .nothing
  | _ => .rebuild

def Files.putGrants (f : Files) (writes : List ((Str × Str) × Grant)) : Files :=
  writes.foldl (fun f w => f.putGrant w.1 w.2) f

def Request.recorded (r : Request) (f : Files) : Files :=
  match r.record with
  | none => f
  | some (id, repo) => f.putRepository id repo

def Request.saved (r : Request) (f : Files) : Files := (r.recorded f).putGrants r.grants

variable {r : Request} {key : Str × Str} {head : Files} {s : Service} {file : Option Grant}

lemma Request.recorded_grants : (r.recorded f).grants = f.grants := by
  rw [Request.recorded]
  split <;> rfl

lemma putGrants_others (writes : List ((Str × Str) × Grant)) : (f.putGrants writes).views = f.views ∧
    (f.putGrants writes).clients = f.clients ∧ (f.putGrants writes).realms = f.realms ∧
    (f.putGrants writes).repositories = f.repositories := by
  induction writes generalizing f with
  | nil => exact ⟨rfl, rfl, rfl, rfl⟩
  | cons w writes ih => exact ih

lemma Request.recorded_others : (r.recorded f).views = f.views ∧ (r.recorded f).clients = f.clients ∧
    (r.recorded f).realms = f.realms := by
  rw [Request.recorded]
  split <;> exact ⟨rfl, rfl, rfl⟩

lemma Request.saved_views (r : Request) (f : Files) : (r.saved f).views = f.views :=
  (putGrants_others r.grants).1.trans r.recorded_others.1

lemma Request.saved_clients (r : Request) (f : Files) : (r.saved f).clients = f.clients :=
  (putGrants_others r.grants).2.1.trans r.recorded_others.2.1

lemma Request.saved_repositories (r : Request) (f : Files) : (r.saved f).repositories = (r.recorded f).repositories :=
  (putGrants_others r.grants).2.2.2

lemma lookup_putGrants_of_not_mem {writes : List ((Str × Str) × Grant)}
    (h : key ∉ writes.map Prod.fst) : (f.putGrants writes).grants.lookup key = f.grants.lookup key := by
  induction writes generalizing f with
  | nil => rfl
  | cons w writes ih =>
    rw [map_cons, mem_cons, not_or] at h
    exact (ih h.2).trans (lookup_insert_ne h.1)

lemma mem_revoked {k : Str × Str} {g : Grant} (h : (k, g) ∈ revoked key file) : k = key := by
  rw [revoked.eq_def] at h
  split at h
  · cases h
  · split at h
    · cases h
    · exact congrArg Prod.fst (mem_singleton.mp h)

inductive Executing (env : Env) (r : Request) (f₀ : Files) : Files → Prop
  | start : Executing env r f₀ f₀
  | saving {done : List ((Str × Str) × Grant)} (h : done <+: r.grants) :
      Executing env r f₀ ((r.recorded f₀).putGrants done)
  | showing {done : List Str} {f : Files} (h : Rewriting env r.views (r.saved f₀) done f) : Executing env r f₀ f

def Executed (env : Env) (r : Request) (f₀ f : Files) : Prop := Rewritten env r.views (r.saved f₀) f

def Finishing (env : Env) (f₁ : Files) (a₀ : Option Authz) (f : Files) (a : Option Authz) : Finish → Prop
  | .owners => f = f₁ ∧ (a = a₀ ∨ ∃ b, renderAuthz env f₁ = .ok b ∧ a = some b)
  | .nothing => f = f₁ ∧ a = a₀
  | .rebuild => Rebuilding env f₁ f ∧ (a = a₀ ∨ Gives env f₁ a)

def Finished (env : Env) (f₁ : Files) (a₀ : Option Authz) (f : Files) (a : Option Authz) : Finish → Prop
  | .owners => f = f₁ ∧ ∃ b, renderAuthz env f₁ = .ok b ∧ a = some b
  | .nothing => f = f₁ ∧ a = a₀
  | .rebuild => Rebuilt env f₁ f a

inductive Midway (env : Env) (op : Operation) (f₀ : Files) (a₀ : Option Authz) : Files → Option Authz → Prop
  | start : Midway env op f₀ a₀ f₀ a₀
  | executing {r : Request} {f : Files} (hr : request env f₀ op = .ok (some r)) (h : Executing env r f₀ f) :
      Midway env op f₀ a₀ f a₀
  | finishing {r : Request} {f₁ f : Files} {a : Option Authz} (hr : request env f₀ op = .ok (some r))
      (h : Executed env r f₀ f₁) (hf : Finishing env f₁ a₀ f a op.finish) : Midway env op f₀ a₀ f a

def Reverted (head f₁ f : Files) : Prop := ∃ places : List Place, f = places.foldl (fun f p => p.copy head f) f₁

lemma Reverted.refl : Reverted head f f := ⟨[], rfl⟩

lemma Reverted.copy (h : Reverted head f₁ f) (p : Place) : Reverted head f₁ (p.copy head f) := by
  obtain ⟨places, rfl⟩ := h
  exact ⟨places ++ [p], by rw [foldl_append, foldl_cons, foldl_nil]⟩

def Stopped (env : Env) (op : Operation) (s₀ : Service) (f₀ : Files) (a₀ : Option Authz) : Service → Prop :=
  At s₀ (fun f a => ∃ f₁, Reverted s₀.head f₁ f ∧ Midway env op f₀ a₀ f₁ a)

def Succeeded (env : Env) (op : Operation) (s₀ : Service) (f₀ : Files) (a₀ : Option Authz) (s' : Service) : Prop :=
  (request env f₀ op = .ok none ∧ At s₀ (fun f a => f = f₀ ∧ a = a₀) s') ∨
    ∃ r f₁ s paths, request env f₀ op = .ok (some r) ∧ Executed env r f₀ f₁ ∧
      At s₀ (fun f a => Finished env f₁ a₀ f a op.finish) s ∧ r.places ⊆ paths ∧ s' = s.committed paths

lemma Executed.view (h : Executed env r f₀ f₁) (client : Str) : match f₀.view env client with
    | none => f₁.view env client = none
    | some v => ∃ next, r.views v = .ok next ∧ f₁.view env client = some (next.getD v) := by
  have hview : f₀.view env client = (r.saved f₀).view env client := (view_congr (by rw [r.saved_views])).symm
  rw [hview]
  exact h.views client

lemma Executed.clients (h : Executed env r f₀ f₁) : f₁.clients = f₀.clients :=
  h.records.clients.trans (r.saved_clients f₀)

lemma Midway.stopped (h : At s₀ (Midway env op f₀ a₀) s) : Stopped env op s₀ f₀ a₀ s :=
  h.mono (fun f _ hf => ⟨f, .refl, hf⟩)

lemma Stopped.of_fixed (hm : Midway env op f₀ a₀ f₁ a) (hs : Fixed s₀ f₁ a s) : Stopped env op s₀ f₀ a₀ s :=
  Midway.stopped (hs.mono (fun _ _ hf => hf.1 ▸ hf.2 ▸ hm))

lemma Finished.finishing {finish : Finish} (h : Finished env f₁ a₀ f a finish) : Finishing env f₁ a₀ f a finish := by
  cases finish with
  | owners => exact ⟨h.1, .inr h.2⟩
  | nothing => exact h
  | rebuild => exact ⟨h.rebuilding, .inr h.gives⟩

lemma ensures_put {g : Files → Files} (hg : g f = f₁) (hf : Midway env op f₀ a₀ f a₀) (hf₁ : Midway env op f₀ a₀ f₁ a₀) :
    Ensures (Fixed s₀ f a₀) (save (fun s => { s with wc := g s.wc })) (fun _ => Fixed s₀ f₁ a₀)
      (Stopped env op s₀ f₀ a₀) := by
  subst hg
  refine .fails (ensures_write (X := Midway env op f₀ a₀) ?_ ?_ ?_) (fun s hs => Midway.stopped hs)
  · exact fun _ _ h => ⟨congrArg g h.1, h.2⟩
  · exact fun _ _ h => h.1 ▸ h.2 ▸ hf
  · exact fun _ _ h => h.1 ▸ h.2 ▸ hf₁

section

variable (hr : request env f₀ op = .ok (some r))

include hr

lemma ensures_record {b : Bool} {id : Str} {repo : Repository} (h : r.record = if b then some (id, repo) else none) :
    Ensures (Fixed s₀ f₀ a₀) (onlyIf b (putRepository id repo))
      (fun _ => Fixed s₀ (r.recorded f₀) a₀) (Stopped env op s₀ f₀ a₀) := by
  have hmid : Midway env op f₀ a₀ (r.recorded f₀) a₀ := .executing hr (.saving List.nil_prefix)
  cases b with
  | false => exact .pure (fun s hs => hs.mono (fun f a hf => by rw [Request.recorded, h]; exact hf))
  | true =>
    refine ensures_put (g := (·.putRepository id repo)) ?_ .start hmid
    rw [Request.recorded, h]
    rfl

lemma ensures_regrant (done : List ((Str × Str) × Grant)) (w : (Str × Str) × Grant)
    (h : done ++ [w] <+: r.grants) : Ensures (Fixed s₀ ((r.recorded f₀).putGrants done) a₀) (putGrant w.1 w.2)
      (fun _ => Fixed s₀ ((r.recorded f₀).putGrants (done ++ [w])) a₀) (Stopped env op s₀ f₀ a₀) := by
  refine ensures_put (g := (·.putGrant w.1 w.2)) ?_ (.executing hr (.saving ((prefix_append _ _).trans h)))
    (.executing hr (.saving h))
  rw [Files.putGrants, Files.putGrants, foldl_append]
  rfl

lemma ensures_revokeFile {done : List ((Str × Str) × Grant)} (h : done ++ revoked key file <+: r.grants) (changed : List Place) :
    Ensures (Fixed s₀ ((r.recorded f₀).putGrants done) a₀) (revokeFile changed key file)
      (fun _ => Fixed s₀ ((r.recorded f₀).putGrants (done ++ revoked key file)) a₀)
      (Stopped env op s₀ f₀ a₀) := by
  have hin : ∀ s, Fixed s₀ ((r.recorded f₀).putGrants done) a₀ s → Stopped env op s₀ f₀ a₀ s :=
    fun s hs => Stopped.of_fixed (.executing hr (.saving ((prefix_append _ _).trans h))) hs
  cases file with
  | none => exact .fail hin
  | some g =>
    refine .except hin (fun _ _ => ?_)
    split
    · rename_i hnone
      refine .pure (fun s hs => hs.mono (fun f a hf => ?_))
      rw [revoked, if_pos hnone, append_nil]
      exact hf
    · rename_i hsome
      rw [revoked, if_neg hsome] at h ⊢
      exact .seq (ensures_regrant hr done _ h) .done

lemma ensures_revokeRepositoryGrants {repoID : Str} (h : r.grants = revocations f₀ repoID) :
    Ensures (Fixed s₀ (r.recorded f₀) a₀) (revokeRepositoryGrants repoID)
      (fun _ => Fixed s₀ (r.saved f₀) a₀) (Stopped env op s₀ f₀ a₀) := by
  refine ensures_read_at (fun s₁ _ hs₁ _ => ?_)
  rw [hs₁, Request.recorded_grants]
  have hloop := Ensures.foldlM (R := Stopped env op s₀ f₀ a₀)
    (J := fun done (_ : List Place) => Fixed s₀ ((r.recorded f₀).putGrants (done.flatMap (fun e => revoked e.1 e.2))) a₀)
    (f := fun changed e => revokeFile changed e.1 e.2) (l := f₀.grants.entries.filter (fun e => e.1.1 = repoID))
    (fun done e rest heq changed => ?_) []
  · refine hloop.conseq (fun s hs => hs) (fun _ s hs => hs.mono (fun f a hf => ?_))
    rw [Request.saved, h]
    exact hf
  · rw [flatMap_append, flatMap_singleton]
    refine ensures_revokeFile hr ?_ changed
    rw [h, revocations, heq, flatMap_append, flatMap_cons, ← append_assoc]
    exact prefix_append _ _

lemma ensures_views : Ensures (Fixed s₀ (r.saved f₀) a₀) (rewriteViews env r.views)
    (fun _ => Among s₀ (Executed env r f₀) a₀) (Stopped env op s₀ f₀ a₀) := by
  refine .fails (ensures_rewriteViews r.views (r.saved f₀) a₀) (fun s hs => Midway.stopped (hs.mono ?_))
  rintro f a ⟨⟨done, hf⟩, rfl⟩
  exact .executing hr (.showing hf)

lemma ensures_publication {paths : List Place} (hx : Executed env r f₀ f₁) (hf : Finished env f₁ a₀ f a op.finish)
    (hp : r.places ⊆ paths) : Ensures (Fixed s₀ f a) (publishPaths paths)
      (fun _ => Succeeded env op s₀ f₀ a₀) (Stopped env op s₀ f₀ a₀) := by
  have hmid : Midway env op f₀ a₀ f a := .finishing hr hx hf.finishing
  refine .fails (ensures_publishPaths (I := Reverted s₀.head f) .refl (fun p _ f' hf' => hf'.copy p) ?_) ?_
  · exact fun s hs => .inr ⟨r, f₁, s, paths, hr, hx, hs.mono (fun _ _ h => h.1 ▸ h.2 ▸ hf), hp, rfl⟩
  · exact fun s hs => hs.mono (fun f' a' hf' => ⟨f, hf'.1, hf'.2 ▸ hmid⟩)

variable {paths : List Place → List Place}

lemma ensures_rebuilding (hop : op.finish = .rebuild) (hp : ∀ c, r.places ⊆ paths c) :
    Ensures (Among s₀ (Executed env r f₀) a₀) (do publishPaths (paths (← rebuildGrantAuthority env)))
      (fun _ => Succeeded env op s₀ f₀ a₀) (Stopped env op s₀ f₀ a₀) := by
  refine ensures_each_start (fun f₁ a₁ hf₁ => ?_)
  obtain ⟨hx, rfl⟩ := hf₁
  refine .bind (.fails (ensures_rebuildGrantAuthority f₁ a₁) (fun s hs => Midway.stopped (hs.mono ?_)))
    (fun changed => ensures_each_start (fun f a hf => ensures_publication hr hx ?_ (hp changed)))
  · exact fun f a hf => .finishing hr hx (by rw [hop]; exact hf)
  · rw [hop]
    exact hf

lemma ensures_rebuilding_only (hop : op.finish = .rebuild) (hviews : r.views = unchanged)
    (hp : ∀ c, r.places ⊆ paths c) : Ensures (Fixed s₀ (r.saved f₀) a₀)
      (do publishPaths (paths (← rebuildGrantAuthority env)))
      (fun _ => Succeeded env op s₀ f₀ a₀) (Stopped env op s₀ f₀ a₀) := by
  refine .pre (ensures_rebuilding hr hop hp) (fun s hs => hs.mono (fun f a hf => ⟨?_, hf.2⟩))
  rw [hf.1, Executed, hviews]
  refine ⟨⟨rfl, rfl, rfl, rfl⟩, fun client => ?_, ?_⟩
  · rw [ViewRewritten]
    split
    · assumption
    · rename_i v hv
      exact ⟨none, rfl, hv⟩
  · have hsame : ∀ client f, rewrittenView env unchanged f client = f := by
      intro client f
      rw [rewrittenView]
      split <;> rfl
    exact (foldl_fixed' (fun client => hsame client (r.saved f₀)) _).symm

end

abbrev Performs (env : Env) (s₀ : Service) (f₀ : Files) (a₀ : Option Authz) (op : Operation) : Prop :=
  Ensures (Fixed s₀ f₀ a₀) (perform env op) (fun _ => Succeeded env op s₀ f₀ a₀) (Stopped env op s₀ f₀ a₀)

lemma stopped_start (hs : Fixed s₀ f₀ a₀ s) : Stopped env op s₀ f₀ a₀ s := Stopped.of_fixed .start hs

lemma ensures_publish (repoID realmID name url : Str) (purpose : Purpose) :
    Performs env s₀ f₀ a₀ (.publish repoID realmID name url purpose) := by
  refine .except (fun _ => stopped_start) (fun _ hid => .except (fun _ => stopped_start) (fun _ hpurpose => ?_))
  refine ensures_read_at (fun s₁ _ hs₁ _ => ?_)
  rw [hs₁]
  refine .except (fun _ => stopped_start) (fun record hrecord => ?_)
  have hr : request env f₀ (.publish repoID realmID name url purpose) = .ok (some
      ⟨if record.2 then some (repoID, record.1) else none, [], offer repoID realmID url record.1, [.repository repoID]⟩) := by
    rw [request, hid, hpurpose, hrecord]
    rfl
  refine .seq (ensures_record hr rfl) (.bind (ensures_views hr) (fun changed => ?_))
  refine ensures_each_start (fun f₁ a₁ hf₁ => ensures_read_at (fun s₂ _ hs₂ _ => ?_))
  obtain ⟨hx, rfl⟩ := hf₁
  have hmid : ∀ s, Fixed s₀ f₁ a₁ s → Stopped env _ s₀ f₀ a₁ s :=
    fun s hs => Stopped.of_fixed (.finishing hr hx ⟨rfl, .inl rfl⟩) hs
  rw [hs₂]
  refine .except hmid (fun b hb => ?_)
  refine .seq (Q := Fixed s₀ f₁ (some b)) ?_
    (ensures_publication hr hx ⟨rfl, b, hb, rfl⟩ (by simp))
  refine .fails (ensures_putAuthz (X := Midway env _ f₀ a₁) (fun f a hf => ⟨hf.1, rfl⟩) ?_ ?_)
    (fun s hs => Midway.stopped hs)
  · rintro f a ⟨rfl, rfl⟩
    exact .finishing hr hx ⟨rfl, .inl rfl⟩
  · rintro f a ⟨rfl, rfl⟩
    exact .finishing hr hx ⟨rfl, .inr ⟨b, hb, rfl⟩⟩

lemma ensures_activate (repoID realmID : Str) : Performs env s₀ f₀ a₀ (.activate repoID realmID) := by
  refine ensures_read_at (fun s₁ _ hs₁ _ => ?_)
  rw [hs₁]
  refine .except (fun _ => stopped_start) (fun record hrecord => ?_)
  have hr : request env f₀ (.activate repoID realmID) = .ok (some
      ⟨if record.state ≠ .active then some (repoID, { record with state := .active }) else none, [],
        heal repoID realmID { record with state := .active }, []⟩) := by
    rw [request, hrecord]
    rfl
  refine .seq (ensures_record hr (by simp)) (.bind (ensures_views hr) (fun changed => ?_))
  refine ensures_each_start (fun f₁ a₁ hf₁ => ?_)
  obtain ⟨hx, rfl⟩ := hf₁
  exact ensures_publication hr hx ⟨rfl, rfl⟩ (by simp)

lemma ensures_delete (repoID realmID : Str) : Performs env s₀ f₀ a₀ (.delete repoID realmID) := by
  refine ensures_read_at (fun s₁ _ hs₁ _ => ?_)
  rw [hs₁]
  refine .except (fun _ => stopped_start) (fun record hrecord => ?_)
  have hr : request env f₀ (.delete repoID realmID) = .ok (some
      ⟨if record.state ≠ .deleted then some (repoID, { record with state := .deleted }) else none,
        revocations f₀ repoID, withdrawn repoID, [.repository repoID]⟩) := by
    rw [request, hrecord]
    rfl
  refine .seq (ensures_record hr (by simp)) ?_
  refine .bind (ensures_revokeRepositoryGrants hr rfl) (fun revoked => ?_)
  refine .bind (ensures_views hr) (fun changed => ?_)
  exact ensures_rebuilding hr rfl (fun c => by simp)

lemma ensures_grant (owner recipient repoID : Str) (access : Access) :
    Performs env s₀ f₀ a₀ (.grant owner recipient repoID access) := by
  refine ensures_read_at (fun s₁ _ hs₁ _ => ?_)
  rw [hs₁]
  refine .except (fun _ => stopped_start) (fun next hnext => ?_)
  cases next with
  | none =>
    refine .pure (fun s hs => .inl ⟨?_, hs⟩)
    rw [request, hnext]
    rfl
  | some g =>
    have hr : request env f₀ (.grant owner recipient repoID access) = .ok (some
        ⟨none, [((repoID, recipient), g)], unchanged, []⟩) := by
      rw [request, hnext]
      rfl
    refine .seq (.onlyIf (ensures_command steady_at (fun _ => stopped_start))) ?_
    refine .seq (ensures_regrant hr [] ((repoID, recipient), g) prefix_rfl) ?_
    exact ensures_rebuilding_only hr rfl rfl (fun c => by simp)

lemma ensures_revokeGrant (owner recipient repoID : Str) :
    Performs env s₀ f₀ a₀ (.revokeGrant owner recipient repoID) := by
  refine ensures_read_at (fun s₁ _ hs₁ _ => ?_)
  rw [hs₁]
  refine .except (fun _ => stopped_start) (fun g hg => ?_)
  have hr : request env f₀ (.revokeGrant owner recipient repoID) = .ok (some
      ⟨none, [((repoID, recipient), { g with access := none })], unchanged, []⟩) := by
    rw [request, hg]
    rfl
  refine .seq (ensures_command steady_at (fun _ => stopped_start)) ?_
  refine .seq (ensures_regrant hr [] ((repoID, recipient), { g with access := none }) prefix_rfl) ?_
  exact ensures_rebuilding_only hr rfl rfl (fun c => by simp)

lemma ensures_transferOwner (repoID newRealmID : Str) : Performs env s₀ f₀ a₀ (.transferOwner repoID newRealmID) := by
  refine ensures_read_at (fun s₁ _ hs₁ _ => ?_)
  rw [hs₁]
  refine .except (fun _ => stopped_start) (fun record hrecord => ?_)
  split
  · rename_i hsame
    refine .pure (fun s hs => .inl ⟨?_, hs⟩)
    rw [request, hrecord]
    exact congrArg Except.ok (if_pos hsame)
  · rename_i hother
    have hr : request env f₀ (.transferOwner repoID newRealmID) = .ok (some
        ⟨some (repoID, { record with ownerRealmID := newRealmID }), revocations f₀ repoID,
          reassign repoID record.ownerRealmID { record with ownerRealmID := newRealmID }, []⟩) := by
      rw [request, hrecord]
      exact congrArg Except.ok (if_neg hother)
    refine .seq (ensures_record (b := true) hr rfl) ?_
    refine .bind (ensures_revokeRepositoryGrants hr rfl) (fun revoked => ?_)
    refine .bind (ensures_views hr) (fun changed => ?_)
    exact ensures_rebuilding hr rfl (fun c => by simp)

lemma ensures_withdrawRealmGrants (realmID : Str) (repoIDs : List Str) :
    Performs env s₀ f₀ a₀ (.withdrawRealmGrants realmID repoIDs) := by
  refine Ensures.except (fun _ => stopped_start) (fun _ hid => ?_)
  have hr : request env f₀ (.withdrawRealmGrants realmID repoIDs) = .ok (some
      ⟨none, withdrawals f₀ realmID repoIDs, unchanged, []⟩) := by
    rw [request, hid]
    rfl
  have hloop := Ensures.foldlM (R := Stopped env (.withdrawRealmGrants realmID repoIDs) s₀ f₀ a₀)
    (J := fun done (_ : List Place) => At s₀ (fun f a =>
      f = f₀.putGrants (done.flatMap (fun id => revoked (id, realmID) (f₀.grants.lookup (id, realmID)).join)) ∧ a = a₀))
    (f := withdrawGrant realmID) (l := repoIDs.dedup) (fun done id rest heq changed => ?_) []
  · refine .bind (hloop.pre (fun s hs => hs)) (fun revoked => ?_)
    exact ensures_rebuilding_only hr rfl rfl (fun c => by simp)
  · have hnot : id ∉ done := by
      have hnodup := repoIDs.nodup_dedup
      rw [heq] at hnodup
      exact fun hmem => disjoint_of_nodup_append hnodup hmem (by simp)
    have hlookup : (f₀.putGrants (done.flatMap (fun id => revoked (id, realmID) (f₀.grants.lookup (id, realmID)).join))).grants.lookup
        (id, realmID) = f₀.grants.lookup (id, realmID) := by
      refine lookup_putGrants_of_not_mem (fun hmem => ?_)
      obtain ⟨w, hw, hkey⟩ := mem_map.mp hmem
      obtain ⟨id', hid', hw⟩ := mem_flatMap.mp hw
      rw [mem_revoked hw, Prod.mk.injEq] at hkey
      exact hnot (hkey.1 ▸ hid')
    refine ensures_read_at (fun s₁ _ hs₁ _ => ?_)
    rw [hs₁, hlookup, flatMap_append, flatMap_singleton]
    have hpre : done.flatMap (fun id => revoked (id, realmID) (f₀.grants.lookup (id, realmID)).join) ++
        revoked (id, realmID) (f₀.grants.lookup (id, realmID)).join <+: withdrawals f₀ realmID repoIDs := by
      rw [withdrawals, heq, flatMap_append, flatMap_cons, ← append_assoc]
      exact prefix_append _ _
    cases hfile : f₀.grants.lookup (id, realmID) with
    | none => exact .fail (fun s hs => Stopped.of_fixed (.executing hr (.saving ((prefix_append _ _).trans hpre))) hs)
    | some file =>
      rw [hfile] at hpre
      exact ensures_revokeFile hr hpre changed

lemma ensures_setRepositoryEditingPolicy (realmID repoID policy : Str) :
    Performs env s₀ f₀ a₀ (.setRepositoryEditingPolicy realmID repoID policy) := by
  refine ensures_read_at (fun s₁ _ hs₁ _ => ?_)
  rw [hs₁]
  refine .except (fun _ => stopped_start) (fun record hrecord => ?_)
  refine .seq (.onlyIf (ensures_command steady_at (fun _ => stopped_start))) ?_
  split
  · rename_i hsame
    refine .pure (fun s hs => .inl ⟨?_, hs⟩)
    rw [request, hrecord]
    exact congrArg Except.ok (if_pos hsame)
  · rename_i hother
    have hr : request env f₀ (.setRepositoryEditingPolicy realmID repoID policy) = .ok (some
        ⟨some (repoID, { record with editingPolicy := normalizeEditingPolicy policy }), [], unchanged, []⟩) := by
      rw [request, hrecord]
      exact congrArg Except.ok (if_neg hother)
    refine .seq (ensures_record (b := true) hr rfl) ?_
    exact ensures_rebuilding_only hr rfl rfl (fun c => by simp)

lemma ensures_perform (op : Operation) : Performs env s₀ f₀ a₀ op := by
  cases op with
  | publish => exact ensures_publish _ _ _ _ _
  | activate => exact ensures_activate _ _
  | delete => exact ensures_delete _ _
  | grant => exact ensures_grant _ _ _ _
  | revokeGrant => exact ensures_revokeGrant _ _ _
  | transferOwner => exact ensures_transferOwner _ _
  | withdrawRealmGrants => exact ensures_withdrawRealmGrants _ _
  | setRepositoryEditingPolicy => exact ensures_setRepositoryEditingPolicy _ _ _
  | rebuild =>
    have hr : request env f₀ .rebuild = .ok (some ⟨none, [], unchanged, []⟩) := rfl
    exact ensures_rebuilding_only hr rfl rfl (fun c => by simp)

end FileES.Authority
