import FileES.Authority.Rollback
import FileES.Lib.Runs

/-! What the rollback of a creation removes, over every run of one operation with crashes, retries and clients that
commit to the repository. -/

namespace FileES.Authority

open Go Lib.Durable Lib.Effects Lib.Fallible Lib.Maps Lib.Runs List Option AList

variable {env : Env} {s₀ s : Service} {f₀ f f₁ : Files} {a₀ a : Option Authz} {id : Str} {paths : List Place}

def Live (f : Files) (id : Str) : Prop := (f.repositories.lookup id).bind live ≠ none

lemma live_congr (h : f.repositories = f₀.repositories) : Live f id ↔ Live f₀ id := by rw [Live, Live, h]

lemma mem_filterMap_liveIn : id ∈ paths.filterMap (liveIn f) ↔ Place.repository id ∈ paths ∧ Live f id := by
  rw [mem_filterMap]
  constructor
  · rintro ⟨p, hp, hid⟩
    cases p with
    | repository k =>
      obtain ⟨r, hr, rfl⟩ := map_eq_some_iff.mp hid
      exact ⟨hp, by rw [Live, hr]; simp⟩
    | view _ => cases hid
    | grant _ => cases hid
  · rintro ⟨hp, hid⟩
    obtain ⟨r, hr⟩ := ne_none_iff_exists'.mp hid
    exact ⟨.repository id, hp, by rw [liveIn, hr]; rfl⟩

variable {src dst : Files} {r : Request} {repoID realmID : Str}

lemma live_copy {p : Place} (h : Live (p.copy src dst) id) : Live dst id ∨ (p = .repository id ∧ Live src id) := by
  cases p with
  | repository k =>
    rw [Live, Place.copy, lookup_transfer] at h
    split at h
    · rename_i hk
      exact .inr ⟨by rw [hk], by rw [hk]; exact h⟩
    · exact .inl h
  | view _ => exact .inl h
  | grant _ => exact .inl h

lemma live_foldl_copy {places : List Place} (h : Live (places.foldl (fun f p => p.copy src f) dst) id) :
    Live dst id ∨ (Place.repository id ∈ places ∧ Live src id) := by
  induction places generalizing dst with
  | nil => exact .inl h
  | cons p places ih =>
    rcases ih h with hdst | ⟨hmem, hsrc⟩
    · rcases live_copy hdst with hdst | ⟨rfl, hsrc⟩
      · exact .inl hdst
      · exact .inr ⟨by simp, hsrc⟩
    · exact .inr ⟨by simp [hmem], hsrc⟩

def Request.Revives (r : Request) (id : Str) : Prop := ∃ repo, r.record = some (id, repo) ∧ repo.state ≠ .deleted

lemma live_recorded (h : Live (r.recorded f) id) : Live f id ∨ r.Revives id := by
  rw [Request.recorded] at h
  split at h
  · exact .inl h
  · rename_i k repo hrecord
    by_cases hk : id = k
    · subst hk
      rw [Live, Files.putRepository, lookup_insert, bind_some] at h
      obtain ⟨r', hr'⟩ := ne_none_iff_exists'.mp h
      obtain ⟨he, hstate⟩ := live_eq_some.mp hr'
      exact .inr ⟨repo, hrecord, some.inj he ▸ hstate⟩
    · rw [Live, Files.putRepository, lookup_insert_ne hk] at h
      exact .inl h

lemma live_executed (h : Executed env r f₀ f₁) (hid : Live f₁ id) : Live f₀ id ∨ r.Revives id :=
  live_recorded ((live_congr (h.records.repositories.trans (r.saved_repositories f₀))).mp hid)

lemma live_executing (h : Executing env r f₀ f) (hid : Live f id) : Live f₀ id ∨ r.Revives id := by
  cases h with
  | start => exact .inl hid
  | @saving done _ => exact live_recorded ((live_congr (putGrants_others done).2.2.2).mp hid)
  | showing h => exact live_recorded ((live_congr (h.records.repositories.trans (r.saved_repositories f₀))).mp hid)

lemma live_rebuilding (h : Rebuilding env f₁ f) : Live f id ↔ Live f₁ id := by
  have hid := h.rights id
  rw [lookup_liveRepositories, lookup_liveRepositories] at hid
  rw [Live, Live, ne_eq, ne_eq, ← map_eq_none_iff (f := Repository.rights), ← hid, map_eq_none_iff]

lemma live_finishing {finish : Finish} (h : Finishing env f₁ a₀ f a finish) : Live f id ↔ Live f₁ id := by
  cases finish with
  | owners => rw [h.1]
  | nothing => rw [h.1]
  | rebuild => exact live_rebuilding h.1

lemma live_midway {op : Operation} (h : Midway env op f₀ a₀ f a) (hid : Live f id) :
    Live f₀ id ∨ ∃ r, request env f₀ op = .ok (some r) ∧ r.Revives id := by
  cases h with
  | start => exact .inl hid
  | executing hr h => exact (live_executing h hid).imp_right (fun hrevives => ⟨_, hr, hrevives⟩)
  | finishing hr h hf => exact (live_executed h ((live_finishing hf).mp hid)).imp_right (fun hrevives => ⟨_, hr, hrevives⟩)

lemma publish_revives {name url : Str} {purpose : Purpose}
    (hr : request env f₀ (.publish repoID realmID name url purpose) = .ok (some r)) (h : r.Revives id) : id = repoID := by
  rw [request] at hr
  obtain ⟨_, _, _, _, record, _, hr⟩ := bind₃_ok.mp hr
  cases hr
  obtain ⟨repo, hrepo, _⟩ := h
  dsimp only at hrepo
  split at hrepo
  · cases hrepo
    rfl
  · cases hrepo

lemma delete_executed (hr : request env f₀ (.delete repoID realmID) = .ok (some r)) :
    (∀ id, ¬ r.Revives id) ∧ ¬ Live (r.saved f₀) repoID := by
  rw [Live, r.saved_repositories, Request.recorded]
  obtain ⟨record, hrecord, _⟩ := bind_ok.mp hr
  obtain ⟨r', hr', hrecorded, _⟩ := request_delete env hrecord
  rw [hr, Except.ok.injEq, some.injEq] at hr'
  subst hr'
  obtain ⟨_, _, record', hread, _, _, hrest⟩ := bind₃_ok.mp hrecord
  obtain ⟨_, _, _, _, hrest⟩ := bind₂_ok.mp hrest
  cases hrest
  by_cases hstate : record.state = .deleted
  · rw [hstate, decide_eq_false (by simp)] at hrecorded
    refine ⟨fun id hid => ?_, ?_⟩
    · obtain ⟨repo, hrepo, _⟩ := hid
      rw [hrecorded] at hrepo
      cases hrepo
    rw [hrecorded, if_neg (by decide), readRepository_ok hread, bind_some, live, if_pos hstate]
    simp
  · rw [decide_eq_true hstate, if_pos rfl] at hrecorded
    refine ⟨fun id hid => ?_, ?_⟩
    · obtain ⟨repo, hrepo, hlive⟩ := hid
      rw [hrecorded] at hrepo
      cases hrepo
      exact hlive rfl
    · simp [hrecorded, Files.putRepository, live]

variable {p : Provision} {op : Str} {X : List Str}

structure BackendRecord.Sound (p : Provision) (op : Str) (rel : List Str) (o : Str) (r : BackendRecord) : Prop where
  repository : r.repoID = p.repoID op ↔ o = op
  failed : r.stage.failed = true → r.repoID ∉ rel

/-- No published tree is removed or threatened by a pending rollback; only repositories in `X` may be live without
having been published. -/
structure Guarded (p : Provision) (op : Str) (X : List Str) (s : Service) : Prop where
  records : ∀ o r, s.backend.lookup o = some r → r.Sound p op s.released o
  empty : ∀ id, id ∉ s.released → ∀ n ∈ s.trees.lookup id, n = 0
  head : ∀ id, Live s.head id → id ∈ s.released
  wc : ∀ id, Live s.wc id → id ∈ s.released ∨ id ∈ X
  removals : ∀ x ∈ s.removals, x.released = false ∧ x.youngest = 0

variable {Y : List Str} {o : Str}

lemma Guarded.beside (h : Guarded p op X s₀) (hs : Beside s₀ s)
    (hwc : ∀ id, Live s.wc id → id ∈ s₀.released ∨ id ∈ Y) : Guarded p op Y s := by
  refine ⟨?_, ?_, ?_, ?_, ?_⟩
  · rw [hs.backend, hs.released]
    exact h.records
  · rw [hs.released]
    intro id hid
    rw [hs.trees id hid]
    exact h.empty id hid
  · rw [hs.head, hs.released]
    exact h.head
  · rw [hs.released]
    exact hwc
  · rw [hs.removals]
    exact h.removals

lemma Guarded.committed (h : Guarded p op X s)
    (hX : ∀ o r, s.backend.lookup o = some r → r.stage.failed = true → r.repoID ∉ X) : Guarded p op X (s.committed paths) := by
  have hrel : ∀ id, id ∈ (s.committed paths).released → id ∈ s.released ∨ id ∈ X := by
    intro id hid
    rcases mem_append.mp hid with hid | hid
    · exact .inl hid
    · exact h.wc id (mem_filterMap_liveIn.mp hid).2
  have hmono : ∀ id, id ∈ s.released → id ∈ (s.committed paths).released := fun id hid => mem_append_left _ hid
  refine ⟨fun o r hr => ⟨(h.records o r hr).repository, fun hfailed hid => ?_⟩, fun id hid => h.empty id (mt (hmono id) hid), ?_, ?_,
    h.removals⟩
  · rcases hrel _ hid with hid | hid
    · exact (h.records o r hr).failed hfailed hid
    · exact hX o r hr hfailed hid
  · intro id hid
    rcases live_foldl_copy hid with hid | ⟨hmem, hid⟩
    · exact hmono id (h.head id hid)
    · exact mem_append_right _ (mem_filterMap_liveIn.mpr ⟨hmem, hid⟩)
  · exact fun id hid => (h.wc id hid).imp_left (hmono id)

lemma Guarded.mono (h : Guarded p op X s) (hY : X ⊆ Y) : Guarded p op Y s :=
  h.beside (.refl s) (fun id hid => (h.wc id hid).imp_right (fun hX => hY hX))

lemma Guarded.stopped {o : Operation} (h : Guarded p op X s₀) (hs : Stopped env o s₀ s₀.wc s₀.authz s)
    (hX : ∀ r id, request env s₀.wc o = .ok (some r) → r.Revives id → id ∈ X) : Guarded p op X s := by
  refine h.beside hs.1 (fun id hid => ?_)
  obtain ⟨f₁, ⟨places, hplaces⟩, hmid⟩ := hs.2
  rw [hplaces] at hid
  rcases live_foldl_copy hid with hid | ⟨_, hid⟩
  · rcases live_midway hmid hid with hid | ⟨r, hr, hrevives⟩
    · exact h.wc id hid
    · exact .inr (hX r id hr hrevives)
  · exact .inl (h.head id hid)

lemma Guarded.steady : Steady (Guarded p op X) := by
  intro s id hs
  obtain ⟨hbeside, hwc, _⟩ := beside_clientCommit s id
  exact hs.beside hbeside (by rw [hwc]; exact hs.wc)

lemma Guarded.insert {r : BackendRecord} (h : Guarded p op X s) (hr : r.Sound p op s.released o) :
    Guarded p op X { s with backend := s.backend.insert o r } := by
  refine { h with records := fun k r' hr' => ?_ }
  rcases lookup_insert_eq_some.mp hr' with ⟨rfl, rfl⟩ | ⟨_, hr'⟩
  · exact hr
  · exact h.records k r' hr'

lemma Guarded.erase (h : Guarded p op X s) : Guarded p op X { s with backend := s.backend.erase o } := by
  refine { h with records := fun k r' hr' => ?_ }
  by_cases hk : k = o
  · subst hk
    cases (lookup_erase _ _).symm.trans hr'
  · exact h.records k r' ((lookup_erase_ne hk).symm.trans hr')

variable {r : BackendRecord} {P : Service → Prop}

def Unpublished (p : Provision) (op : Str) (X : List Str) (id : Str) (s : Service) : Prop :=
  Guarded p op X s ∧ id ∉ s.released

lemma unpublished_steady : Steady (Unpublished p op X id) := by
  intro s k hs
  refine ⟨Guarded.steady s k hs.1, ?_⟩
  rw [(beside_clientCommit s k).1.released]
  exact hs.2

abbrev Safe (p : Provision) (op : Str) : Service → Prop := Guarded p op [p.repoID op]

lemma ensures_start {α : Type} {m : Op α} {R : Service → Prop} {T : α → Service → Prop}
    (h : ∀ s, P s → Ensures (At s (fun f a => f = s.wc ∧ a = s.authz)) m T R) : Ensures P m T R :=
  fun s as hs => h s hs s as ⟨.refl s, rfl, rfl⟩

lemma ensures_delete_unpublished (hX : X ⊆ [id]) (hp : X ⊆ [p.repoID op]) :
    Ensures (Unpublished p op X id) (delete env id realmID) (fun _ => Unpublished p op [] id) (Safe p op) := by
  refine ensures_start (fun s₀ hs₀ => ?_)
  refine (Ensures.fails (ensures_delete id realmID) (fun s hs => ?_)).post (fun _ s' hs' => ?_)
  · exact (hs₀.1.stopped hs (fun r k hr hrevives => absurd hrevives ((delete_executed hr).1 k))).mono hp
  · rcases hs' with ⟨hnone, _⟩ | ⟨r, f₁, s, paths, hr, hx, hs, _, rfl⟩
    · obtain ⟨_, _, hnone⟩ := bind_ok.mp hnone
      cases hnone
    · have hlive : ∀ k, Live s.wc k → k ∈ s₀.released ∨ k ∈ [] := by
        intro k hk
        have hk₁ : Live f₁ k := (live_rebuilding hs.2.rebuilding).mp hk
        rcases live_executed hx hk₁ with hk₀ | hrevives
        · refine .inl ((hs₀.1.wc k hk₀).resolve_right (fun hmem => ?_))
          rw [mem_singleton.mp (hX hmem)] at hk₁
          exact (delete_executed hr).2 ((live_congr hx.records.repositories).mp hk₁)
        · exact absurd hrevives ((delete_executed hr).1 k)
      have hguarded : Guarded p op [] s := hs₀.1.beside hs.1 hlive
      refine ⟨hguarded.committed (by simp), fun hmem => ?_⟩
      rcases mem_append.mp hmem with hmem | hmem
      · rw [hs.1.released] at hmem
        exact hs₀.2 hmem
      · exact hs₀.2 ((hlive id (mem_filterMap_liveIn.mp hmem).2).resolve_right (by simp))

lemma removeTree_unpublished {w : Write} (h : Unpublished p op X id s) : Unpublished p op X id (s.removeTree id w) := by
  rw [Service.removeTree]
  split
  · exact h
  · rename_i n hn
    refine ⟨⟨h.1.records, fun k hk m hm => ?_, h.1.head, h.1.wc, fun x hx => ?_⟩, h.2⟩
    · refine h.1.empty k hk m ?_
      dsimp only at hm
      split at hm
      · by_cases hid : k = id
        · rw [hid, lookup_erase] at hm
          cases hm
        · rwa [lookup_erase_ne hid] at hm
      · exact hm
    · rcases mem_append.mp hx with hx | hx
      · exact h.1.removals x hx
      · rw [mem_singleton.mp hx]
        exact ⟨decide_eq_false h.2, h.1.empty id h.2 n hn⟩

lemma ensures_removeTree (hp : X ⊆ [p.repoID op]) :
    Ensures (Unpublished p op X id) (removeTree id) (fun _ => Unpublished p op X id) (Safe p op) := by
  have hR : ∀ s, Unpublished p op X id s → Safe p op s := fun s hs => hs.1.mono hp
  refine .bind (ensures_call unpublished_steady hR) (fun w => ?_)
  refine .seq (Q := Unpublished p op X id) (.update (fun s hs => removeTree_unpublished hs)) ?_
  refine .seq (ensures_settle (fun _ _ hs => hs) (fun _ => hR)) ?_
  exact ensures_command unpublished_steady hR

lemma ensures_removeRecord_guarded (hp : X ⊆ [p.repoID op]) :
    Ensures (Guarded p op X) (removeRecord o) (fun _ => Guarded p op X) (Safe p op) := by
  have hR : ∀ s, Guarded p op X s → Safe p op s := fun s hs => hs.mono hp
  exact .seq (ensures_save Guarded.steady hR (fun s hs => hs.erase) (fun s hs => hR _ hs.erase))
    (ensures_command Guarded.steady hR)

lemma ensures_saveRecord_unpublished (hp : X ⊆ [p.repoID op]) (ho : r.repoID = p.repoID op ↔ o = op) :
    Ensures (Unpublished p op X r.repoID) (saveRecord o r) (fun _ => Unpublished p op X r.repoID) (Safe p op) := by
  have hsaved : ∀ s, Unpublished p op X r.repoID s →
      Unpublished p op X r.repoID { s with backend := s.backend.insert o r } :=
    fun s hs => ⟨hs.1.insert ⟨ho, fun _ => hs.2⟩, hs.2⟩
  exact ensures_save unpublished_steady (fun s hs => hs.1.mono hp) hsaved (fun s hs => (hsaved s hs).1.mono hp)

lemma ensures_rollbackCreate_unpublished (hX : X ⊆ [r.repoID]) (hp : X ⊆ [p.repoID op]) (ho : r.repoID = p.repoID op ↔ o = op) :
    Ensures (Unpublished p op X r.repoID) (rollbackCreate env o r) (fun _ => Guarded p op X) (Safe p op) := by
  rw [rollbackCreate]
  split
  · refine .seq (Q := Unpublished p op [] r.repoID) ?_ ?_
    · refine .except (fun s hs => hs.1.mono hp) (fun _ _ => ?_)
      exact .seq (ensures_delete_unpublished hX hp) (ensures_removeTree (by simp))
    · refine .seq (ensures_saveRecord_unpublished (r := { r with stage := .rolledBack }) (by simp) ho) ?_
      exact (ensures_removeRecord_guarded (by simp)).conseq (fun s hs => hs.1) (fun _ s hs => hs.mono (by simp))
  · exact (ensures_removeRecord_guarded hp).pre (fun s hs => hs.1)
  · exact .fail (fun s hs => hs.1.mono hp)

lemma ensures_startWorker : Ensures (Safe p op) (startWorker env) (fun _ => Safe p op) (Safe p op) := by
  refine ensures_start (fun s₀ hs₀ => ?_)
  have hreconciled : ∀ f, f = s₀.wc ∨ f = s₀.head.restored s₀.wc ∨ f = s₀.head →
      ∀ k, Live f k → k ∈ s₀.released ∨ k ∈ [p.repoID op] := by
    rintro f (rfl | rfl | rfl) k hk
    · exact hs₀.wc k hk
    · rw [Live, Files.restored] at hk
      by_cases hmem : k ∈ s₀.head.repositories
      · rw [lookup_union_left hmem] at hk
        exact .inl (hs₀.head k hk)
      · rw [lookup_union_right hmem] at hk
        exact hs₀.wc k hk
    · exact .inl (hs₀.head k hk)
  refine .seq (Q := Guarded p op []) ?_ ?_
  · refine (Ensures.fails ensures_reconcile (fun s hs => ?_)).post (fun _ s hs => ?_)
    · exact hs₀.beside hs.1 (hreconciled s.wc hs.2.1)
    · refine hs₀.beside hs.1 (fun k hk => .inl ?_)
      rw [hs.2.1] at hk
      exact hs₀.head k hk
  · refine .read_bind (fun s₁ => .pre (P := Guarded p op []) ?_ (fun s hs => hs.1))
    refine (Ensures.each (fun o _ => ?_)).post (fun _ s hs => hs.mono (by simp))
    refine Ensures.read_bind (fun s₂ => ?_)
    cases hr : s₂.backend.lookup o with
    | none => exact .pure (fun s hs => hs.1)
    | some r =>
      refine .onlyIf_of (fun hfailed => ?_) (fun _ s hs => hs.1)
      rw [Bool.and_eq_true] at hfailed
      intro s as hs
      obtain ⟨hs, rfl⟩ := hs
      have hsound := hs.records o r hr
      exact ensures_rollbackCreate_unpublished (by simp) (by simp) hsound.repository s as ⟨hs, hsound.failed hfailed.2⟩

variable {name : Str} {purpose : Purpose}

structure Opened (p : Provision) (op : Str) (r : BackendRecord) (s : Service) : Prop where
  guarded : Guarded p op [p.repoID op] s
  repository : r.repoID = p.repoID op
  saved : (s.backend.lookup op).map BackendRecord.stage = some r.stage
  fresh : r.stage = .allocated ∨ r.stage = .fsfsCreated → p.repoID op ∉ s.released

lemma opened_steady : Steady (Opened p op r) := by
  intro s k hs
  obtain ⟨hbeside, _, _⟩ := beside_clientCommit s k
  refine ⟨Guarded.steady s k hs.guarded, hs.repository, ?_, ?_⟩
  · rw [hbeside.backend]
    exact hs.saved
  · rw [hbeside.released]
    exact hs.fresh

lemma Opened.not_failed (h : Opened p op r s) (hr : r.stage.failed = false) {r' : BackendRecord}
    (hr' : s.backend.lookup o = some r') (hfailed : r'.stage.failed = true) : r'.repoID ∉ [p.repoID op] := by
  intro hmem
  have ho := (h.guarded.records o r' hr').repository.mp (mem_singleton.mp hmem)
  have hsaved := h.saved
  rw [← ho, hr', map_some, some.injEq] at hsaved
  rw [hsaved, hr] at hfailed
  cases hfailed

lemma ensures_publishRecord (hr : r.stage.failed = false) :
    Ensures (Opened p op r) (publishRecord env r) (fun _ => Safe p op) (Opened p op r) := by
  refine ensures_start (fun s₀ hs₀ => ?_)
  have hrevives : ∀ q k, request env s₀.wc (.publish r.repoID r.realmID r.name r.url r.purpose) = .ok (some q) →
      q.Revives k → k ∈ [p.repoID op] :=
    fun q k hq hk => mem_singleton.mpr ((publish_revives hq hk).trans hs₀.repository)
  refine (Ensures.fails (ensures_publish _ _ _ _ _) (fun s hs => ?_)).post (fun _ s' hs' => ?_)
  · refine ⟨hs₀.guarded.stopped hs hrevives, hs₀.repository, ?_, ?_⟩
    · rw [hs.1.backend]
      exact hs₀.saved
    · rw [hs.1.released]
      exact hs₀.fresh
  · rcases hs' with ⟨_, hs⟩ | ⟨q, f₁, s, paths, hq, hx, hs, _, rfl⟩
    · exact hs₀.guarded.beside hs.1 (by rw [hs.2.1]; exact hs₀.guarded.wc)
    · refine (hs₀.guarded.beside hs.1 (fun k hk => ?_)).committed (fun o r' hr' => hs₀.not_failed hr (hs.1.backend ▸ hr'))
      rcases live_executed hx ((live_finishing hs.2.finishing).mp hk) with hk | hk
      · exact hs₀.guarded.wc k hk
      · exact .inr (hrevives q k hq hk)

lemma ensures_saveRecord_opened (r' : BackendRecord) (hP : Steady P)
    (hopened : ∀ s, P s → Safe p op s ∧ (r'.stage = .allocated ∨ r'.stage = .fsfsCreated → p.repoID op ∉ s.released))
    (hid : r'.repoID = p.repoID op) (hr : r'.stage.failed = false) :
    Ensures P (saveRecord op r') (fun _ => Opened p op r') (Safe p op) := by
  have hsaved : ∀ s, P s → Safe p op { s with backend := s.backend.insert op r' } := by
    intro s hs
    refine (hopened s hs).1.insert ⟨⟨fun _ => rfl, fun _ => hid⟩, fun hfailed => ?_⟩
    rw [hr] at hfailed
    cases hfailed
  refine ensures_save hP (fun s hs => (hopened s hs).1) (fun s hs => ⟨hsaved s hs, hid, ?_, (hopened s hs).2⟩) hsaved
  simp

lemma resumed_ok {x : BackendRecord × Bool} (h : resumed r realmID name purpose = .ok x) :
    x.1.repoID = r.repoID ∧ x.1.stage = r.stage ∧ (x.2 = true → x.1.stage = .published) := by
  obtain ⟨_, _, _, _, h⟩ := bind₂_ok.mp h
  cases h
  split
  · exact ⟨rfl, rfl, fun hstage => by simpa using hstage⟩
  · exact ⟨rfl, rfl, fun hfalse => by cases hfalse⟩

def Consistent (p : Provision) (op : Str) (s : Service) : Prop :=
  match s.backend.lookup op with
  | none => p.repoID op ∉ s.released
  | some r => r.stage = .allocated ∨ r.stage = .fsfsCreated → p.repoID op ∉ s.released

instance (p : Provision) (op : Str) (s : Service) : Decidable (Consistent p op s) := by
  rw [Consistent]
  split <;> infer_instance

lemma ensures_openRecord : Ensures (fun s => Safe p op s ∧ Consistent p op s)
    (openRecord p op realmID name purpose) (fun x s => Opened p op x.1 s ∧ (x.2 = true → x.1.stage = .published))
    (Safe p op) := by
  refine .read_bind (fun s₀ => ?_)
  cases hr : s₀.backend.lookup op with
  | some r =>
    refine .ofExcept (fun s hs => hs.1.1) (fun x hx s hs => ?_)
    obtain ⟨⟨hs, hconsistent⟩, rfl⟩ := hs
    rw [Consistent, hr] at hconsistent
    obtain ⟨hid, hstage, hrepair⟩ := resumed_ok hx
    refine ⟨⟨hs, hid.trans ((hs.records op r hr).repository.mpr rfl), ?_, ?_⟩, hrepair⟩
    · rw [hr, hstage]
      rfl
    · rw [hstage]
      exact hconsistent
  | none =>
    refine .pre (P := Unpublished p op [p.repoID op] (p.repoID op)) ?_ (fun s hs => ?_)
    · refine .except (fun s hs => hs.1) (fun url _ => ?_)
      refine .seq (ensures_saveRecord_opened _ unpublished_steady (fun s hs => ⟨hs.1, fun _ => hs.2⟩) rfl rfl) ?_
      exact .pure (fun s hs => ⟨hs, fun hfalse => by cases hfalse⟩)
    · obtain ⟨⟨hs, hconsistent⟩, rfl⟩ := hs
      rw [Consistent, hr] at hconsistent
      exact ⟨hs, hconsistent⟩

lemma ensures_createFSFS : Ensures (Opened p op r) (createFSFS r.repoID op) (fun _ => Opened p op r) (Safe p op) := by
  have hcommand : ∀ text, Ensures (Opened p op r) (command text) (fun _ => Opened p op r) (Safe p op) :=
    fun text => ensures_command opened_steady (fun s hs => hs.guarded)
  have hstaged : ∀ s staging, Opened p op r s → Opened p op r { s with staging := staging } := fun s staging hs =>
    { hs with guarded := { hs.guarded with } }
  have hmoved : ∀ s staging, Opened p op r s →
      Opened p op r { s with staging := staging, trees := s.trees.insert r.repoID 0 } := by
    intro s staging hs
    refine ⟨{ hs.guarded with empty := fun k hk n hn => ?_ }, hs.repository, hs.saved, hs.fresh⟩
    rcases lookup_insert_eq_some.mp hn with ⟨_, hzero⟩ | ⟨_, hn⟩
    · exact hzero.symm
    · exact hs.guarded.empty k hk n hn
  refine .seq (hcommand _) (.read_bind (fun s₁ => .pre (P := Opened p op r) ?_ (fun s hs => hs.1)))
  split
  · exact hcommand _
  · refine .seq (.onlyIf (ensures_save opened_steady (fun s hs => hs.guarded) (fun s hs => hstaged s _ hs)
      (fun s hs => (hstaged s _ hs).guarded))) ?_
    refine .seq (hcommand _) (.seq (hcommand _) ?_)
    exact ensures_save opened_steady (fun s hs => hs.guarded) (fun s hs => hmoved s _ hs) (fun s hs => (hmoved s _ hs).guarded)

lemma ensures_createTree : Ensures (Opened p op r) (createTree op r) (fun r' => Opened p op r') (Safe p op) := by
  rw [createTree]
  split
  · rename_i hstage
    intro s as hs
    have hid := hs.repository
    refine Ensures.bind ensures_createFSFS (fun _ => .seq (ensures_saveRecord_opened
      { r with stage := .fsfsCreated } opened_steady (fun s hs => ⟨hs.guarded, fun _ => hs.fresh (.inl hstage)⟩) hid rfl)
      (.pure (fun s hs => hs))) s as hs
  · exact .pure (fun s hs => hs)

lemma ensures_publishCreated : Ensures (Opened p op r) (publishCreated env op r) (fun _ => Safe p op)
    (Safe p op) := by
  rw [publishCreated]
  split
  · rename_i hstage
    intro s as hs
    have hid := hs.repository
    refine Ensures.bind (ensures_command opened_steady (fun s hs => hs.guarded)) (fun _ => ?_) s as hs
    refine Ensures.bind (Ensures.fails (Ensures.attempt_outcome (ensures_publishRecord (by rw [hstage]; rfl)))
      (fun s hs => hs.guarded)) (fun result => ?_)
    · cases result with
      | ok _ =>
        refine (ensures_saveRecord_opened { r with stage := .published } Guarded.steady (fun s hs => ⟨hs, ?_⟩) hid rfl).post (fun _ s hs => hs.guarded)
        rintro (h | h) <;> cases h
      | error e =>
        have ho : r.repoID = p.repoID op ↔ op = op := ⟨fun _ => rfl, fun _ => hid⟩
        refine .seq (.pre (ensures_saveRecord_unpublished (r := { r with stage := .rollbackPending })
          (X := [p.repoID op]) (by simp) ho) (fun s hs => ⟨hs.guarded, ?_⟩)) ?_
        · rw [hid]
          exact hs.fresh (.inr hstage)
        · refine .seq (ensures_rollbackCreate_unpublished (by rw [hid]; simp) (by simp) ho) ?_
          exact .failed
  · exact .pure (fun s hs => hs.guarded)
  · exact .fail (fun s hs => hs.guarded)

lemma ensures_createWithPurpose : Ensures (fun s => Safe p op s ∧ Consistent p op s)
    (createWithPurpose env p op realmID name purpose) (fun _ => Safe p op) (Safe p op) := by
  have hsteady : Steady (fun s => Safe p op s ∧ Consistent p op s) := by
    intro s k hs
    obtain ⟨hbeside, _, _⟩ := beside_clientCommit s k
    refine ⟨Guarded.steady s k hs.1, ?_⟩
    rw [Consistent, hbeside.backend, hbeside.released]
    exact hs.2
  refine .checked (fun _ _ => .seq (ensures_command hsteady (fun s hs => hs.1)) ?_)
  refine .bind ensures_openRecord (fun x => ?_)
  split
  · rename_i hfailed
    intro s as hs
    obtain ⟨hs, _⟩ := hs
    have hid := hs.repository
    have ho : x.1.repoID = p.repoID op ↔ op = op := ⟨fun _ => rfl, fun _ => hid⟩
    obtain ⟨r₀, hr₀, hstage⟩ := map_eq_some_iff.mp hs.saved
    have hsound := hs.guarded.records op r₀ hr₀
    refine Ensures.bind (ensures_rollbackCreate_unpublished (X := [p.repoID op]) (by rw [hid]; simp) (by simp) ho)
      (fun _ => Ensures.failed) s as ⟨hs.guarded, ?_⟩
    rw [hid, ← hsound.repository.mpr rfl]
    exact hsound.failed (by rw [hstage]; exact hfailed)
  · intro s as hs
    obtain ⟨hs, hrepair⟩ := hs
    have hid := hs.repository
    cases hx : x.2 with
    | false =>
      exact Ensures.bind (Q := fun _ => Opened p op x.1) (Ensures.pure (fun s hs => hs))
        (fun _ => .bind ensures_createTree (fun r => ensures_publishCreated)) s as hs
    | true =>
      have hstage := hrepair hx
      have hsaved : Ensures (Safe p op) (saveRecord op x.1) (fun _ => Opened p op x.1) (Safe p op) := by
        refine ensures_saveRecord_opened _ Guarded.steady (fun s hs => ⟨hs, ?_⟩) hid (by rw [hstage]; rfl)
        rw [hstage]
        rintro (h | h) <;> cases h
      exact Ensures.bind (Ensures.bind (Ensures.fails (ensures_publishRecord (by rw [hstage]; rfl)) (fun s hs => hs.guarded))
        (fun _ => hsaved)) (fun _ => .bind ensures_createTree (fun r => ensures_publishCreated)) s as hs

inductive CreationEvent
  | start (script : List Answer)
  | create (realmID name : Str) (purpose : Purpose) (script : List Answer)
  | commits (ids : List Str)

def creationStep (env : Env) (p : Provision) (op : Str) (s : Service) : CreationEvent → Service
  | .start script => (startWorker env s script).2.1
  | .create realmID name purpose script => (createWithPurpose env p op realmID name purpose s script).2.1
  | .commits ids => ids.foldl Service.clientCommit s

/-- `CreateWithPurpose` is called only while the record does not lag behind the publication. -/
def UpToDate (p : Provision) (op : Str) (s : Service) : CreationEvent → Prop
  | .create .. => Consistent p op s
  | _ => True

lemma creationStep_guarded {e : CreationEvent}
    (h : Safe p op s) (he : UpToDate p op s e) : Safe p op (creationStep env p op s e) := by
  cases e with
  | start script => exact ensures_startWorker.final h script
  | create realmID name purpose script => exact ensures_createWithPurpose.final ⟨h, he⟩ script
  | commits ids => exact Guarded.steady.foldl ids h

/-- No published tree is removed as long as no call finds a record that is behind the publication. -/
theorem rollback_spares_published (env : Env) (p : Provision) (op : Str) (s : Service) (es : List CreationEvent)
    (hs : Guarded p op [p.repoID op] s) (hes : Admits (creationStep env p op) (UpToDate p op) s es) :
    Along (creationStep env p op) (fun s => ∀ x ∈ s.removals, x.released = false ∧ x.youngest = 0) s es := by
  intro pre hpre
  have hinv := along_of_admits (creationStep env p op) (I := Guarded p op [p.repoID op])
    (fun s e hs he => creationStep_guarded hs he) hs hes
  exact (hinv pre hpre).removals

lemma guarded_serviceOf (p : Provision) (op : Str) (X : List Str) (f : Files) : Guarded p op X (serviceOf f) := by
  have hlive : ∀ id, Live f id → id ∈ f.repositories.keys := by
    intro id hid
    obtain ⟨r, hr⟩ := ne_none_iff_exists'.mp hid
    obtain ⟨file, hfile, _⟩ := bind_eq_some_iff.mp hr
    exact lookup_isSome.mp (isSome_of_eq_some hfile)
  refine ⟨fun o r hr => ?_, fun id _ n hn => ?_, hlive, fun id hid => .inl (hlive id hid), fun x hx => ?_⟩
  · cases hr
  · cases hn
  · cases hx

def createLetters (script : List Answer) : CreationEvent := .create homeRealm "letters" .none script

theorem rollback_spares_of_failed_commit :
    (creationStep sampleEnv lettersProvision creation shared
      (createLetters (calls 14 ++ List.replicate 4 ⟨[], .failed⟩ ++ calls 60))).removals = [⟨letters, false, 0⟩] ∧
    Along (creationStep sampleEnv lettersProvision creation) (fun s => ∀ x ∈ s.removals, x.released = false ∧ x.youngest = 0) shared
      [createLetters (calls 14 ++ List.replicate 4 ⟨[], .failed⟩ ++ calls 60)] :=
  ⟨by decide +kernel, rollback_spares_published sampleEnv lettersProvision creation shared _ (guarded_serviceOf _ _ _ _)
    ⟨show Consistent lettersProvision creation shared by decide +kernel, trivial⟩⟩

/-- The process dies after its commit, a client commits, the next publication fails: the rollback removes the tree.
-/
theorem rollback_removes_published :
    (run (creationStep sampleEnv lettersProvision creation) shared
      [createLetters (calls 15), .commits [letters], .start (calls 10),
        createLetters (calls 4 ++ ⟨[], .failed⟩ :: calls 60)]).removals = [⟨letters, true, 1⟩] := by
  decide +kernel

end FileES.Authority
