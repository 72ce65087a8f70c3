import FileES.Authority.Publisher
import FileES.Authority.Rights

/-! Rules for the calls and loops that the operations of the authority are made of. -/

namespace FileES.Authority

open Go Lib.Durable Lib.Effects Lib.Fallible List AList

variable {P Q R : Service → Prop} {env : Env} {s₀ : Service}

def Steady (P : Service → Prop) : Prop := ∀ s id, P s → P (s.clientCommit id)

lemma Steady.foldl (h : Steady P) (ids : List Str) {s : Service} (hs : P s) : P (ids.foldl Service.clientCommit s) := by
  induction ids generalizing s with
  | nil => exact hs
  | cons id ids ih => exact ih (h s id hs)

lemma ensures_call (hP : Steady P) (hR : ∀ s, P s → R s) : Ensures P call (fun _ => P) R := by
  refine .bind (.ask (T := fun _ => P) hR (fun _ _ hs => hs)) (fun a => ?_)
  refine .seq (Q := P) (.update (fun s hs => hP.foldl a.commits hs)) ?_
  exact .done

variable {text : Str}

lemma ensures_settle {w : Write} (h : w.ok = true → ∀ s, P s → Q s) (hR : w.ok = false → ∀ s, P s → R s) :
    Ensures P (settle w text) (fun _ => Q) R := by
  cases hw : w.ok with
  | true =>
    rw [settle, hw, if_pos rfl]
    exact .pure (h hw)
  | false =>
    rw [settle, hw, if_neg (by decide)]
    exact .fail (hR hw)

lemma ensures_save {f : Service → Service} (hP : Steady P) (hR : ∀ s, P s → R s) (hQ : ∀ s, P s → Q (f s))
    (hRf : ∀ s, P s → R (f s)) : Ensures P (save f) (fun _ => Q) R := by
  refine .bind (ensures_call hP hR) (fun w => ?_)
  have hstore : ∀ s, P s → (w.ok = true → Q (w.store s (f s))) ∧ R (w.store s (f s)) := by
    intro s hs
    cases w with
    | done => exact ⟨fun _ => hQ s hs, hRf s hs⟩
    | failed => exact ⟨fun h => absurd h (by decide), hR s hs⟩
    | unsynced => exact ⟨fun h => absurd h (by decide), hRf s hs⟩
  refine .seq (Q := fun s => (w.ok = true → Q s) ∧ R s) (.update hstore) ?_
  exact ensures_settle (fun hw s hs => hs.1 hw) (fun _ s hs => hs.2)

lemma ensures_command (hP : Steady P) (hR : ∀ s, P s → R s) : Ensures P (command text) (fun _ => P) R :=
  .bind (ensures_call hP hR) (fun _ => ensures_settle (fun _ _ hs => hs) (fun _ => hR))

structure Beside (s₀ s : Service) : Prop where
  head : s.head = s₀.head
  channels : s.channels = s₀.channels
  backend : s.backend = s₀.backend
  staging : s.staging = s₀.staging
  released : s.released = s₀.released
  removals : s.removals = s₀.removals
  trees : ∀ id, id ∉ s₀.released → s.trees.lookup id = s₀.trees.lookup id
  kept : ∀ id, (s.trees.lookup id).isSome = (s₀.trees.lookup id).isSome

lemma Beside.refl (s : Service) : Beside s s := ⟨rfl, rfl, rfl, rfl, rfl, rfl, fun _ _ => rfl, fun _ => rfl⟩

lemma Beside.trans {s₁ s₂ : Service} (h : Beside s₀ s₁) (h' : Beside s₁ s₂) : Beside s₀ s₂ :=
  ⟨h'.head.trans h.head, h'.channels.trans h.channels, h'.backend.trans h.backend, h'.staging.trans h.staging,
    h'.released.trans h.released, h'.removals.trans h.removals,
    fun id hid => (h'.trees id (by rw [h.released]; exact hid)).trans (h.trees id hid),
    fun id => (h'.kept id).trans (h.kept id)⟩

lemma beside_clientCommit (s : Service) (id : Str) :
    Beside s (s.clientCommit id) ∧ (s.clientCommit id).wc = s.wc ∧ (s.clientCommit id).authz = s.authz := by
  rw [Service.clientCommit]
  split
  · rename_i n hn
    split
    · rename_i hreleased
      refine ⟨⟨rfl, rfl, rfl, rfl, rfl, rfl, ?_, ?_⟩, rfl, rfl⟩
      · intro k hk
        exact lookup_insert_ne (fun he => hk (he ▸ hreleased))
      · intro k
        by_cases hk : k = id
        · rw [hk, hn]
          simp
        · exact congrArg _ (lookup_insert_ne hk)
    · exact ⟨.refl s, rfl, rfl⟩
  · exact ⟨.refl s, rfl, rfl⟩

def At (s₀ : Service) (Φ : Files → Option Authz → Prop) (s : Service) : Prop := Beside s₀ s ∧ Φ s.wc s.authz

abbrev Fixed (s₀ : Service) (f₀ : Files) (a₀ : Option Authz) : Service → Prop := At s₀ (fun f a => f = f₀ ∧ a = a₀)

abbrev Among (s₀ : Service) (I : Files → Prop) (a₀ : Option Authz) : Service → Prop := At s₀ (fun f a => I f ∧ a = a₀)

variable {Φ Ψ X : Files → Option Authz → Prop}

lemma steady_at : Steady (At s₀ Φ) := by
  intro s id hs
  obtain ⟨hbeside, hwc, hauthz⟩ := beside_clientCommit s id
  refine ⟨hs.1.trans hbeside, ?_⟩
  rw [hwc, hauthz]
  exact hs.2

variable {s : Service}

lemma At.mono (h : At s₀ Φ s) (hΨ : ∀ f a, Φ f a → Ψ f a) : At s₀ Ψ s := ⟨h.1, hΨ _ _ h.2⟩

lemma At.files {f : Files} {a : Option Authz} (h : At s₀ Φ s) (hΨ : Ψ f a) : At s₀ Ψ { s with wc := f, authz := a } :=
  ⟨{ h.1 with }, hΨ⟩

lemma ensures_write {g : Files → Files} (hΨ : ∀ f a, Φ f a → Ψ (g f) a) (hX : ∀ f a, Φ f a → X f a)
    (hXg : ∀ f a, Φ f a → X (g f) a) :
    Ensures (At s₀ Φ) (save (fun s => { s with wc := g s.wc })) (fun _ => At s₀ Ψ) (At s₀ X) :=
  ensures_save steady_at (fun _ hs => hs.mono hX) (fun s hs => hs.files (hΨ s.wc s.authz hs.2))
    (fun s hs => hs.files (hXg s.wc s.authz hs.2))

def Files.putRepository (f : Files) (id : Str) (repo : Repository) : Files :=
  { f with repositories := f.repositories.insert id (some repo) }

def Files.putView (f : Files) (client : Str) (v : View) : Files := { f with views := f.views.insert client (some v) }

def Files.putGrant (f : Files) (key : Str × Str) (grant : Grant) : Files :=
  { f with grants := f.grants.insert key (some grant) }

lemma ensures_putAuthz {b : Authz} (hΨ : ∀ f a, Φ f a → Ψ f (some b)) (hX : ∀ f a, Φ f a → X f a)
    (hXb : ∀ f a, Φ f a → X f (some b)) : Ensures (At s₀ Φ) (putAuthz b) (fun _ => At s₀ Ψ) (At s₀ X) :=
  ensures_save steady_at (fun _ hs => hs.mono hX) (fun s hs => hs.files (hΨ s.wc s.authz hs.2))
    (fun s hs => hs.files (hXb s.wc s.authz hs.2))

lemma ensures_command_at (hX : ∀ f a, Φ f a → X f a) :
    Ensures (At s₀ Φ) (command text) (fun _ => At s₀ Φ) (At s₀ X) :=
  ensures_command steady_at (fun _ hs => hs.mono hX)

lemma ensures_each_start {α : Type} {m : Op α} {T : α → Service → Prop}
    (h : ∀ f₁ a₁, Φ f₁ a₁ → Ensures (Fixed s₀ f₁ a₁) m T R) : Ensures (At s₀ Φ) m T R :=
  fun s as hs => h s.wc s.authz hs.2 s as ⟨hs.1, rfl, rfl⟩

lemma ensures_read_at {β : Type} {k : Service → Op β} {T : β → Service → Prop} {f₁ : Files} {a₁ : Option Authz}
    (h : ∀ s₁, Beside s₀ s₁ → s₁.wc = f₁ → s₁.authz = a₁ → Ensures (Fixed s₀ f₁ a₁) (k s₁) T R) :
    Ensures (Fixed s₀ f₁ a₁) (read >>= k) T R :=
  fun s as hs => h s hs.1 hs.2.1 hs.2.2 s as hs

variable {I : Files → Prop} {a₀ : Option Authz} {paths : List Place}

lemma ensures_revertPath {p : Place} (hI : ∀ f, I f → I (p.copy s₀.head f)) :
    Ensures (Among s₀ I a₀) (revertPath p) (fun _ => Among s₀ I a₀) (Among s₀ I a₀) := by
  have hcopy : ∀ s, Among s₀ I a₀ s →
      Among s₀ I a₀ { s with wc := p.copy s.head s.wc } := by
    intro s hs
    refine hs.files ⟨?_, hs.2.2⟩
    rw [hs.1.head]
    exact hI s.wc hs.2.1
  refine .bind (ensures_call steady_at (fun _ hs => hs)) (fun revert => ?_)
  refine .seq (Q := Among s₀ I a₀) (.update (fun s hs => ?_)) ?_
  · split
    · exact hcopy s hs
    · exact hs
  refine .bind (ensures_call steady_at (fun _ hs => hs)) (fun status => ?_)
  refine .read_bind (fun s₁ => .pre (.onlyIf ?_) (fun s hs => hs.1))
  refine .bind (ensures_call steady_at (fun _ hs => hs)) (fun w => .update (fun s hs => ?_))
  split
  · exact hcopy s hs
  · exact hs

lemma ensures_rollback (hI : ∀ p ∈ paths, ∀ f, I f → I (p.copy s₀.head f)) : Ensures (Among s₀ I a₀) (rollback paths)
      (fun _ => Among s₀ I a₀) (Among s₀ I a₀) :=
  .each (fun p hp => ensures_revertPath (hI p (mem_reverse.mp hp)))

variable {f₀ : Files}

lemma ensures_addPaths {done todo : List Place} (h₀ : I f₀) (hI : ∀ p ∈ done ++ todo, ∀ f, I f → I (p.copy s₀.head f)) :
    Ensures (Fixed s₀ f₀ a₀) (addPaths done todo) (fun _ => Fixed s₀ f₀ a₀) (Among s₀ I a₀) := by
  have hin : ∀ s, Fixed s₀ f₀ a₀ s → Among s₀ I a₀ s := fun s hs => hs.mono (fun f a hf => ⟨hf.1 ▸ h₀, hf.2⟩)
  induction todo generalizing done with
  | nil => exact .done
  | cons p todo ih =>
    refine .bind (ensures_call steady_at hin) (fun w => ?_)
    split
    · exact ih (by simpa using hI)
    · refine .pre (.seq (ensures_rollback ?_) .failed) hin
      intro q hq
      exact hI q (by
        rcases mem_append.mp hq with hq | hq
        · simp [hq]
        · simp [mem_singleton.mp hq])

lemma ensures_publishPaths {T : Service → Prop} (h₀ : I f₀) (hI : ∀ p ∈ paths, ∀ f, I f → I (p.copy s₀.head f))
    (hT : ∀ s, Fixed s₀ f₀ a₀ s → T (s.committed paths)) :
    Ensures (Fixed s₀ f₀ a₀) (publishPaths paths) (fun _ => T) (Among s₀ I a₀) := by
  have hin : ∀ s, Fixed s₀ f₀ a₀ s → Among s₀ I a₀ s := fun s hs => hs.mono (fun f a hf => ⟨hf.1 ▸ h₀, hf.2⟩)
  rw [publishPaths]
  split
  · rename_i hnil
    refine .pure (fun s hs => ?_)
    have := hT s hs
    rw [hnil] at this
    simpa [Service.committed] using this
  · refine .seq (ensures_addPaths h₀ hI) ?_
    refine .bind (ensures_call steady_at hin) (fun w => ?_)
    split
    · exact .update hT
    · exact .pre (.seq (ensures_rollback hI) .failed) hin

lemma ensures_reconcile : Ensures (Fixed s₀ f₀ a₀) reconcile (fun _ => Fixed s₀ s₀.head a₀)
    (At s₀ (fun f a => (f = f₀ ∨ f = s₀.head.restored f₀ ∨ f = s₀.head) ∧ a = a₀)) := by
  refine .seq (ensures_command_at (fun f a hf => ⟨.inl hf.1, hf.2⟩)) ?_
  refine .bind (ensures_call steady_at (fun s hs => hs.mono (fun f a hf => ⟨.inl hf.1, hf.2⟩))) (fun revert => ?_)
  refine .seq (Q := Fixed s₀ ((if revert.ok then s₀.head.restored f₀ else f₀)) a₀)
    (.update (fun s hs => ?_)) ?_
  · split
    · refine hs.files ⟨?_, hs.2.2⟩
      rw [hs.1.head, hs.2.1]
    · exact hs
  refine .seq (Q := Fixed s₀ (s₀.head.restored f₀) a₀)
    (ensures_settle (fun hw s hs => ?_) (fun hw s hs => ?_)) ?_
  · rw [hw] at hs
    exact hs
  · rw [hw] at hs
    exact hs.mono (fun f a hf => ⟨.inl hf.1, hf.2⟩)
  refine .bind (ensures_call steady_at (fun s hs => hs.mono (fun f a hf => ⟨.inr (.inl hf.1), hf.2⟩))) (fun cleanup => ?_)
  refine .seq (Q := Fixed s₀ ((if cleanup.ok then s₀.head else s₀.head.restored f₀)) a₀)
    (.update (fun s hs => ?_)) ?_
  · split
    · exact hs.files ⟨hs.1.head, hs.2.2⟩
    · exact hs
  refine .seq (Q := Fixed s₀ s₀.head a₀)
    (ensures_settle (fun hw s hs => ?_) (fun hw s hs => ?_))
    (ensures_command_at (fun f a hf => ⟨.inr (.inr hf.1), hf.2⟩))
  · rw [hw] at hs
    exact hs
  · rw [hw] at hs
    exact hs.mono (fun f a hf => ⟨.inr (.inl hf.1), hf.2⟩)

section

def ViewRewritten (env : Env) (g : View → Except Str (Option View)) (f f' : Files) (client : Str) : Prop :=
  match f.view env client with
  | none => f'.view env client = none
  | some v => ∃ next, g v = .ok next ∧ f'.view env client = some (next.getD v)

structure SameRecords (f f' : Files) : Prop where
  repositories : f'.repositories = f.repositories
  grants : f'.grants = f.grants
  clients : f'.clients = f.clients
  realms : f'.realms = f.realms

variable {f : Files} {client : Str} {v : View}

lemma view_congr {f' : Files} (h : f'.views.lookup client = f.views.lookup client) :
    f'.view env client = f.view env client := by
  rw [Files.view, Files.view, h]

lemma view_putView (hv : v.validate env = true) : (f.putView client v).view env client = some v := by
  simp [Files.putView, Files.view, filter, hv]

lemma view_putView_ne {k : Str} (hk : k ≠ client) : (f.putView client v).view env k = f.view env k :=
  view_congr (lookup_insert_ne hk)

def rewrittenView (env : Env) (g : View → Except Str (Option View)) (f : Files) (client : Str) : Files :=
  match f.view env client with
  | none => f
  | some v =>
    match g v with
    | .ok (some v') => f.putView client v'
    | _ => f

def rewrittenViews (env : Env) (g : View → Except Str (Option View)) (f : Files) : Files :=
  f.views.keys.foldl (rewrittenView env g) f

structure Rewriting (env : Env) (g : View → Except Str (Option View)) (f₀ : Files) (done : List Str)
    (f : Files) : Prop where
  records : SameRecords f₀ f
  written : ∀ client ∈ done, ViewRewritten env g f₀ f client
  pending : ∀ client ∉ done, f.views.lookup client = f₀.views.lookup client
  exact : f = done.foldl (rewrittenView env g) f₀

variable {g : View → Except Str (Option View)} {done : List Str}

lemma Rewriting.start : Rewriting env g f₀ [] f₀ := ⟨⟨rfl, rfl, rfl, rfl⟩, by simp, fun _ _ => rfl, rfl⟩

lemma Rewriting.skip (h : Rewriting env g f₀ done f) (hc : ViewRewritten env g f₀ f client)
    (he : rewrittenView env g f client = f) : Rewriting env g f₀ (done ++ [client]) f := by
  refine ⟨h.records, ?_, fun k hk => h.pending k (fun hd => hk (mem_append_left _ hd)), ?_⟩
  · intro k hk
    rcases mem_append.mp hk with hk | hk
    · exact h.written k hk
    · rw [mem_singleton.mp hk]
      exact hc
  · rw [foldl_append, ← h.exact]
    exact he.symm

lemma Rewriting.put {v' : View} (h : Rewriting env g f₀ done f) (hd : client ∉ done)
    (hv : f₀.view env client = some v) (hg : g v = .ok (some v')) (hvalid : v'.validate env = true) :
    Rewriting env g f₀ (done ++ [client]) (f.putView client v') := by
  have hview : f.view env client = some v := (view_congr (h.pending client hd)).trans hv
  refine ⟨{ h.records with }, ?_, ?_, ?_⟩
  · intro k hk
    rcases mem_append.mp hk with hk | hk
    · have hne : k ≠ client := fun he => hd (he ▸ hk)
      have hw := h.written k hk
      rw [ViewRewritten] at hw ⊢
      rw [view_putView_ne hne]
      exact hw
    · rw [mem_singleton.mp hk, ViewRewritten, hv]
      exact ⟨some v', hg, view_putView hvalid⟩
  · intro k hk
    have hne : k ≠ client := by
      rintro rfl
      simp at hk
    rw [← h.pending k (fun hd' => hk (mem_append_left _ hd'))]
    exact lookup_insert_ne hne
  · rw [foldl_append, ← h.exact, foldl_cons, foldl_nil, rewrittenView, hview]
    simp only [hg]

lemma ensures_rewriteView (hd : client ∉ done) (changed : List Place) :
    Ensures (Among s₀ (Rewriting env g f₀ done) a₀) (rewriteView env g changed client)
      (fun _ => At s₀ (fun f a => Rewriting env g f₀ (done ++ [client]) f ∧ a = a₀))
      (Among s₀ (fun f => ∃ done, Rewriting env g f₀ done f) a₀) := by
  refine ensures_each_start (fun f₁ a₁ hf₁ => ensures_read_at (fun s₁ _ hs₁ _ => ?_))
  obtain ⟨hf₁, rfl⟩ := hf₁
  have hin : ∀ s, Fixed s₀ f₁ a₁ s → At s₀ (fun f a => (∃ done, Rewriting env g f₀ done f) ∧ a = a₁) s :=
    fun s hs => hs.mono (fun f a hf => ⟨⟨done, hf.1 ▸ hf₁⟩, hf.2⟩)
  have hview : f₁.view env client = f₀.view env client := view_congr (hf₁.pending client hd)
  rw [hs₁, hview]
  cases hv : f₀.view env client with
  | none =>
    refine .pure (fun s hs => hs.mono (fun f a hf => ⟨hf.1 ▸ hf₁.skip ?_ ?_, hf.2⟩))
    · rw [ViewRewritten, hv]
      exact hview.trans hv
    · rw [rewrittenView, hview, hv]
  | some v =>
    refine .except hin (fun next hnext => ?_)
    cases next with
    | none =>
      refine .pure (fun s hs => hs.mono (fun f a hf => ⟨hf.1 ▸ hf₁.skip ?_ ?_, hf.2⟩))
      · rw [ViewRewritten, hv]
        exact ⟨none, hnext, hview.trans hv⟩
      · rw [rewrittenView, hview, hv]
        simp only [hnext]
    | some v' =>
      refine .except hin (fun _ hvalid => ?_)
      have hput : Rewriting env g f₀ (done ++ [client]) (f₁.putView client v') :=
        hf₁.put hd hv hnext (require_ok.mp hvalid)
      exact .seq (ensures_write (g := (·.putView client v')) (fun f a hf => ⟨hf.1 ▸ hput, hf.2⟩) (fun f a hf => ⟨⟨_, hf.1 ▸ hf₁⟩, hf.2⟩)
        (fun f a hf => ⟨⟨_, hf.1 ▸ hput⟩, hf.2⟩)) .done

structure Rewritten (env : Env) (g : View → Except Str (Option View)) (f f' : Files) : Prop where
  records : SameRecords f f'
  views : ∀ client, ViewRewritten env g f f' client
  exact : f' = rewrittenViews env g f

lemma Rewriting.finished (h : Rewriting env g f₀ f₀.views.keys f) : Rewritten env g f₀ f := by
  refine ⟨h.records, fun client => ?_, h.exact⟩
  by_cases hmem : client ∈ f₀.views.keys
  · exact h.written client hmem
  · have hnone : f₀.view env client = none := by
      rw [Files.view, lookup_eq_none.mpr hmem]
      rfl
    rw [ViewRewritten, hnone]
    exact (view_congr (h.pending client hmem)).trans hnone

lemma ensures_rewriteViews (g : View → Except Str (Option View)) (f₀ : Files) (a₀ : Option Authz) :
    Ensures (Fixed s₀ f₀ a₀) (rewriteViews env g) (fun _ => Among s₀ (Rewritten env g f₀) a₀)
      (Among s₀ (fun f => ∃ done, Rewriting env g f₀ done f) a₀) := by
  refine ensures_read_at (fun s₁ _ hs₁ _ => ?_)
  rw [hs₁]
  have hloop := Ensures.foldlM (R := Among s₀ (fun f => ∃ done, Rewriting env g f₀ done f) a₀)
    (J := fun done (_ : List Place) => Among s₀ (Rewriting env g f₀ done) a₀)
    (f := rewriteView env g) (l := f₀.views.keys) (fun done client rest heq changed => ?_) []
  · refine hloop.conseq (fun s hs => hs.mono (fun f a hf => ?_)) (fun _ s hs => hs.mono (fun f a hf => ?_))
    · rw [hf.1]
      exact ⟨.start, hf.2⟩
    · exact ⟨hf.1.finished, hf.2⟩
  · refine ensures_rewriteView ?_ changed
    have hnodup : f₀.views.keys.Nodup := f₀.views.keys_nodup
    rw [heq] at hnodup
    intro hmem
    exact disjoint_of_nodup_append hnodup hmem (by simp)

end

end FileES.Authority
