import FileES.Rotation.Recovery
import FileES.Rotation.Rotate

/-! What becomes of the repository's own hook when commits are blocked by another one. -/

namespace FileES.Rotation

open Go Lib.Calls Lib.Durable Lib.Effects Lib.Fallible Lib.Maps Lib.Runs List Option AList

variable {env : Env} {d : Disk} {g : Generation} {h h₀ : Hooks} {o : Option Hook} {target name : Str}

def asHook (o : Option Hook) : Option Hook := o.filter (fun h => h ≠ .other)

@[simp] lemma asHook_none : asHook none = none := rfl

def Applies (name : Str) (hook : Hook) (target : Str) : Prop :=
  hook ≠ .other ∧ name ≠ preCommit ∧ copyName name = target

lemma preCommit_ne_asideHook : preCommit ≠ asideHook := by decide +kernel

lemma Applies.name_eq {name' : Str} {hook hook' : Hook} (h : Applies name hook target)
    (h' : Applies name' hook' target) : name = name' := by
  obtain ⟨_, hne, hname⟩ := h
  obtain ⟨_, hne', hname'⟩ := h'
  rw [← hname'] at hname
  simp only [copyName] at hname
  split at hname <;> split at hname
  · rename_i h1 h2
    rw [h1, h2]
  · exact absurd hname.symm hne'
  · exact absurd hname hne
  · exact hname

variable {dst res src : Hooks}

lemma copyHook_lookup {dst' : Hooks} {e : Str × Hook} (h : copyHook dst e = .ok dst') (target : Str) :
    (Applies e.1 e.2 target → dst'.lookup target = some e.2) ∧ (¬ Applies e.1 e.2 target → dst'.lookup target = dst.lookup target) := by
  obtain ⟨name, hook⟩ := e
  have hput : ∀ v, hook = v → v ≠ .other → name ≠ preCommit → dst' = dst.insert (copyName name) v →
      (Applies name hook target → dst'.lookup target = some hook) ∧ (¬ Applies name hook target → dst'.lookup target = dst.lookup target) := by
    rintro v rfl hv hname rfl
    refine ⟨?_, fun hnot => lookup_insert_ne (fun heq => hnot ⟨hv, hname, heq.symm⟩)⟩
    rintro ⟨_, _, rfl⟩
    exact lookup_insert _
  have hskip : (hook = .other ∨ name = preCommit) → dst' = dst →
      (Applies name hook target → dst'.lookup target = some hook) ∧ (¬ Applies name hook target → dst'.lookup target = dst.lookup target) := by
    rintro hor rfl
    refine ⟨fun ⟨hother, hname, _⟩ => ?_, fun _ => rfl⟩
    rcases hor with hor | hor
    · exact absurd hor hother
    · exact absurd hor hname
  cases hook with
  | other => exact hskip (.inl rfl) (Except.ok.inj h).symm
  | file content mode =>
    simp only [copyHook] at h
    split at h
    · rename_i hname
      exact hskip (.inr hname) (Except.ok.inj h).symm
    · rename_i hname
      exact hput _ rfl nofun hname (Except.ok.inj h).symm
  | symlink link =>
    simp only [copyHook] at h
    split at h
    · rename_i hname
      exact hskip (.inr hname) (Except.ok.inj h).symm
    · rename_i hname
      obtain ⟨_, _, h⟩ := bind_ok.mp h
      exact hput _ rfl nofun hname (Except.ok.inj h).symm

lemma foldlM_copyHook_lookup {es : List (Str × Hook)} (hnodup : (es.map Prod.fst).Nodup)
    (h : es.foldlM copyHook dst = .ok res) (target : Str) :
    (∀ e ∈ es, Applies e.1 e.2 target → res.lookup target = some e.2) ∧
      ((∀ e ∈ es, ¬ Applies e.1 e.2 target) → res.lookup target = dst.lookup target) := by
  induction es generalizing dst with
  | nil =>
    obtain rfl := Except.ok.inj h
    exact ⟨fun e he => (by cases he), fun _ => rfl⟩
  | cons e es ih =>
    rw [map_cons, nodup_cons] at hnodup
    rw [foldlM_cons] at h
    obtain ⟨mid, hmid, h⟩ := bind_ok.mp h
    obtain ⟨hone, hnone⟩ := copyHook_lookup hmid target
    obtain ⟨hsome, hrest⟩ := ih hnodup.2 h
    refine ⟨fun e' he' happlies => ?_, fun hnot => ?_⟩
    · rcases mem_cons.mp he' with rfl | he'
      · refine (hrest (fun e'' he'' happlies'' => hnodup.1 ?_)).trans (hone happlies)
        rw [happlies.name_eq happlies'']
        exact mem_map_of_mem he''
      · exact hsome e' he' happlies
    · rw [hrest (fun e' he' => hnot e' (mem_cons_of_mem _ he')), hnone (hnot e mem_cons_self)]

lemma copyHooks_lookup (hcopy : copyHooks src dst = .ok res) (target : Str) :
    (∀ name hook, src.lookup name = some hook → Applies name hook target → res.lookup target = some hook) ∧
      ((∀ name hook, src.lookup name = some hook → ¬ Applies name hook target) → res.lookup target = dst.lookup target) := by
  have hnodup : ((src.entries.map (fun e => (e.1, e.2))).map Prod.fst).Nodup := by
    rw [List.map_map]
    exact src.nodupKeys
  have hmem : ∀ e : Str × Hook, e ∈ src.entries.map (fun e => (e.1, e.2)) ↔ src.lookup e.1 = some e.2 := by
    rintro ⟨name, hook⟩
    rw [← mem_entries_iff, List.mem_map]
    constructor
    · rintro ⟨e, he, heq⟩
      cases heq
      exact he
    · exact fun he => ⟨⟨name, hook⟩, he, rfl⟩
  obtain ⟨hsome, hnone⟩ := foldlM_copyHook_lookup hnodup hcopy target
  exact ⟨fun name hook hl => hsome (name, hook) ((hmem _).mpr hl), fun hnot => hnone (fun e he => hnot e.1 e.2 ((hmem e).mp he))⟩

lemma copyHooks_preCommit (hcopy : copyHooks src dst = .ok res) (hdst : dst.lookup preCommit = none) :
    res.lookup preCommit = asHook (src.lookup asideHook) := by
  obtain ⟨hsome, hnone⟩ := copyHooks_lookup hcopy preCommit
  have hname : ∀ name hook, Applies name hook preCommit → name = asideHook := by
    rintro name hook ⟨_, hne, hcopied⟩
    by_contra hnot
    rw [copyName, if_neg hnot] at hcopied
    exact hne hcopied
  cases ha : src.lookup asideHook with
  | none =>
    rw [hnone, hdst]
    · rfl
    · intro name hook hl happlies
      rw [hname name hook happlies, ha] at hl
      cases hl
  | some hook =>
    by_cases hother : hook = .other
    · rw [hnone, hdst, hother]
      · rfl
      · intro name hook' hl happlies
        rw [hname name hook' happlies, ha] at hl
        obtain rfl := Option.some.inj hl
        exact happlies.1 hother
    · rw [hsome asideHook hook ha ⟨hother, preCommit_ne_asideHook.symm, if_pos rfl⟩]
      simp [asHook, Option.filter, hother]

def Disk.withHooks (d : Disk) (g : Generation) (h : Hooks) : Disk := { d with hot := some (.plain { g with hooks := h }) }

def At (d : Disk) (g : Generation) (P : Hooks → Prop) (s : Disk) : Prop := ∃ h, s = d.withHooks g h ∧ P h

variable {P Q : Hooks → Prop} {y : Hook} {torn : ℕ}

lemma ensures_saveHooks {R : Hooks → Prop} {f : Hooks → Hooks} {e : Str} (hR : ∀ h, P h → R h) (hQ : ∀ h, P h → Q (f h))
    (hRf : ∀ h, P h → R (f h)) : Ensures (At d g P) (save (Disk.onHooks f) e : Op Unit) (fun _ => At d g Q) (At d g R) := by
  refine .save ?_ ?_ ?_
  · rintro _ ⟨h, rfl, hp⟩
    exact ⟨h, rfl, hR h hp⟩
  · rintro _ ⟨h, rfl, hp⟩
    exact ⟨f h, rfl, hQ h hp⟩
  · rintro _ ⟨h, rfl, hp⟩
    exact ⟨f h, rfl, hRf h hp⟩

lemma At.mono (hPQ : ∀ h, P h → Q h) : ∀ s, At d g P s → At d g Q s := by
  rintro _ ⟨h, rfl, hp⟩
  exact ⟨h, rfl, hPQ h hp⟩

def Touched (h₀ h : Hooks) : Prop :=
  (h.lookup asideHook = h₀.lookup asideHook ∧ (h.lookup preCommit = h₀.lookup preCommit ∨ h₀.lookup preCommit = none)) ∨
    (∃ y, h₀.lookup preCommit = some y ∧ h₀.lookup asideHook = none ∧ h.lookup asideHook = some y)

structure Blocking (h₀ h : Hooks) : Prop where
  single : h₀.lookup preCommit = none ∨ h₀.lookup asideHook = none
  aside : h.lookup asideHook = (h₀.lookup preCommit).or (h₀.lookup asideHook)
  rest : ∀ name, name ≠ preCommit → name ≠ asideHook → h.lookup name = h₀.lookup name

lemma Touched.refl : Touched h h := .inl ⟨rfl, .inl rfl⟩

lemma Blocking.touched (hb : Blocking h₀ h) : Touched h₀ h := by
  have haside := hb.aside
  cases hp : h₀.lookup preCommit with
  | none =>
    rw [hp, none_or] at haside
    exact .inl ⟨haside, .inr hp⟩
  | some y =>
    rw [hp, some_or] at haside
    refine .inr ⟨y, hp, ?_, haside⟩
    rcases hb.single with hn | hn
    · rw [hp] at hn
      cases hn
    · exact hn

lemma Blocking.insert (hb : Blocking h₀ h) (v : Hook) : Blocking h₀ (h.insert preCommit v) := by
  refine ⟨hb.single, ?_, fun name hn hn' => ?_⟩
  · rw [lookup_insert_ne preCommit_ne_asideHook.symm]
    exact hb.aside
  · rw [lookup_insert_ne hn]
    exact hb.rest name hn hn'

lemma Blocking.erase (hb : Blocking h₀ h) : Blocking h₀ (h.erase preCommit) ∧ (h.erase preCommit).lookup preCommit = none := by
  refine ⟨⟨hb.single, ?_, fun name hn hn' => ?_⟩, lookup_erase _ _⟩
  · rw [lookup_erase_ne preCommit_ne_asideHook.symm]
    exact hb.aside
  · rw [lookup_erase_ne hn]
    exact hb.rest name hn hn'

lemma lookup_moveHook {source : Str} {v : Hook} (hv : h.lookup source = some v) (name : Str) :
    (moveHook source target h).lookup name = if name = target then some v else if name = source then none else h.lookup name := by
  simp only [moveHook, hv]
  split
  · rename_i hname
    rw [hname]
    exact lookup_insert _
  · rename_i hname
    rw [lookup_insert_ne hname]
    split
    · rename_i hsource
      rw [hsource]
      exact lookup_erase _ _
    · rename_i hsource
      exact lookup_erase_ne hsource

lemma blocking_parkHook (hp : h₀.lookup preCommit = some y) (ha : h₀.lookup asideHook = none) : Blocking h₀ (parkHook h₀) := by
  have hmove : ∀ name, (moveHook preCommit asideHook h₀).lookup name =
      if name = asideHook then some y else if name = preCommit then none else h₀.lookup name := lookup_moveHook hp
  refine ⟨.inr ha, ?_, fun name hn hn' => ?_⟩
  · rw [parkHook, hmove, if_pos rfl, hp]
    rfl
  · rw [parkHook, hmove, if_neg hn', if_neg hn]

lemma Blocking.unpark (hb : Blocking h₀ h) (hp : h₀.lookup preCommit = some y) (ha : h₀.lookup asideHook = none)
    (name : Str) : (unparkHook h).lookup name = h₀.lookup name := by
  have haside : h.lookup asideHook = some y := by rw [hb.aside, hp]; rfl
  rw [unparkHook, lookup_moveHook haside]
  split
  · rename_i hname
    rw [hname, hp]
  · split
    · rename_i hname
      rw [hname, ha]
    · rename_i hn hn'
      exact hb.rest name hn hn'

lemma touched_of_same (hs : ∀ name, h.lookup name = h₀.lookup name) : Touched h₀ h := .inl ⟨hs _, .inl (hs _)⟩

lemma ensures_writeBlockHook :
    Ensures (At d g (Blocking h₀)) (writeBlockHook torn) (fun _ => At d g (Blocking h₀)) (At d g (Blocking h₀)) :=
  .each (fun _ _ => ensures_saveHooks (fun _ hp => hp) (fun _ hp => hp.insert _) (fun _ hp => hp.insert _))

lemma ensures_installBlockHook : Ensures (fun s => s = d.withHooks g h₀) (installBlockHook torn)
      (fun moved s => At d g (Blocking h₀) s ∧ moved = (h₀.lookup preCommit).isSome) (At d g (Touched h₀)) := by
  have hhere : ∀ s, s = d.withHooks g h₀ → At d g (Touched h₀) s := fun s hs => ⟨h₀, hs, .refl⟩
  refine .read_at (.except hhere (fun g' hg' => ?_))
  obtain rfl : { g with hooks := h₀ } = g' := Except.ok.inj hg'
  dsimp only
  cases hp : h₀.lookup preCommit with
  | none =>
    have hstart : Blocking h₀ h₀ := ⟨.inl hp, by rw [hp, none_or], fun _ _ _ => rfl⟩
    refine .seq (Q := At d g (Blocking h₀))
      ((ensures_writeBlockHook.pre (fun s hs => ⟨h₀, hs, hstart⟩)).fails (At.mono (fun _ => Blocking.touched)))
      (.pure (fun s hs => ⟨hs, rfl⟩))
  | some y =>
    refine .except hhere (fun _ hnone => ?_)
    have ha : h₀.lookup asideHook = none := isNone_iff_eq_none.mp (require_ok.mp hnone)
    have hpark := blocking_parkHook hp ha
    refine .seq (Q := At d g (Blocking h₀)) (.save_at (hhere _ rfl) ⟨_, rfl, hpark⟩ ⟨_, rfl, hpark.touched⟩) ?_
    · refine Ensures.bind (Ensures.attempt_outcome ensures_writeBlockHook |>.fails (At.mono (fun _ => Blocking.touched)))
        (fun written => ?_)
      cases written with
      | ok _ => exact .pure (fun s hs => ⟨hs, rfl⟩)
      | error e =>
        -- the hook goes back in its place, or stays aside
        refine .seq (Q := At d g (Touched h₀)) ?_ .failed
        refine .pre (P := At d g (fun h => Blocking h₀ h ∨ ∀ name, h.lookup name = h₀.lookup name)) ?_
          (At.mono (fun _ => .inl))
        have htouched : ∀ s, At d g (fun h => Blocking h₀ h ∨ ∀ name, h.lookup name = h₀.lookup name) s → At d g (Touched h₀) s :=
          At.mono (fun _ hs => hs.elim Blocking.touched touched_of_same)
        refine (Ensures.tryTo htouched ?_).post (fun _ => htouched)
        rintro _ ⟨h, rfl, hb | hsame⟩
        · exact ⟨_, rfl, .inr (hb.unpark hp ha)⟩
        · refine ⟨_, rfl, .inr (fun name => ?_)⟩
          have hnone : h.lookup asideHook = none := (hsame _).trans ha
          simp only [unparkHook, moveHook, hnone]
          exact hsame name

lemma ensures_removeBlockHook {moved : Bool} (hmoved : moved = (h₀.lookup preCommit).isSome) :
    Ensures (At d g (Blocking h₀)) (removeBlockHook moved) (fun _ => At d g (fun h => ∀ name, h.lookup name = h₀.lookup name))
      (At d g (Touched h₀)) := by
  refine .seq (Q := At d g (fun h => Blocking h₀ h ∧ h.lookup preCommit = none))
    (ensures_saveHooks (fun _ => Blocking.touched) (fun _ => Blocking.erase) (fun _ hb => hb.erase.1.touched)) ?_
  refine .onlyIf_of (fun hb => ?_) (fun hb => ?_)
  · rw [hmoved] at hb
    obtain ⟨y, hp⟩ := isSome_iff_exists.mp hb
    have hback : ∀ h, Blocking h₀ h ∧ h.lookup preCommit = none → ∀ name, (unparkHook h).lookup name = h₀.lookup name := by
      rintro h ⟨hblock, _⟩
      refine hblock.unpark hp (hblock.single.resolve_left (fun hn => ?_))
      rw [hp] at hn
      cases hn
    exact ensures_saveHooks (fun _ hs => hs.1.touched) hback (fun h hs => touched_of_same (hback h hs))
  · rw [hmoved] at hb
    have hp : h₀.lookup preCommit = none := isNone_iff_eq_none.mp (by rw [← not_isSome, hb]; rfl)
    refine At.mono (fun h hs name => ?_)
    by_cases hn : name = preCommit
    · rw [hn, hs.2, hp]
    · by_cases hn' : name = asideHook
      · rw [hn', hs.1.aside, hp, none_or]
      · exact hs.1.rest name hn hn'

variable {a : Attempt} {old : Generation}

lemma built_lookup (h : hasSuffix name ".tmpl" = false) : a.built.generation.hooks.lookup name = none := by
  by_contra hsome
  have := a.built.templates name (isSome_iff_ne_none.mpr hsome)
  rw [h] at this
  cases this

variable {r : SwapRecord} {w : Work} {new : Generation} {s : Disk}

lemma stage_ok (hot : d.hot = some (.plain old)) (h : stage env a d = .ok (r, w)) :
    r = a.record env old ∧ r.validate env = .ok () ∧ d.archived.lookup (a.info env old).archiveDir = none ∧
      ∃ new, w = ⟨some (.plain new), (a.artifacts env old).1⟩ ∧ new.uuid = a.built.generation.uuid ∧
        copyHooks old.hooks a.built.generation.hooks = .ok new.hooks := by
  simp only [stage, bind_ok] at h
  obtain ⟨old', hold', _, _, hooks, hhooks, _, _, _, _, _, hfree, new, hnew, _, hvalid, h⟩ := h
  obtain rfl : old = old' := by
    rw [hotGeneration, hot] at hold'
    exact Except.ok.inj hold'
  obtain ⟨rfl, rfl⟩ := Prod.mk.inj (Except.ok.inj h)
  have hbase : (a.base old).hooks = a.built.generation.hooks ∧ (a.base old).uuid = a.built.generation.uuid := by
    rw [Attempt.base]
    cases a.kind <;> exact ⟨rfl, rfl⟩
  have hkeeps : new.hooks = hooks ∧ new.uuid = (a.base old).uuid := by
    rw [Attempt.configure] at hnew
    cases hk : a.kind with
    | rotate depth =>
      rw [hk] at hnew
      obtain rfl := Except.ok.inj hnew
      exact ⟨rfl, rfl⟩
    | load prepare =>
      rw [hk] at hnew
      obtain ⟨conf, _, hnew⟩ := bind_ok.mp hnew
      obtain rfl := Except.ok.inj hnew
      exact ⟨rfl, rfl⟩
  refine ⟨rfl, hvalid, isNone_iff_eq_none.mp (require_ok.mp hfree), new, rfl, hkeeps.2.trans hbase.2, ?_⟩
  rw [← hbase.1, hhooks, hkeeps.1]

lemma mem_list_iff {x : Str × Str} : x ∈ r.list ↔ r.artifacts.lookup x.1 = some x.2 := by
  rw [← mem_entries_iff, SwapRecord.list, List.mem_map]
  constructor
  · rintro ⟨e, he, rfl⟩
    exact he
  · exact fun he => ⟨⟨x.1, x.2⟩, he, rfl⟩

lemma unguarded_copy (hold : old.guarded = false)
    (hcopy : copyHooks old.hooks a.built.generation.hooks = .ok new.hooks) : new.guarded = false := by
  have hnone : old.hooks.lookup archiveProtection = none := isSome_eq_false_iff.mp hold |> isNone_iff_eq_none.mp
  have hnew : new.hooks.lookup archiveProtection = none := by
    rw [(copyHooks_lookup hcopy archiveProtection).2, built_lookup (by decide +kernel)]
    rintro name hook hl ⟨_, _, hname⟩
    by_cases haside : name = asideHook
    · rw [copyName, if_pos haside] at hname
      exact absurd hname (by decide +kernel)
    · rw [copyName, if_neg haside] at hname
      rw [hname, hnone] at hl
      cases hl
  rw [Generation.guarded, hnew]
  rfl

def PreparedFrom (env : Env) (a : Attempt) (old : Generation) (r : SwapRecord) (s : Disk) : Prop :=
  ∃ new, Prepared env r old new s ∧ copyHooks old.hooks a.built.generation.hooks = .ok new.hooks

section

variable (husable : env.usable = true) (hopen : old.guarded = false) (hot : d.hot = some (.plain old))
include husable hopen hot

lemma prepared_of_stage (h : stage env a d = .ok (r, w)) : PreparedFrom env a old r (d.prepare r w) := by
  obtain ⟨rfl, hvalid, hfree, new, rfl, huuid, hcopy⟩ := stage_ok hot h
  refine ⟨new, ⟨husable, ⟨hvalid, rfl, huuid, hopen, unguarded_copy hopen hcopy⟩, rfl, hot, hfree, rfl, fun x hx => ?_⟩, hcopy⟩
  obtain ⟨n, hn, hsum⟩ := lookup_filterMap_eq_some.mp (mem_list_iff.mp hx)
  cases n with
  | other => cases hsum
  | plain content => exact ⟨content, hn, some.inj hsum⟩

lemma ensures_prepareSwap : Ensures (· = d) (prepareSwap env a) (fun r => PreparedFrom env a old r)
      (fun s => s = d ∨ ∃ r, PreparedFrom env a old r s) := by
  have hhere : ∀ s, s = d → (s = d ∨ ∃ r, PreparedFrom env a old r s) := fun s hs => .inl hs
  refine .seq (.command hhere) (.read_at (.except hhere (fun staged hstaged => ?_)))
  obtain ⟨r, w⟩ := staged
  have hprepared := prepared_of_stage husable hopen hot hstaged
  refine .seq (.command hhere) ?_
  refine .seq (Q := PreparedFrom env a old r) (.save_at (hhere _ rfl) hprepared (.inr ⟨r, hprepared⟩)) ?_
  · exact .seq (.command (fun _ hs => .inr ⟨r, hs⟩)) (.pure (fun _ hs => hs))

end

structure Begun (env : Env) (g : Generation) (h₀ : Hooks) (s : Disk) : Prop where
  single : h₀.lookup preCommit = none ∨ h₀.lookup asideHook = none
  swap : ∃ r old new, Names env r old new ∧ Progress env r old new False s ∧ old.uuid = g.uuid ∧ new.uuid ≠ g.uuid ∧
    new.hooks.lookup preCommit = asHook ((h₀.lookup preCommit).or (h₀.lookup asideHook))

lemma Blocking.begun {t : Disk} (hb : Blocking h₀ h) (hprepared : Prepared env r { g with hooks := h } new s)
    (hcopy : copyHooks h a.built.generation.hooks = .ok new.hooks)
    (ht : Progress env r { g with hooks := h } new False t) : Begun env g h₀ t := by
  refine ⟨hb.single, r, _, new, hprepared.names, ht, rfl, ?_, ?_⟩
  · have hold : g.uuid = r.info.oldUUID := hprepared.names.oldUUID
    rw [hprepared.names.newUUID, hold]
    exact (validate_ok hprepared.names.valid).2.2.1
  · rw [copyHooks_preCommit hcopy (built_lookup (by decide +kernel)), hb.aside]

def AfterAttempt (env : Env) (d : Disk) (g : Generation) (h₀ : Hooks) (s : Disk) : Prop := At d g (Touched h₀) s ∨ Begun env g h₀ s

lemma guarded_blocking (hb : Blocking h₀ h) : ({ g with hooks := h } : Generation).guarded = ({ g with hooks := h₀ } : Generation).guarded := by
  rw [Generation.guarded, Generation.guarded, hb.rest archiveProtection (by decide +kernel) (by decide +kernel)]

lemma ensures_blocked (husable : env.usable = true) (hopen : ({ g with hooks := h₀ } : Generation).guarded = false) :
    Ensures (fun s => s = d.withHooks g h₀) (blocked env a) (fun _ => AfterAttempt env d g h₀) (AfterAttempt env d g h₀) := by
  refine Ensures.bind (ensures_installBlockHook.fails (fun _ hs => .inl hs)) (fun moved => Ensures.given (fun hmoved => ?_))
  refine .fix ?_
  rintro _ ⟨h, rfl, hb⟩
  have hopen' : ({ g with hooks := h } : Generation).guarded = false := (guarded_blocking hb).trans hopen
  have hstay : ∀ s, s = d.withHooks g h → AfterAttempt env d g h₀ s := fun s hs => .inl ⟨h, hs, hb.touched⟩
  have hbegun : ∀ r s, PreparedFrom env a { g with hooks := h } r s → AfterAttempt env d g h₀ s := by
    rintro r s ⟨new, hprepared, hcopy⟩
    exact .inr (hb.begun hprepared hcopy (.inl hprepared.swapping.weaken))
  have hfailed : ∀ s, (s = d.withHooks g h ∨ ∃ r, PreparedFrom env a { g with hooks := h } r s) → AfterAttempt env d g h₀ s := by
    rintro s (hs | ⟨r, hprep⟩)
    · exact hstay s hs
    · exact hbegun r s hprep
  refine Ensures.bind ((Ensures.attempt_outcome (ensures_prepareSwap husable hopen' rfl)).fails hfailed) (fun prepared => ?_)
  cases prepared with
  | ok r =>
    refine .fix ?_
    rintro s ⟨new, hprepared, hcopy⟩
    have hdone : ∀ s', Progress env r { g with hooks := h } new False s' → AfterAttempt env d g h₀ s' :=
      fun s' hs' => .inr (hb.begun hprepared hcopy hs')
    refine .seq (Q := AfterAttempt env d g h₀) ?_ .done
    refine .pre (P := Swapping env r { g with hooks := h } new False) ?_ ?_
    · exact ((ensures_finish hprepared.names).post (fun _ s' hs => hdone s' (.inr hs))).fails hdone
    · rintro _ rfl
      exact hprepared.swapping.weaken
  | error e =>
    refine .fix (fun s hs => .read_at ?_)
    refine .seq (Q := AfterAttempt env d g h₀) ?_ .failed
    rcases hs with rfl | ⟨r, hprep⟩
    · refine .onlyIf_of (fun _ => ?_) (fun _ => hstay)
      refine .pre (P := At d g (Blocking h₀)) ?_ (fun s hs => ⟨h, hs, hb⟩)
      refine ((ensures_removeBlockHook hmoved).post (fun _ s hs => ?_)).fails (fun _ hs => .inl hs)
      exact .inl (At.mono (fun _ => touched_of_same) s hs)
    · -- the journal exists, so the hook stays
      have hjournal : s.journal.isNone = false := by
        obtain ⟨new, hprepared, _⟩ := hprep
        rw [hprepared.journal]
        rfl
      rw [hjournal]
      refine .pure ?_
      rintro _ rfl
      exact hbegun r _ hprep

lemma withHooks_self (hot : d.hot = some (.plain g)) : d.withHooks g g.hooks = d := by rw [Disk.withHooks, ← hot]

lemma ensures_changeGeneration (hot : d.hot = some (.plain g)) (hj : d.journal = none) :
    Ensures (· = d) (changeGeneration env a) (fun _ => AfterAttempt env d g g.hooks) (AfterAttempt env d g g.hooks) := by
  have hhere : ∀ s, s = d → AfterAttempt env d g g.hooks s := by
    rintro _ rfl
    exact .inl ⟨g.hooks, (withHooks_self hot).symm, .refl⟩
  refine .bind ((ensures_recoverRepo_none hj).fails hhere) (fun recovered => .given ?_)
  rintro ⟨rfl, husable, hrefuse⟩
  have hopen : g.guarded = false := by
    rw [refuseArchiveGeneration, require_ok, hot] at hrefuse
    simpa [isGuarded] using hrefuse
  refine .seq (.command hhere) ?_
  refine .bind (Q := fun again s => s = d ∧ again = none) (.read_at ?_) (fun again => .given ?_)
  · rw [hj]
    exact .pure (fun _ hs => ⟨hs, rfl⟩)
  · rintro rfl
    refine .read_at (.except hhere (fun old hold => ?_))
    split
    · exact .pure hhere
    · refine .bind ((ensures_blocked husable hopen).pre ?_) (fun _ => .done)
      exact fun s hs => hs.trans (withHooks_self hot).symm

def Parked (o : Option Hook) (h : Hooks) : Prop :=
  ∀ x, o = some x → (h.lookup preCommit = some x ∧ h.lookup asideHook = none) ∨ (h.lookup preCommit = none ∧ h.lookup asideHook = some x) ∨
    (h.lookup preCommit ≠ none ∧ h.lookup asideHook ≠ none)

lemma parked_start : Parked (h.lookup preCommit) h := by
  intro x hx
  cases ha : h.lookup asideHook with
  | none => exact .inl ⟨hx, rfl⟩
  | some y => exact .inr (.inr ⟨by rw [hx]; exact some_ne_none x, some_ne_none y⟩)

lemma Touched.parked (ht : Touched h₀ h) (hp : Parked o h₀) : Parked o h := by
  intro x hx
  have haside : h.lookup asideHook = some x → (h.lookup preCommit = some x ∧ h.lookup asideHook = none) ∨
      (h.lookup preCommit = none ∧ h.lookup asideHook = some x) ∨ (h.lookup preCommit ≠ none ∧ h.lookup asideHook ≠ none) := by
    intro ha
    cases hpre : h.lookup preCommit with
    | none => exact .inr (.inl ⟨rfl, ha⟩)
    | some y => exact .inr (.inr ⟨some_ne_none y, by rw [ha]; exact some_ne_none x⟩)
  rcases ht with ⟨hsame, hpre | hnone⟩ | ⟨y, hy, hnone, ha⟩
  · rw [hsame, hpre]
    exact hp x hx
  · rcases hp x hx with ⟨hpre, _⟩ | ⟨_, ha⟩ | ⟨hpre, _⟩
    · rw [hnone] at hpre
      cases hpre
    · exact haside (hsame.trans ha)
    · exact absurd hnone hpre
  · rcases hp x hx with ⟨hpre, _⟩ | ⟨hpre, _⟩ | ⟨_, hpre⟩
    · rw [hy] at hpre
      exact haside (ha.trans hpre)
    · rw [hy] at hpre
      cases hpre
    · exact absurd hnone hpre

def chosen (h : Hooks) : Option Hook := asHook ((h.lookup preCommit).or (h.lookup asideHook))

def noHooks (h : Hooks) : Bool := asHook (h.lookup preCommit) = none && asHook (h.lookup asideHook) = none

lemma chosen_eq_iff (hsingle : h.lookup preCommit = none ∨ h.lookup asideHook = none) (hp : Parked o h) :
    chosen h = asHook o ↔ (o.isSome || noHooks h) = true := by
  cases o with
  | none =>
    rw [asHook_none, isSome_none, Bool.false_or, noHooks, Bool.and_eq_true, decide_eq_true_eq, decide_eq_true_eq, chosen]
    rcases hsingle with hn | hn
    · rw [hn, none_or, asHook_none]
      simp
    · rw [hn, or_none, asHook_none]
      simp
  | some x =>
    refine ⟨fun _ => rfl, fun _ => ?_⟩
    rw [chosen]
    rcases hp x rfl with ⟨hpre, _⟩ | ⟨hpre, ha⟩ | ⟨hpre, ha⟩
    · rw [hpre, some_or]
    · rw [hpre, ha, none_or]
    · rcases hsingle with hn | hn
      · exact absurd hn hpre
      · exact absurd hn ha

structure Call where
  attempt : Attempt
  script : List Write

def changeStep (env : Env) (d : Disk) (c : Call) : Disk := (changeGeneration env c.attempt d c.script).2.1

def Unswapped (g₀ : Generation) (d : Disk) : Prop := d.journal = none ∧ ∃ g, d.hot = some (.plain g) ∧ g.uuid = g₀.uuid

def Disk.hooks (d : Disk) : Hooks :=
  match d.hot with
  | some (.plain g) => g.hooks
  | _ => ∅

lemma afterAttempt (hot : d.hot = some (.plain g)) (hj : d.journal = none) (c : Call) :
    AfterAttempt env d g g.hooks (changeStep env d c) := (ensures_changeGeneration hot hj).final rfl c.script

lemma Begun.installed {g' : Generation} (hb : Begun env g h₀ s) (fs : List Recovery)
    (hot : (run (recoverStep env) s fs).hot = some (.plain g')) (hnew : g'.uuid ≠ g.uuid) :
    g'.hooks.lookup preCommit = chosen h₀ := by
  obtain ⟨r, old, new, hn, hprogress, hold, _, hhook⟩ := hb.swap
  have hrun : Progress env r old new False (run (recoverStep env) s fs) :=
    run_invariant (I := Progress env r old new False) (recoverStep env) (fun _ e hs => (ensures_recoverRepo hn).final hs e.script)
      hprogress fs
  cases hrun.place with
  | prepared hplace _ _ =>
    obtain rfl : old = g' := by
      rw [hplace] at hot
      cases hot
      rfl
    exact absurd hold hnew
  | moved hplace _ _ =>
    rw [hplace] at hot
    cases hot
  | installed hplace _ _ =>
    obtain rfl : new = g' := by
      rw [hplace] at hot
      cases hot
      rfl
    exact hhook

variable {g₀ : Generation}

lemma parked_along (es : List Call) (hp : Parked o d.hooks) (hes : Along (changeStep env) (Unswapped g₀) d es) :
    Parked o (run (changeStep env) d es).hooks := by
  induction es generalizing d with
  | nil => exact hp
  | cons c es ih =>
    obtain ⟨⟨hj, g, hot, hid⟩, hrest⟩ := (along_cons (changeStep env) _ d c es).mp hes
    refine ih ?_ hrest
    have hhooks : d.hooks = g.hooks := by rw [Disk.hooks, hot]
    rw [hhooks] at hp
    obtain ⟨hj', g', hot', hid'⟩ := hrest [] List.nil_prefix
    rw [run_nil] at hj' hot'
    have hafter : AfterAttempt env d g g.hooks (changeStep env d c) := afterAttempt hot hj c
    rcases hafter with ⟨h, hs, ht⟩ | hb
    · rw [hs]
      exact ht.parked hp
    · -- a swap that is under way has a journal, one that is over another repository
      obtain ⟨r, old, new, _, hprogress, _, hne, _⟩ := hb.swap
      rcases hprogress with hswap | hdone
      · rw [hswap.journal] at hj'
        cases hj'
      · rw [hdone.hot] at hot'
        cases hot'
        exact absurd (hid'.trans hid.symm) hne

structure KeepsHook (g₀ g : Generation) : Prop where
  same : g.hooks.lookup preCommit = asHook (g₀.hooks.lookup preCommit)
  unblocked : g.hooks.lookup preCommit = some (blockHook blockHookBody) → g₀.hooks.lookup preCommit = some (blockHook blockHookBody)

lemma keepsHook_iff : KeepsHook g₀ g ↔ g.hooks.lookup preCommit = asHook (g₀.hooks.lookup preCommit) := by
  refine ⟨KeepsHook.same, fun hsame => ⟨hsame, fun hblock => ?_⟩⟩
  rw [hsame, asHook, filter_eq_some_iff] at hblock
  exact hblock.1

/-- The new generation has the repository's hook if and only if there was one or no attempt has left anything in its
place. -/
theorem rotation_keeps_hook_iff (env : Env) (d : Disk) (g₀ : Generation) (hot : d.hot = some (.plain g₀)) :
    (∀ es c fs g, Along (changeStep env) (Unswapped g₀) d es →
      (run (recoverStep env) (changeStep env (run (changeStep env) d es) c) fs).hot = some (.plain g) → g.uuid ≠ g₀.uuid →
      (KeepsHook g₀ g ↔ ((g₀.hooks.lookup preCommit).isSome || noHooks (run (changeStep env) d es).hooks) = true)) ∧
    ∀ torn moved t u script rest rest', installBlockHook torn d script = (.ok moved, t, rest) →
      removeBlockHook moved t rest = (.ok (), u, rest') → ∀ name, u.hooks.lookup name = g₀.hooks.lookup name := by
  refine ⟨fun es c fs g hes hdone hnew => ?_, fun torn moved t u script rest rest' hinstall hremove => ?_⟩
  · obtain ⟨hj, g₁, hot₁, hid⟩ := hes.last
    have hhooks : (run (changeStep env) d es).hooks = g₁.hooks := by rw [Disk.hooks, hot₁]
    have hparked : Parked (g₀.hooks.lookup preCommit) (run (changeStep env) d es).hooks := by
      refine parked_along es ?_ hes
      rw [Disk.hooks, hot]
      exact parked_start
    rw [hhooks] at hparked ⊢
    have hafter : AfterAttempt env _ g₁ g₁.hooks (changeStep env (run (changeStep env) d es) c) := afterAttempt hot₁ hj c
    rcases hafter with ⟨h, hs, _⟩ | hb
    · -- nothing was prepared, so the recoveries change nothing
      have hsame : run (recoverStep env) (changeStep env (run (changeStep env) d es) c) fs =
          changeStep env (run (changeStep env) d es) c := by
        refine run_invariant (I := fun s => s = changeStep env (run (changeStep env) d es) c) (recoverStep env) (fun s e hs' => ?_) rfl fs
        subst hs'
        exact ((ensures_recoverRepo_none (by rw [hs]; exact hj)).post (fun _ _ h => h.1)).final rfl e.script
      rw [hsame, hs] at hdone
      cases hdone
      exact absurd hid hnew
    · rw [keepsHook_iff, hb.installed fs hdone (by rw [hid]; exact hnew)]
      exact chosen_eq_iff hb.single hparked
  · have hstart : d = d.withHooks g₀ g₀.hooks := (withHooks_self hot).symm
    obtain ⟨hblocking, hmoved⟩ := ensures_installBlockHook.of_run hstart hinstall
    obtain ⟨h, rfl, hsame⟩ := (ensures_removeBlockHook hmoved).of_run hblocking hremove
    exact hsame

def sampleAttempt : Attempt where
  shuffle := inOrder
  kind := .rotate 0
  reason := "forced"
  tag := "tag"
  rotatedAt := []
  work := "/srv/archive/.rotate-work-1"
  locked := false
  breakLocks := false
  torn := 0
  built := ⟨sampleNew, fun _ hsome => by cases hsome⟩

def hookedDisk (hooks : Hooks) : Disk := ⟨some (.plain { sampleOld none with hooks := hooks }), ∅, ∅, none, none⟩

def cutCall (n : ℕ) : Call := ⟨sampleAttempt, List.replicate n .done⟩

def ownHook : Hooks := (∅ : Hooks).insert preCommit (.file "#!/bin/sh\nexit 0\n" 493)

def Disk.hotUUID (d : Disk) : Option Str :=
  match d.hot with
  | some (.plain g) => some g.uuid
  | _ => none

lemma exists_hot {id : Str} (h : d.hotUUID = some id) : ∃ g, d.hot = some (.plain g) ∧ g.uuid = id := by
  rw [Disk.hotUUID] at h
  split at h
  · rename_i g hg
    exact ⟨g, hg, some.inj h⟩
  · cases h

theorem sample_rotation_keeps_hook :
    (run (changeStep sampleEnv) (hookedDisk ownHook) [cutCall 2]).hooks.lookup preCommit = none ∧
    ∃ g, (changeStep sampleEnv (run (changeStep sampleEnv) (hookedDisk ownHook) [cutCall 2]) (cutCall 60)).hot = some (.plain g) ∧
      KeepsHook { sampleOld none with hooks := ownHook } g := by
  have hcut : Unswapped { sampleOld none with hooks := ownHook } (changeStep sampleEnv (hookedDisk ownHook) (cutCall 2)) :=
    ⟨isNone_iff_eq_none.mp (by decide +kernel), exists_hot (by decide +kernel)⟩
  have hstart : Unswapped { sampleOld none with hooks := ownHook } (hookedDisk ownHook) := ⟨rfl, _, rfl, rfl⟩
  have hes : Along (changeStep sampleEnv) (Unswapped { sampleOld none with hooks := ownHook }) (hookedDisk ownHook) [cutCall 2] := by
    rw [along_cons, along_nil]
    exact ⟨hstart, hcut⟩
  obtain ⟨g, hg, hid⟩ : ∃ g, (changeStep sampleEnv (run (changeStep sampleEnv) (hookedDisk ownHook) [cutCall 2]) (cutCall 60)).hot =
      some (.plain g) ∧ g.uuid = "new" := exists_hot (by decide +kernel)
  have hnew : g.uuid ≠ ({ sampleOld none with hooks := ownHook } : Generation).uuid := by
    rw [hid]
    decide +kernel
  have hcond : ((ownHook.lookup preCommit).isSome ||
      noHooks (run (changeStep sampleEnv) (hookedDisk ownHook) [cutCall 2]).hooks) = true := by decide +kernel
  have hdone : (run (recoverStep sampleEnv) (changeStep sampleEnv (run (changeStep sampleEnv) (hookedDisk ownHook) [cutCall 2])
      (cutCall 60)) []).hot = some (.plain g) := by rw [run_nil, hg]
  have hkeeps := (rotation_keeps_hook_iff sampleEnv (hookedDisk ownHook) { sampleOld none with hooks := ownHook } rfl).1 [cutCall 2]
    (cutCall 60) [] g hes hdone hnew
  exact ⟨by decide +kernel, g, hg, hkeeps.mpr hcond⟩

/-- An attempt dies while commits are blocked; the next one completes with the blocking hook in the new generation.
-/
theorem blocking_hook_taken_for_own :
    (hookedDisk ∅).hooks.lookup preCommit = none ∧
    (changeGeneration sampleEnv sampleAttempt (hookedDisk ∅) (cutCall 4).script).1 = .error .crash ∧
    (changeGeneration sampleEnv sampleAttempt (changeStep sampleEnv (hookedDisk ∅) (cutCall 4)) (cutCall 60).script).1 =
      .ok (some sampleMeta) ∧
    (run (changeStep sampleEnv) (hookedDisk ∅) [cutCall 4, cutCall 60]).hooks.lookup preCommit = some (blockHook blockHookBody) :=
  ⟨rfl, by decide +kernel, by decide +kernel, by decide +kernel⟩

end FileES.Rotation
