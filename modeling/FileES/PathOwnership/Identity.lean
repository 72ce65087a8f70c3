import FileES.PathOwnership.Provenance

/-! What one revision does to the identities in a tree. -/

namespace FileES.PathOwnership

open Go List

lemma nul_notMem_formatInt (n : ℕ) : '\x00' ∉ formatInt n := by
  intro h
  have hdigit := Nat.isDigit_of_mem_toDigits (by decide) (by decide) h
  revert hdigit
  decide

variable {n m : ℕ} {p : Path}

lemma formatInt_injective (h : formatInt n = formatInt m) : n = m := by
  have hn : Nat.toDigits 10 n = Nat.toDigits 10 m := h
  rw [← Nat.ofDigitChars_toDigits (b := 10) (n := n) (by decide) (by decide), hn,
    Nat.ofDigitChars_toDigits (by decide) (by decide)]

lemma append_cons_inj {c : Char} {a a' s s' : Str} (h : c ∉ a) (h' : c ∉ a')
    (he : a ++ c :: s = a' ++ c :: s') : a = a' ∧ s = s' := by
  induction a generalizing a' with
  | nil =>
    cases a' with
    | nil => exact ⟨rfl, (cons.inj he).2⟩
    | cons d a' => exact absurd (cons.inj he).1 (fun hd => h' (by simp [hd]))
  | cons d a ih =>
    cases a' with
    | nil => exact absurd (cons.inj he).1.symm (fun hd => h (by simp [hd]))
    | cons d' a' =>
      obtain ⟨hd, htail⟩ := cons.inj he
      obtain ⟨ha, hs⟩ := ih (fun hm => h (by simp [hm])) (fun hm => h' (by simp [hm])) htail
      exact ⟨by rw [hd, ha], hs⟩

lemma objectID_injective {H : Hash} (hinj : Function.Injective H.sum) {repo : Str} {q : Path}
    (h : objectID H repo n p = objectID H repo m q) : n = m ∧ p = q := by
  have happ := hinj h
  rw [append_assoc, append_assoc, append_cancel_left_eq, cons_append, cons_append] at happ
  obtain ⟨hnum, hpath⟩ := append_cons_inj (nul_notMem_formatInt n) (nul_notMem_formatInt m) (cons.inj happ).2
  exact ⟨formatInt_injective hnum, hpath⟩

def Rooted (p : Path) : Prop := ∃ segs, (∀ seg ∈ segs, Segment seg) ∧ p = render segs

lemma rooted_of_canonical {allowRoot : Bool} (h : canonical p allowRoot = true) : Rooted p := by
  simp only [canonical, Bool.and_eq_true, decide_eq_true_eq] at h
  exact exists_render h.1.1.1 h.1.1.2

lemma render_eq_root {segs : List Str} (h : ∀ seg ∈ segs, Segment seg) : render segs = ['/'] ↔ segs = [] := by
  constructor
  · intro he
    exact render_injective h (by simp) (he.trans rfl)
  · rintro rfl
    rfl

lemma segments_of_under {p parent : List Str} (hp : ∀ seg ∈ p, Segment seg) (hparent : ∀ seg ∈ parent, Segment seg)
    (h : under (render p) (render parent) = true) : ∃ rest, p = parent ++ rest := by
  simp only [under, Bool.or_eq_true, decide_eq_true_eq] at h
  rcases h with (heq | hroot) | hprefix
  · exact ⟨[], by rw [render_injective hp hparent heq, append_nil]⟩
  · exact ⟨p, by rw [(render_eq_root hparent).mp hroot, nil_append]⟩
  · obtain ⟨r, hr⟩ := hasPrefix_iff.mp hprefix
    by_cases hn : parent = []
    · exact ⟨p, by rw [hn, nil_append]⟩
    have hjoin : join p = join parent ++ '/' :: r := by
      have := (cons.inj hr).2
      simpa using this.symm
    have hpn : p ≠ [] := by
      rintro rfl
      simp [join] at hjoin
    refine ⟨split r, ?_⟩
    rw [← split_join (fun seg hs => (hp seg hs).2) hpn, hjoin, split_append,
      split_join (fun seg hs => (hparent seg hs).2) hn]

lemma destination_render {c : Change} {at_ source rest : List Str} (hat : ∀ seg ∈ at_, Segment seg) (hne : at_ ≠ [])
    (hsource : ∀ seg ∈ source, Segment seg) (hrest : ∀ seg ∈ rest, Segment seg) (hpath : c.path = render at_)
    (hcopy : c.copyFrom = render source) : destination c (render (source ++ rest)) = render (at_ ++ rest) := by
  unfold destination
  rw [hcopy, hpath]
  split
  · rename_i hroot
    rw [(render_eq_root hsource).mp hroot, nil_append, joinPath, if_neg (by simp [render]), if_neg (by simp [render]), if_neg (by simp [render])]
    exact clean_render_append hat hrest
  · rename_i hs
    replace hs : source ≠ [] := fun he => hs ((render_eq_root hsource).mpr he)
    by_cases hr : rest = []
    · simp [hr, trimPrefix, hasPrefix]
    · have hsplit : render (source ++ rest) = render source ++ '/' :: join rest := by
        rw [render, render, join_append hs hr, cons_append]
      have hpre : hasPrefix (render (source ++ rest)) (render source) = true := hasPrefix_iff.mpr ⟨_, hsplit.symm⟩
      rw [trimPrefix, if_pos hpre, hsplit, drop_left, render, render, join_append hne hr, cons_append]

/-- The change is one of a log that can exist: its paths are clean and it leaves the root in place. -/
structure Change.Proper (c : Change) : Prop where
  path : Rooted c.path
  root : c.adds = true → c.path ≠ ['/']
  copyFrom : c.copyFrom ≠ [] → Rooted c.copyFrom

variable {c : Change} {p' : Path}

section

variable (hc : c.Proper) (hadds : c.adds = true) (hcopy : c.copyFrom ≠ []) (hp : Rooted p)
include hc hadds hcopy hp

lemma Change.Proper.destination (hunder : under p c.copyFrom = true) :
    ∃ segs source rest, (∀ seg ∈ segs, Segment seg) ∧ (∀ seg ∈ source ++ rest, Segment seg) ∧ c.path = render segs ∧
      c.copyFrom = render source ∧ p = render (source ++ rest) ∧
      PathOwnership.destination c p = render (segs ++ rest) := by
  obtain ⟨segs, hsegs, hpath⟩ := hc.path
  obtain ⟨source, hsource, hfrom⟩ := hc.copyFrom hcopy
  obtain ⟨psegs, hpsegs, rfl⟩ := hp
  rw [hfrom] at hunder
  obtain ⟨rest, rfl⟩ := segments_of_under hpsegs hsource hunder
  have hne : segs ≠ [] := by
    rintro rfl
    exact hc.root hadds hpath
  have hrest : ∀ seg ∈ rest, Segment seg := fun seg hs => hpsegs seg (by simp [hs])
  exact ⟨segs, source, rest, hsegs, hpsegs, hpath, hfrom, rfl, destination_render hsegs hne hsource hrest hpath hfrom⟩

lemma Change.Proper.rooted_destination (hunder : under p c.copyFrom = true) : Rooted (PathOwnership.destination c p) := by
  obtain ⟨segs, source, rest, hsegs, hall, _, _, _, hdest⟩ := hc.destination hadds hcopy hp hunder
  refine ⟨segs ++ rest, ?_, hdest⟩
  intro seg hs
  rcases mem_append.mp hs with hs | hs
  · exact hsegs seg hs
  · exact hall seg (by simp [hs])

lemma Change.Proper.destination_injective (hp' : Rooted p') (hunder : under p c.copyFrom = true)
    (hunder' : under p' c.copyFrom = true) (h : PathOwnership.destination c p = PathOwnership.destination c p') : p = p' := by
  obtain ⟨segs, source, rest, hsegs, hall, hpath, hfrom, rfl, hdest⟩ := hc.destination hadds hcopy hp hunder
  obtain ⟨segs', source', rest', hsegs', hall', hpath', hfrom', rfl, hdest'⟩ := hc.destination hadds hcopy hp' hunder'
  rw [hpath] at hpath'
  cases render_injective hsegs hsegs' hpath'
  rw [hfrom] at hfrom'
  cases render_injective (fun s hs => hall s (by simp [hs])) (fun s hs => hall' s (by simp [hs])) hfrom'
  rw [hdest, hdest'] at h
  have hmem : ∀ {r : List Str}, (∀ seg ∈ source ++ r, Segment seg) → ∀ seg ∈ segs ++ r, Segment seg := by
    intro r hr seg hs
    rcases mem_append.mp hs with hs | hs
    · exact hsegs seg hs
    · exact hr seg (by simp [hs])
  rw [append_cancel_left (render_injective (hmem hall) (hmem hall') h)]

end

/-- `q` is the new place of the object at `p`: copied from its current location, which is deleted, and nowhere else.
-/
def Moves (source : Change → Tree) (before : Tree) (rev : Revision) (c : Change) (p q : Path) : Prop :=
  Reaches source c p q ∧ deleted rev p = true ∧ ∃ old, (source c).lookup p = some old ∧
    (before.lookup p).map Object.id = some old.id ∧ uses source rev.changes p old.id = 1

def Kept (tree : Tree) (o : Object) : Prop := ∃ p o', tree.lookup p = some o' ∧ o'.id = o.id

structure Sound (H : Hash) (repo : Str) (By : ℕ → Str → Prop) (k : ℕ) (t : Tree) : Prop where
  born : ∀ q o, t.lookup q = some o → ∃ n p, n ≤ k ∧ o.createdRevision = (n : ℤ) ∧ o.id = objectID H repo n p ∧
    (n = 0 → o.kind = .dir) ∧ (0 < n → By n o.firstCommitter)
  distinct : ∀ q q' o o', t.lookup q = some o → t.lookup q' = some o' → o.id = o'.id → q = q'
  rooted : ∀ q o, t.lookup q = some o → Rooted q

section

variable {H : Hash} {repo : Str} {By : ℕ → Str → Prop} {source : Change → Tree} {before after : Tree} {rev : Revision}
  {q : Path} {o : Object} {k : ℕ}

lemma Sound.id_ne_nil (h : Sound H repo By k before) (hq : before.lookup q = some o) : o.id ≠ [] := by
  obtain ⟨n, p, _, _, hid, _⟩ := h.born q o hq
  rw [hid]
  exact H.ne_nil _

lemma Sound.fresh (hinj : Function.Injective H.sum) (h : Sound H repo By k before) (hn : k < n)
    (ho : o.id = objectID H repo n p) : ¬ Kept before o := by
  rintro ⟨q, o', hq, hid⟩
  obtain ⟨m, p', hm, _, hid', _⟩ := h.born q o' hq
  rw [hid', ho] at hid
  have := (objectID_injective hinj hid).1
  omega

lemma idAt_eq (hid : o.id ≠ []) (h : idAt before p = o.id) : (before.lookup p).map Object.id = some o.id := by
  unfold idAt at h
  cases hl : (before.lookup p).map Object.id with
  | none =>
    rw [hl] at h
    exact absurd h.symm hid
  | some id =>
    rw [hl] at h
    exact congrArg some h

lemma Gives.fate (hids : c.copyFrom ≠ [] → ∀ p old, (source c).lookup p = some old → old.id ≠ [])
    (h : Gives H repo source before rev c q o) : (∃ p, Moves source before rev c p q ∧ (source c).lookup p = some o) ∨
      o = newObject H repo rev.number rev.author q o.kind := by
  cases h with
  | added hadds hplain hpath => exact .inr rfl
  | copied p old hreach hold honce =>
    unfold PathOwnership.copied
    split
    · rename_i hcont
      have hc := hcont
      simp only [continuation, Bool.and_eq_true, decide_eq_true_eq] at hc
      exact .inl ⟨p, ⟨hreach, hc.1, old, hold, idAt_eq (hids hreach.2.1 p old hold) hc.2, honce hcont⟩, hold⟩
    · right
      rw [hreach.2.2.2.2]
      rfl

lemma Moves.current (h : Moves source before rev c p q) (ho : (source c).lookup p = some o) :
    ∃ o₀, before.lookup p = some o₀ ∧ o₀.id = o.id := by
  obtain ⟨_, _, old, hold, hid, _⟩ := h
  rw [ho, Option.some.injEq] at hold
  obtain ⟨o₀, ho₀, hid⟩ := Option.map_eq_some_iff.mp hid
  exact ⟨o₀, ho₀, hold ▸ hid⟩

lemma Moves.touched (hmoves : Moves source before rev c p q) : ¬ Untouched source rev p := by
  intro hno
  obtain ⟨d, hd, hremoves⟩ := any_eq_true.mp hmoves.2.1
  exact hno d hd (.inl (by simpa using hremoves))

lemma Last.mem (h : Last source rev c q) : c ∈ rev.changes := by
  obtain ⟨earlier, later, heq, _⟩ := h
  exact mem_sorted.mp (heq ▸ by simp)

lemma Last.touched (h : Last source rev c q) : ¬ Untouched source rev q := by
  intro hno
  have hmem := h.mem
  obtain ⟨_, _, _, ht, _⟩ := h
  exact hno c hmem ht

lemma eq_of_countP_eq_one {α : Type*} {P : α → Bool} {l : List α} {a b : α} (h : l.countP P = 1) (ha : a ∈ l)
    (hb : b ∈ l) (hPa : P a = true) (hPb : P b = true) : a = b := by
  rw [countP_eq_length_filter] at h
  obtain ⟨d, hd⟩ := length_eq_one_iff.mp h
  have ha' := mem_filter.mpr ⟨ha, hPa⟩
  have hb' := mem_filter.mpr ⟨hb, hPb⟩
  rw [hd, mem_singleton] at ha' hb'
  rw [ha', hb']

variable {q' : Path} {o' : Object}

lemma Moves.unique {c' : Change} (hc : c ∈ rev.changes) (hc' : c' ∈ rev.changes)
    (h : Moves source before rev c p q) (h' : Moves source before rev c' p q')
    (ho : (source c).lookup p = some o) (ho' : (source c').lookup p = some o') (hid : o.id = o'.id) : q = q' := by
  obtain ⟨hreach, _, old, hold, _, honce⟩ := h
  obtain ⟨hreach', _, old', hold', _, _⟩ := h'
  rw [ho, Option.some.injEq] at hold
  rw [ho', Option.some.injEq] at hold'
  subst hold hold'
  have hone : c = c' := by
    refine eq_of_countP_eq_one honce hc hc' ?_ ?_
    · simp [hreach.2.1, hreach.2.2.2.1, idAt, ho]
    · simp [hreach'.2.1, hreach'.2.2.2.1, idAt, ho', hid]
  subst hone
  rw [← hreach.2.2.2.2, ← hreach'.2.2.2.2]

structure Replayed (H : Hash) (repo : Str) (By : ℕ → Str → Prop) (k : ℕ) (source : Change → Tree)
    (before : Tree) (rev : Revision) (after : Tree) : Prop where
  number : rev.number = ((k + 1 : ℕ) : ℤ)
  author : By (k + 1) rev.author
  sound : Sound H repo By k before
  sources : ∀ c ∈ rev.changes, c.copyFrom ≠ [] → ∃ j ≤ k, Sound H repo By j (source c)
  proper : ∀ c ∈ rev.changes, c.Proper
  revises : Revises H repo source before rev after

variable (h : Replayed H repo By k source before rev after)
include h

lemma Replayed.fate (hq : after.lookup q = some o) : (Untouched source rev q ∧ before.lookup q = some o) ∨
    (∃ c p, Last source rev c q ∧ Moves source before rev c p q ∧ (source c).lookup p = some o) ∨
      o = newObject H repo rev.number rev.author q o.kind := by
  rcases h.revises.origin q o hq with ⟨c, hlast, hgives⟩ | huntouched
  · right
    have hids : c.copyFrom ≠ [] → ∀ p old, (source c).lookup p = some old → old.id ≠ [] := by
      intro hcopy p old hold
      obtain ⟨j, _, hsource⟩ := h.sources c hlast.mem hcopy
      exact hsource.id_ne_nil hold
    rcases hgives.fate hids with ⟨p, hmoves, ho⟩ | hnew
    · exact .inl ⟨c, p, hlast, hmoves, ho⟩
    · exact .inr hnew
  · exact .inl huntouched

lemma Replayed.new_not_kept (hinj : Function.Injective H.sum)
    (ho : o = newObject H repo rev.number rev.author q o.kind) : ¬ Kept before o := by
  refine h.sound.fresh hinj (Nat.lt_succ_self k) (p := q) ?_
  rw [ho, h.number]
  rfl

lemma Replayed.reaches_injective (hc : c ∈ rev.changes) (hp : Reaches source c p q)
    (hp' : Reaches source c p' q) : p = p' := by
  obtain ⟨hadds, hcopy, ⟨old, hold⟩, hunder, hdest⟩ := hp
  obtain ⟨_, _, ⟨old', hold'⟩, hunder', hdest'⟩ := hp'
  obtain ⟨j, _, hsource⟩ := h.sources c hc hcopy
  exact (h.proper c hc).destination_injective hadds hcopy (hsource.rooted p old hold) (hsource.rooted p' old' hold')
    hunder hunder' (hdest.trans hdest'.symm)

lemma Replayed.moved (hlast : Last source rev c q) (hmoves : Moves source before rev c p q)
    (hq : after.lookup q = some o) : (source c).lookup p = some o := by
  rcases h.revises.origin q o hq with ⟨c', hlast', hgives⟩ | ⟨hno, _⟩
  · cases hlast.unique hlast'
    cases hgives with
    | added hadds hplain hpath => exact absurd hplain hmoves.1.2.1
    | copied p' old' hreach hold' honce =>
      cases h.reaches_injective hlast.mem hmoves.1 hreach
      obtain ⟨_, hdeleted, old, hold, hid, _⟩ := hmoves
      rw [hold', Option.some.injEq] at hold
      subst hold
      have hcont : continuation before rev p old' = true := by simp [continuation, hdeleted, idAt, hid]
      rw [copied, if_pos hcont]
      exact hold'
  · exact absurd hno hlast.touched

lemma Replayed.kept_iff (hinj : Function.Injective H.sum) (hq : after.lookup q = some o) :
    Kept before o ↔ Untouched source rev q ∨ ∃ c p, Last source rev c q ∧ Moves source before rev c p q := by
  constructor
  · intro hkept
    rcases h.fate hq with ⟨hno, _⟩ | ⟨c, p, hlast, hmoves, _⟩ | hnew
    · exact .inl hno
    · exact .inr ⟨c, p, hlast, hmoves⟩
    · exact absurd hkept (h.new_not_kept hinj hnew)
  · rintro (hno | ⟨c, p, hlast, hmoves⟩)
    · rcases h.revises.origin q o hq with ⟨c, hlast, _⟩ | ⟨_, hbefore⟩
      · exact absurd hno hlast.touched
      · exact ⟨q, o, hbefore, rfl⟩
    · exact ⟨p, hmoves.current (h.moved hlast hmoves hq)⟩

lemma Replayed.arrives_rooted (hc : c ∈ rev.changes) (ha : Arrives source c q) : Rooted q := by
  rcases ha with ⟨_, _, rfl⟩ | ⟨p, hadds, hcopy, ⟨old, hold⟩, hunder, rfl⟩
  · exact (h.proper c hc).path
  · obtain ⟨j, _, hsource⟩ := h.sources c hc hcopy
    exact (h.proper c hc).rooted_destination hadds hcopy (hsource.rooted p old hold) hunder

lemma Replayed.born (hq : after.lookup q = some o) : ∃ n p, n ≤ k + 1 ∧ o.createdRevision = (n : ℤ) ∧
    o.id = objectID H repo n p ∧ (n = 0 → o.kind = .dir) ∧ (0 < n → By n o.firstCommitter) := by
  rcases h.fate hq with ⟨_, hbefore⟩ | ⟨c, p, hlast, hmoves, hsource⟩ | hnew
  · obtain ⟨n, p, hn, hborn⟩ := h.sound.born q o hbefore
    exact ⟨n, p, by omega, hborn⟩
  · obtain ⟨j, hj, hsound⟩ := h.sources c hlast.mem hmoves.1.2.1
    obtain ⟨n, p, hn, hborn⟩ := hsound.born p o hsource
    exact ⟨n, p, by omega, hborn⟩
  · refine ⟨k + 1, q, le_rfl, ?_, ?_, by omega, fun _ => ?_⟩
    · rw [hnew, ← h.number]
      rfl
    · rw [hnew, ← h.number]
      rfl
    · rw [hnew]
      exact h.author

lemma Replayed.place (hq : after.lookup q = some o) : (∃ p o₀, before.lookup p = some o₀ ∧ o₀.id = o.id ∧
      ((q = p ∧ Untouched source rev q) ∨
        ∃ c ∈ rev.changes, Moves source before rev c p q ∧ (source c).lookup p = some o)) ∨
    o = newObject H repo rev.number rev.author q o.kind := by
  rcases h.fate hq with ⟨hno, hbefore⟩ | ⟨c, p, hlast, hmoves, hsource⟩ | hnew
  · exact .inl ⟨q, o, hbefore, rfl, .inl ⟨rfl, hno⟩⟩
  · obtain ⟨o₀, ho₀, hid⟩ := hmoves.current hsource
    exact .inl ⟨p, o₀, ho₀, hid, .inr ⟨c, hlast.mem, hmoves, hsource⟩⟩
  · exact .inr hnew

lemma Replayed.distinct (hinj : Function.Injective H.sum) (hq : after.lookup q = some o)
    (hq' : after.lookup q' = some o') (hid : o.id = o'.id) : q = q' := by
  rcases h.place hq with ⟨p, o₀, hp, hpid, hplace⟩ | hnew
  · rcases h.place hq' with ⟨p', o₀', hp', hpid', hplace'⟩ | hnew'
    · cases h.sound.distinct p p' o₀ o₀' hp hp' (by rw [hpid, hpid', hid])
      rcases hplace with ⟨rfl, hno⟩ | ⟨c, hc, hmoves, hsource⟩
      · rcases hplace' with ⟨rfl, _⟩ | ⟨c', _, hmoves', _⟩
        · rfl
        · exact absurd hno hmoves'.touched
      · rcases hplace' with ⟨rfl, hno'⟩ | ⟨c', hc', hmoves', hsource'⟩
        · exact absurd hno' hmoves.touched
        · exact hmoves.unique hc hc' hmoves' hsource hsource' hid
    · exact absurd ⟨p, o₀, hp, hpid.trans hid⟩ (h.new_not_kept hinj hnew')
  · rcases h.place hq' with ⟨p', o₀', hp', hpid', _⟩ | hnew'
    · exact absurd ⟨p', o₀', hp', hpid'.trans hid.symm⟩ (h.new_not_kept hinj hnew)
    · rw [hnew, hnew', h.number] at hid
      exact (objectID_injective hinj hid).2

lemma Replayed.sound_after (hinj : Function.Injective H.sum) : Sound H repo By (k + 1) after := by
  refine ⟨fun q o hq => h.born hq, fun q q' o o' hq hq' hid => h.distinct hinj hq hq' hid, ?_⟩
  intro q o hq
  rcases h.revises.origin q o hq with ⟨c, hlast, hgives⟩ | ⟨_, hbefore⟩
  · exact h.arrives_rooted hlast.mem hgives.arrives
  · exact h.sound.rooted q o hbefore

end

structure Continues (H : Hash) (repo : Str) (source : Change → Tree) (before : Tree) (rev : Revision) (after : Tree) :
    Prop where
  untouched : ∀ q, Untouched source rev q → after.lookup q = before.lookup q
  moved : ∀ c p q, Last source rev c q → Moves source before rev c p q →
    ∃ o, after.lookup q = some o ∧ (before.lookup p).map Object.id = some o.id
  copied : ∀ c q, Last source rev c q → Arrives source c q → ∃ o, after.lookup q = some o
  kept : ∀ q o, after.lookup q = some o →
    (Kept before o ↔ Untouched source rev q ∨ ∃ c p, Last source rev c q ∧ Moves source before rev c p q)
  fresh : ∀ q o, after.lookup q = some o → ¬ Kept before o → o = newObject H repo rev.number rev.author q o.kind

lemma Replayed.continues {H : Hash} {repo : Str} {By : ℕ → Str → Prop} {source : Change → Tree}
    {before after : Tree} {rev : Revision} {k : ℕ} (hinj : Function.Injective H.sum)
    (h : Replayed H repo By k source before rev after) : Continues H repo source before rev after := by
  refine ⟨?_, ?_, h.revises.fills, fun q o hq => h.kept_iff hinj hq, ?_⟩
  · intro q hno
    cases hb : before.lookup q with
    | some o => exact h.revises.keeps q o hno hb
    | none =>
      cases ha : after.lookup q with
      | none => rfl
      | some o =>
        rcases h.revises.origin q o ha with ⟨c, hlast, _⟩ | ⟨_, hbefore⟩
        · exact absurd hno hlast.touched
        · exact absurd (hbefore.symm.trans hb) (Option.some_ne_none o)
  · intro c p q hlast hmoves
    obtain ⟨o, ho⟩ := h.revises.fills c q hlast (.inr ⟨p, hmoves.1⟩)
    obtain ⟨o₀, ho₀, hid⟩ := hmoves.current (h.moved hlast hmoves ho)
    exact ⟨o, ho, by rw [ho₀, Option.map_some, hid]⟩
  · intro q o hq hnot
    rcases h.fate hq with ⟨_, hbefore⟩ | ⟨c, p, _, hmoves, hsource⟩ | hnew
    · exact absurd ⟨q, o, hbefore, rfl⟩ hnot
    · exact absurd ⟨p, hmoves.current hsource⟩ hnot
    · exact hnew

end FileES.PathOwnership
