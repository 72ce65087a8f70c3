import FileES.PathOwnership.History

/-! Where the object under a path comes from when a revision is applied. -/

namespace FileES.PathOwnership

open Go Lib.Fallible Lib.Maps List Option AList

variable {H : Hash} {repo : Str} {source : Change → Tree} {before : Tree} {rev : Revision} {c : Change} {p q : Path}
  {o : Object}

section

variable (source : Change → Tree) (c : Change)

def Reaches (p q : Path) : Prop :=
  c.adds = true ∧ c.copyFrom ≠ [] ∧ (∃ old, (source c).lookup p = some old) ∧ under p c.copyFrom = true ∧
    destination c p = q

def Arrives (q : Path) : Prop :=
  (c.adds = true ∧ c.copyFrom = [] ∧ c.path = q) ∨ ∃ p, Reaches source c p q

def Touches (q : Path) : Prop :=
  (c.removes = true ∧ under q c.path = true) ∨ Arrives source c q

inductive Gives (H : Hash) (repo : Str) (source : Change → Tree) (before : Tree) (rev : Revision) (c : Change) (q : Path) :
    Object → Prop
  | added (hadds : c.adds = true) (hplain : c.copyFrom = []) (hpath : c.path = q) :
      Gives H repo source before rev c q (newObject H repo rev.number rev.author q c.kind)
  | copied (p : Path) (old : Object) (hreach : Reaches source c p q) (hold : (source c).lookup p = some old)
      (honce : continuation before rev p old = true → uses source rev.changes p old.id = 1) :
      Gives H repo source before rev c q (copied H repo before rev c p old)

def Last (rev : Revision) (c : Change) (q : Path) : Prop :=
  ∃ earlier later, sorted rev.changes = earlier ++ c :: later ∧ Touches source c q ∧ ∀ d ∈ later, ¬ Touches source d q

def Untouched (rev : Revision) (q : Path) : Prop := ∀ c ∈ rev.changes, ¬ Touches source c q

structure Revises (H : Hash) (repo : Str) (source : Change → Tree) (before : Tree) (rev : Revision) (after : Tree) :
    Prop where
  origin : ∀ q o, after.lookup q = some o →
    (∃ c, Last source rev c q ∧ Gives H repo source before rev c q o) ∨ (Untouched source rev q ∧ before.lookup q = some o)
  fills : ∀ c q, Last source rev c q → Arrives source c q → ∃ o, after.lookup q = some o
  keeps : ∀ q o, Untouched source rev q → before.lookup q = some o → after.lookup q = some o

end

lemma mem_sorted {changes : List Change} : c ∈ sorted changes ↔ c ∈ changes := mem_insertionSort _

lemma Gives.arrives (h : Gives H repo source before rev c q o) : Arrives source c q := by
  cases h with
  | added hadds hplain hpath => exact .inl ⟨hadds, hplain, hpath⟩
  | copied p old hreach hold honce => exact .inr ⟨p, hreach⟩

lemma Last.unique {c' : Change} (h : Last source rev c q) (h' : Last source rev c' q) : c = c' := by
  obtain ⟨earlier, later, heq, ht, hlater⟩ := h
  obtain ⟨earlier', later', heq', ht', hlater'⟩ := h'
  rw [heq] at heq'
  rcases append_eq_append_iff.mp heq' with ⟨mid, hmid, hrest⟩ | ⟨mid, hmid, hrest⟩
  · cases mid with
    | nil => exact (cons.inj hrest).1
    | cons d mid =>
      have hmem : c' ∈ later := by
        rw [(cons.inj hrest).2]
        simp
      exact absurd ht' (hlater c' hmem)
  · cases mid with
    | nil => exact (cons.inj hrest).1.symm
    | cons d mid =>
      have hmem : c ∈ later' := by
        rw [(cons.inj hrest).2]
        simp
      exact absurd ht (hlater' c hmem)

variable {history : Map ℤ Tree} {changes : List Change} {tree tree' : Tree}

variable {n : Path × Object} {ns : List (Path × Object)} {cs : List Change}

lemma copyNode_ok (h : copyNode H repo before history rev changes c tree n = .ok tree') :
    (under n.1 c.copyFrom = true ∧ tree' = tree.insert (destination c n.1) (copied H repo before rev c n.1 n.2) ∧
      (continuation before rev n.1 n.2 = true → uses (sourceOf history) changes n.1 n.2.id = 1)) ∨
    (¬ under n.1 c.copyFrom = true ∧ tree' = tree) := by
  unfold copyNode at h
  split at h
  · rename_i hunder
    obtain ⟨_, honce, h⟩ := bind_ok.mp h
    cases h
    refine .inl ⟨hunder, rfl, ?_⟩
    intro hcont
    simpa [hcont] using require_ok.mp honce
  · rename_i hunder
    cases h
    exact .inr ⟨hunder, rfl⟩

lemma foldlM_copyNode (h : ns.foldlM (copyNode H repo before history rev changes c) tree = .ok tree') (q : Path) :
    (∃ n ∈ ns, under n.1 c.copyFrom = true ∧ destination c n.1 = q ∧
      tree'.lookup q = some (copied H repo before rev c n.1 n.2) ∧
      (continuation before rev n.1 n.2 = true → uses (sourceOf history) changes n.1 n.2.id = 1)) ∨
    ((∀ n ∈ ns, under n.1 c.copyFrom = true → destination c n.1 ≠ q) ∧ tree'.lookup q = tree.lookup q) := by
  induction ns generalizing tree with
  | nil =>
    cases h
    exact .inr ⟨by simp, rfl⟩
  | cons n ns ih =>
    rw [foldlM_cons] at h
    obtain ⟨tree₁, hn, h⟩ := bind_ok.mp h
    rcases ih h with ⟨n', hn', hgives⟩ | ⟨hnone, hlookup⟩
    · exact .inl ⟨n', mem_cons_of_mem _ hn', hgives⟩
    · rw [hlookup]
      rcases copyNode_ok hn with ⟨hunder, rfl, honce⟩ | ⟨hunder, rfl⟩
      · by_cases hd : destination c n.1 = q
        · exact .inl ⟨n, by simp, hunder, hd, hd ▸ lookup_insert _, honce⟩
        · exact .inr ⟨forall_mem_cons.mpr ⟨fun _ => hd, hnone⟩, lookup_insert_ne (Ne.symm hd)⟩
      · exact .inr ⟨forall_mem_cons.mpr ⟨fun hu => absurd hu hunder, hnone⟩, rfl⟩

lemma mem_nodes : n ∈ nodes tree ↔ tree.lookup n.1 = some n.2 := by
  rw [← mem_entries_iff]
  constructor
  · intro h
    obtain ⟨e, he, rfl⟩ := mem_map.mp h
    exact he
  · intro h
    exact mem_map.mpr ⟨_, h, rfl⟩

lemma lookup_remove : (remove tree c).lookup q =
    if c.removes = true ∧ under q c.path = true then none else tree.lookup q := by
  refine ext (fun o => ?_)
  unfold remove
  split <;> rename_i hr <;> simp [hr]

lemma lookup_foldl_remove : (cs.foldl remove tree).lookup q = some o ↔
    (∀ d ∈ cs, ¬ (d.removes = true ∧ under q d.path = true)) ∧ tree.lookup q = some o := by
  induction cs generalizing tree with
  | nil => simp
  | cons d cs ih =>
    rw [foldl_cons, ih, lookup_remove, forall_mem_cons, ite_none_left_eq_some]
    tauto

lemma source_of_applyChange (hadds : c.adds = true) (hcopy : c.copyFrom ≠ [])
    (h : applyChange H repo before history rev changes tree c = .ok tree') :
    ∃ t, history.lookup c.copyRevision = some t ∧ sourceOf history c = t := by
  unfold applyChange addNode at h
  rw [if_pos hadds, if_neg hcopy] at h
  split at h
  · cases h
  · rename_i t ht
    exact ⟨t, ht, by simp [sourceOf, ht]⟩

section

variable (huses : ∀ p id, uses (sourceOf history) changes p id = uses source rev.changes p id)
include huses

lemma applyChange_at (hs : c.copyFrom ≠ [] → sourceOf history c = source c)
    (h : applyChange H repo before history rev changes tree c = .ok tree') (q : Path) :
    (∃ o, tree'.lookup q = some o ∧ Gives H repo source before rev c q o) ∨
      (¬ Arrives source c q ∧ tree'.lookup q = (remove tree c).lookup q) := by
  by_cases hadds : c.adds = true
  · by_cases hcopy : c.copyFrom = []
    · rw [applyChange, if_pos hadds, addNode, if_pos hcopy] at h
      obtain ⟨_, _, h⟩ := bind_ok.mp h
      cases h
      by_cases hp : c.path = q
      · subst hp
        exact .inl ⟨_, lookup_insert _, .added hadds hcopy rfl⟩
      · refine .inr ⟨?_, lookup_insert_ne (Ne.symm hp)⟩
        rintro (⟨_, _, hp'⟩ | ⟨p, hreach⟩)
        · exact hp hp'
        · exact hreach.2.1 hcopy
    · obtain ⟨t, ht, hsource⟩ := source_of_applyChange hadds hcopy h
      obtain rfl : t = source c := hsource.symm.trans (hs hcopy)
      rw [applyChange, if_pos hadds, addNode, if_neg hcopy] at h
      simp only [ht] at h
      rcases foldlM_copyNode (ite_ok.mp h).2 q with ⟨n, hn, hunder, hdest, hq, honce⟩ | ⟨hnone, hq⟩
      · have hlookup := mem_nodes.mp hn
        refine .inl ⟨_, hq, .copied n.1 n.2 ⟨hadds, hcopy, ⟨n.2, hlookup⟩, hunder, hdest⟩ hlookup ?_⟩
        exact fun hcont => huses n.1 n.2.id ▸ honce hcont
      · refine .inr ⟨?_, hq⟩
        rintro (⟨_, hplain, _⟩ | ⟨p, _, _, ⟨old, hold⟩, hunder, hdest⟩)
        · exact hcopy hplain
        · exact hnone (p, old) (mem_nodes.mpr hold) hunder hdest
  · rw [applyChange, if_neg hadds] at h
    cases h
    refine .inr ⟨?_, rfl⟩
    rintro (⟨ha, _⟩ | ⟨p, ha, _⟩)
    · exact hadds ha
    · exact hadds ha

/-- The last change that touches a path decides what is there. -/
lemma foldlM_applyChange (hs : ∀ d ∈ cs, d.copyFrom ≠ [] → sourceOf history d = source d)
    (h : cs.foldlM (applyChange H repo before history rev changes) tree = .ok tree') (q : Path) :
    (∃ earlier d later, cs = earlier ++ d :: later ∧ Touches source d q ∧ (∀ d' ∈ later, ¬ Touches source d' q) ∧
      ((∃ o, tree'.lookup q = some o ∧ Gives H repo source before rev d q o) ∨
        (¬ Arrives source d q ∧ tree'.lookup q = none))) ∨
    ((∀ d ∈ cs, ¬ Touches source d q) ∧ tree'.lookup q = tree.lookup q) := by
  induction cs generalizing tree with
  | nil =>
    cases h
    exact .inr ⟨by simp, rfl⟩
  | cons d cs ih =>
    rw [foldlM_cons] at h
    obtain ⟨tree₁, hd, h⟩ := bind_ok.mp h
    rw [forall_mem_cons] at hs
    rcases ih hs.2 h with ⟨earlier, d', later, rfl, hlast⟩ | ⟨hnone, hlookup⟩
    · exact .inl ⟨d :: earlier, d', later, rfl, hlast⟩
    · rw [hlookup]
      rcases applyChange_at huses hs.1 hd q with ⟨o, ho, hgives⟩ | ⟨hnot, hq⟩
      · exact .inl ⟨[], d, cs, rfl, .inr hgives.arrives, hnone, .inl ⟨o, ho, hgives⟩⟩
      · rw [hq, lookup_remove]
        split
        · rename_i hr
          exact .inl ⟨[], d, cs, rfl, .inl hr, hnone, .inr ⟨hnot, rfl⟩⟩
        · rename_i hr
          exact .inr ⟨forall_mem_cons.mpr ⟨fun ht => ht.elim hr hnot, hnone⟩, rfl⟩

lemma revises_of_foldlM {after : Tree} (hs : ∀ d ∈ rev.changes, d.copyFrom ≠ [] → sourceOf history d = source d)
    (h : (sorted rev.changes).foldlM (applyChange H repo before history rev changes) (rev.changes.foldl remove before) =
      .ok after) : Revises H repo source before rev after := by
  have hat := foldlM_applyChange huses (fun d hd => hs d (mem_sorted.mp hd)) h
  refine ⟨fun q o hq => ?_, fun c q hc ha => ?_, fun q o hno hq => ?_⟩
  · rcases hat q with ⟨earlier, d, later, heq, ht, hlater, ⟨o', ho', hgives⟩ | ⟨_, hnone⟩⟩ | ⟨hno, hsame⟩
    · obtain rfl := mem_unique hq ho'
      exact .inl ⟨d, ⟨earlier, later, heq, ht, hlater⟩, hgives⟩
    · rw [hnone] at hq
      cases hq
    · exact .inr ⟨fun d hd => hno d (mem_sorted.mpr hd), (lookup_foldl_remove.mp (hsame ▸ hq)).2⟩
  · rcases hat q with ⟨earlier, d, later, heq, ht, hlater, ⟨o, ho, _⟩ | ⟨hnot, _⟩⟩ | ⟨hno, _⟩
    · exact ⟨o, ho⟩
    · obtain rfl : c = d := hc.unique ⟨earlier, later, heq, ht, hlater⟩
      exact absurd ha hnot
    · obtain ⟨earlier, later, heq, ht, _⟩ := hc
      exact absurd ht (hno c (by simp [heq]))
  · rcases hat q with ⟨earlier, d, later, heq, ht, _⟩ | ⟨_, hsame⟩
    · exact absurd ht (hno d (mem_sorted.mp (by simp [heq])))
    · rw [hsame]
      exact lookup_foldl_remove.mpr ⟨fun d hd hr => hno d hd (.inl hr), hq⟩

end

lemma source_of_foldlM (h : cs.foldlM (applyChange H repo before history rev changes) tree = .ok tree')
    {d : Change} (hd : d ∈ cs) (hadds : d.adds = true) (hcopy : d.copyFrom ≠ []) :
    ∃ t, history.lookup d.copyRevision = some t ∧ sourceOf history d = t := by
  induction cs generalizing tree with
  | nil => cases hd
  | cons d' cs ih =>
    rw [foldlM_cons] at h
    obtain ⟨tree₁, hd', h⟩ := bind_ok.mp h
    rcases mem_cons.mp hd with rfl | hd
    · exact source_of_applyChange hadds hcopy hd'
    · exact ih h hd

end FileES.PathOwnership
