import Mathlib.Data.List.AList
import Mathlib.Tactic

/-! Lookups after an update of a finite map, as equivalences that `simp` can use under binders. -/

namespace FileES.Lib.Maps

open List Option AList

variable {K V : Type} [DecidableEq K]

abbrev Map (K V : Type) := AList (fun _ : K => V)

variable {m : Map K V} {k a : K} {v b : V}

@[simp] lemma lookup_insert_eq_some :
    (m.insert k v).lookup a = some b ↔ (a = k ∧ v = b) ∨ (a ≠ k ∧ m.lookup a = some b) := by
  by_cases h : a = k
  · subst h
    simp
  · simp [lookup_insert_ne h, h]

@[simp] lemma lookup_erase_eq_some : (m.erase k).lookup a = some b ↔ a ≠ k ∧ m.lookup a = some b := by
  by_cases h : a = k
  · subst h
    simp
  · simp [lookup_erase_ne h, h]

lemma erase_eq_self (h : m.lookup k = none) : m.erase k = m := by
  apply AList.ext
  exact kerase_of_notMem_keys (lookup_eq_none.mp h)

lemma mem_entries_iff : (⟨k, v⟩ : Sigma fun _ : K => V) ∈ m.entries ↔ m.lookup k = some v := by
  rw [← mem_lookup_iff, mem_def]

def discard (p : K → Bool) (m : Map K V) : Map K V where
  entries := m.entries.filter (fun e => !p e.1)
  nodupKeys := m.nodupKeys.sublist List.filter_sublist

@[simp] lemma lookup_discard_eq_some {p : K → Bool} :
    (discard p m).lookup k = some v ↔ p k = false ∧ m.lookup k = some v := by
  simp only [← mem_entries_iff, discard, mem_filter, Bool.not_eq_true', and_comm]

def mapVal (f : V → V) (m : Map K V) : Map K V where
  entries := m.entries.map (fun e => ⟨e.1, f e.2⟩)
  nodupKeys := by
    have hkeys : (m.entries.map (fun e => (⟨e.1, f e.2⟩ : Sigma fun _ : K => V))).keys = m.entries.keys := by
      simp [List.keys, Function.comp_def]
    rw [List.NodupKeys, hkeys]
    exact m.nodupKeys

lemma lookup_mapVal_eq_some {f : V → V} : (mapVal f m).lookup k = some v ↔ ∃ u, m.lookup k = some u ∧ f u = v := by
  simp only [← mem_entries_iff, mapVal, List.mem_map, Sigma.exists, Sigma.mk.injEq, heq_eq_eq]
  constructor
  · rintro ⟨_, u, hu, rfl, hv⟩
    exact ⟨u, hu, hv⟩
  · rintro ⟨u, hu, hv⟩
    exact ⟨k, u, hu, rfl, hv⟩

section

variable {W : Type}

omit [DecidableEq K] in
lemma keys_filterMap_sublist (f : K → V → Option W) (es : List (Sigma fun _ : K => V)) :
    (es.filterMap (fun e => (f e.1 e.2).map (Sigma.mk (β := fun _ => W) e.1))).keys.Sublist es.keys := by
  induction es with
  | nil => exact List.Sublist.refl _
  | cons e es ih =>
    cases h : f e.1 e.2 with
    | none =>
      rw [filterMap_cons_none (by simp [h])]
      exact ih.cons e.1
    | some w =>
      rw [filterMap_cons_some (b := ⟨e.1, w⟩) (by simp [h])]
      exact ih.cons_cons e.1

def filterMap (f : K → V → Option W) (m : Map K V) : Map K W where
  entries := m.entries.filterMap (fun e => (f e.1 e.2).map (Sigma.mk e.1))
  nodupKeys := List.Nodup.sublist (keys_filterMap_sublist f m.entries) m.nodupKeys

lemma lookup_filterMap_eq_some {f : K → V → Option W} {w : W} :
    (filterMap f m).lookup k = some w ↔ ∃ v, m.lookup k = some v ∧ f k v = some w := by
  simp only [← mem_entries_iff, filterMap, mem_filterMap, map_eq_some_iff]
  constructor
  · rintro ⟨e, he, w', hw, heq⟩
    cases heq
    exact ⟨e.2, he, hw⟩
  · rintro ⟨v, hv, hw⟩
    exact ⟨⟨k, v⟩, hv, w, hw, rfl⟩

end

def transfer (src dst : Map K V) (k : K) : Map K V :=
  match src.lookup k with
  | some v => dst.insert k v
  | none => dst.erase k

lemma lookup_transfer (src dst : Map K V) (k a : K) :
    (transfer src dst k).lookup a = if a = k then src.lookup k else dst.lookup a := by
  unfold transfer
  by_cases h : a = k
  · subst h
    cases hs : src.lookup a with
    | some v => simp
    | none => simp
  · rw [if_neg h]
    cases src.lookup k with
    | some v => exact lookup_insert_ne h
    | none => exact lookup_erase_ne h

lemma lookup_foldl_insert {key : V → K} {l : List V} (hn : (l.map key).Nodup) :
    (l.foldl (fun m v => m.insert (key v) v) m).lookup k = some v ↔
      v ∈ l ∧ key v = k ∨ k ∉ l.map key ∧ m.lookup k = some v := by
  induction l generalizing m with
  | nil => simp
  | cons u l ih =>
    obtain ⟨hu, hn⟩ := nodup_cons.mp hn
    rw [foldl_cons, ih hn, lookup_insert_eq_some, mem_cons, map_cons, mem_cons, not_or]
    constructor
    · rintro (⟨hv, hk⟩ | ⟨hl, ⟨rfl, rfl⟩ | ⟨hne, hm⟩⟩)
      · exact .inl ⟨.inr hv, hk⟩
      · exact .inl ⟨.inl rfl, rfl⟩
      · exact .inr ⟨⟨hne, hl⟩, hm⟩
    · rintro (⟨rfl | hv, hk⟩ | ⟨⟨hne, hl⟩, hm⟩)
      · exact .inr ⟨hk ▸ hu, .inl ⟨hk.symm, rfl⟩⟩
      · exact .inl ⟨hv, hk⟩
      · exact .inr ⟨hl, .inr ⟨hne, hm⟩⟩

end FileES.Lib.Maps
