import FileES.Lib.Maps

/-! Operations on a map of records: what each of them may write over what it found. -/

namespace FileES.Lib.Ledger

open Maps

variable {K V : Type}

def Holds (ok : K → V → Prop) [DecidableEq K] (m : Map K V) : Prop := ∀ k v, m.lookup k = some v → ok k v

structure Changes (ok : K → V → Prop) (move : Option V → V → Prop) [DecidableEq K] (m m' : Map K V) : Prop where
  inv : Holds ok m'
  move : ∀ k, m'.lookup k = m.lookup k ∨ ∃ v, m'.lookup k = some v ∧ move (m.lookup k) v

variable [DecidableEq K] {ok : K → V → Prop} {move : Option V → V → Prop} {m₀ m : Map K V} {k : K} {v : V}

lemma Changes.refl (h : Holds ok m) : Changes ok move m m := ⟨h, fun _ => .inl rfl⟩

lemma Changes.insert (h : Changes ok move m₀ m) (hok : ok k v) (hm : move (m₀.lookup k) v) :
    Changes ok move m₀ (m.insert k v) := by
  refine ⟨fun k' v' hv' => ?_, fun k' => ?_⟩
  · rcases lookup_insert_eq_some.mp hv' with ⟨rfl, rfl⟩ | ⟨-, hv'⟩
    · exact hok
    · exact h.inv k' v' hv'
  · by_cases hk : k' = k
    · subst hk
      exact .inr ⟨v, AList.lookup_insert _, hm⟩
    · rw [AList.lookup_insert_ne hk]
      exact h.move k'

lemma Changes.untouched (h : Changes ok move m₀ m) (hv : m.lookup k = some v) (hnot : ∀ o, ¬ move o v) :
    m₀.lookup k = some v := by
  rcases h.move k with heq | ⟨v', hv', hm⟩
  · rw [← heq, hv]
  · obtain rfl := Option.mem_unique hv hv'
    exact absurd hm (hnot _)

end FileES.Lib.Ledger
