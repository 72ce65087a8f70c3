import FileES.Go.UUID

/-! The pages in which a client reads the reservations of all its repositories. -/

namespace FileES.Reservation

open Go List

def batchSize : ℕ := 4

def batchMaxRepositories : ℕ := 4096

def batchID (id : Str) : Bool := canonicalUUID id

inductive PageError
  | exceedsLimit
  | inventory
  | cursor
  deriving DecidableEq, Repr

def locate (after : Str) : Option Str → ℕ → ℕ × Bool → List Str → Except PageError (ℕ × Bool)
  | _, _, place, [] => .ok place
  | previous, i, place, id :: ids =>
    if !batchID id || previous.any (id ≤ ·) then .error .inventory
    else locate after (some id) (i + 1) (if id = after then (i + 1, true) else place) ids

def pageFrom (ids : List Str) (start : ℕ) : List Str × Str :=
  let stop := min (start + batchSize) ids.length
  ((ids.take stop).drop start, if stop < ids.length then ids.getD (stop - 1) [] else [])

def batchPage (ids : List Str) (after : Str) : Except PageError (List Str × Str) :=
  if ids.length > batchMaxRepositories then .error .exceedsLimit
  else match locate after none 0 (0, after = []) ids with
    | .error e => .error e
    | .ok (start, found) =>
      if !found || (after ≠ [] && start = ids.length) then .error .cursor else .ok (pageFrom ids start)

def follow (ids : List Str) : ℕ → Str → Option (List (List Str))
  | 0, _ => none
  | fuel + 1, after =>
    match batchPage ids after with
    | .error _ => none
    | .ok (page, next) => if next = [] then some [page] else (follow ids fuel next).map (page :: ·)

structure Inventory (ids : List Str) : Prop where
  canonical : ∀ id ∈ ids, batchID id = true
  sorted : ids.Pairwise (· < ·)

variable {after id : Str} {previous : Option Str} {i : ℕ} {place : ℕ × Bool} {ids pre post : List Str}

lemma Inventory.ne_nil (h : Inventory ids) (hid : id ∈ ids) : id ≠ [] := by
  rintro rfl
  exact absurd (h.canonical [] hid) (by decide)

lemma locate_ok {r : ℕ × Bool} (h : locate after previous i place ids = .ok r) :
    Inventory ids ∧ (∀ p ∈ previous, ∀ id ∈ ids, p < id) ∧ (r = place ∨ after ∈ ids ∧ r.2 = true) := by
  induction ids generalizing previous i place with
  | nil =>
    cases h
    exact ⟨⟨by simp, List.Pairwise.nil⟩, by simp, .inl rfl⟩
  | cons id ids ih =>
    rw [locate] at h
    split at h
    · cases h
    · rename_i hid
      simp only [Bool.or_eq_true, Bool.not_eq_true', Option.any_eq_true, decide_eq_true_eq, not_or, not_exists, not_and,
        not_le, Bool.not_eq_false] at hid
      obtain ⟨hinv, hprev, hr⟩ := ih h
      have hlt : ∀ x ∈ ids, id < x := hprev id rfl
      refine ⟨⟨forall_mem_cons.mpr ⟨hid.1, hinv.canonical⟩, pairwise_cons.mpr ⟨hlt, hinv.sorted⟩⟩, ?_, ?_⟩
      · intro p hp
        exact List.forall_mem_cons.mpr ⟨hid.2 p hp, fun x hx => (hid.2 p hp).trans (hlt x hx)⟩
      · rcases hr with hr | ⟨hmem, hfound⟩
        · split at hr
          · rename_i he
            exact .inr ⟨by simp [he], by rw [hr]⟩
          · exact .inl hr
        · exact .inr ⟨mem_cons_of_mem _ hmem, hfound⟩

lemma locate_eq (h : Inventory ids) (hprev : ∀ p ∈ previous, ∀ id ∈ ids, p < id) :
    locate after previous i place ids = .ok (if after ∈ ids then (i + ids.idxOf after + 1, true) else place) := by
  induction ids generalizing previous i place with
  | nil => rfl
  | cons id ids ih =>
    obtain ⟨hlt, hsorted⟩ := pairwise_cons.mp h.sorted
    have hany : previous.any (id ≤ ·) = false := by
      cases previous with
      | none => rfl
      | some p => simpa using hprev p rfl id (by simp)
    rw [locate, h.canonical id (by simp), hany, if_neg (by simp)]
    rw [ih ⟨fun x hx => h.canonical x (by simp [hx]), hsorted⟩ (by rintro p ⟨⟩; exact hlt)]
    by_cases he : id = after
    · have hnot : after ∉ ids := fun hm => lt_irrefl after (he ▸ hlt after hm)
      simp [he, hnot]
    · have hidx : (id :: ids).idxOf after = ids.idxOf after + 1 := idxOf_cons_ne ids he
      simp only [he, if_false, mem_cons, Ne.symm he, false_or, hidx, Nat.add_right_comm, Nat.add_assoc]

lemma locate_cursor (h : Inventory (pre ++ post)) :
    locate (pre.getLastD []) none 0 (0, pre.getLastD [] = []) (pre ++ post) = .ok (pre.length, true) := by
  rw [locate_eq h (by simp)]
  rcases eq_nil_or_concat' pre with rfl | ⟨init, last, rfl⟩
  · have hnot : [] ∉ post := fun hm => h.ne_nil (by simpa using hm) rfl
    simp [hnot]
  · have hnot : last ∉ init := by
      intro hm
      have hs := (pairwise_append.mp (pairwise_append.mp h.sorted).1).2.2
      exact lt_irrefl last (hs last hm last (by simp))
    simp [idxOf_append, idxOf_of_notMem hnot]

def nextCursor (post : List Str) : Str :=
  if post.length ≤ batchSize then [] else (post.take batchSize).getLastD []

lemma pageFrom_split : pageFrom (pre ++ post) pre.length = (post.take batchSize, nextCursor post) := by
  have hpage : ((pre ++ post).take (min (pre.length + batchSize) (pre ++ post).length)).drop pre.length =
      post.take batchSize := by
    rw [drop_take, drop_left, length_append]
    apply take_eq_take_iff.mpr
    omega
  rw [pageFrom, hpage, nextCursor, length_append]
  by_cases hle : post.length ≤ batchSize
  · rw [if_neg (by omega), if_pos hle]
  · have hmin : min (pre.length + batchSize) (pre.length + post.length) - 1 = pre.length + 3 := by
      have hsize : batchSize = 4 := rfl
      omega
    have hlt : 3 < post.length := Nat.lt_of_succ_lt (Nat.lt_of_not_le hle)
    rw [if_pos (by omega), if_neg hle, hmin, getLastD_eq_getLast?, getLast?_take]
    simp [getD_eq_getElem?_getD, batchSize, hlt]

lemma batchPage_split (h : Inventory (pre ++ post)) (hlen : (pre ++ post).length ≤ batchMaxRepositories)
    (hpost : pre = [] ∨ post ≠ []) :
    batchPage (pre ++ post) (pre.getLastD []) = .ok (post.take batchSize, nextCursor post) := by
  have hcursor : (pre.getLastD [] ≠ [] && pre.length = (pre ++ post).length) = false := by
    rcases hpost with rfl | hpost
    · simp
    · simp [hpost]
  rw [batchPage, if_neg (by omega), locate_cursor h]
  dsimp only
  rw [hcursor, pageFrom_split]
  rfl

lemma batchPage_ok {r : List Str × Str} (h : batchPage ids after = .ok r) :
    Inventory ids ∧ ids.length ≤ batchMaxRepositories ∧
      ∃ pre post, ids = pre ++ post ∧ after = pre.getLastD [] ∧ (pre = [] ∨ post ≠ []) := by
  rw [batchPage] at h
  split at h
  · cases h
  · rename_i hlen
    split at h
    · cases h
    · rename_i start found hloc
      obtain ⟨hinv, _, hplace⟩ := locate_ok hloc
      refine ⟨hinv, by omega, ?_⟩
      split at h
      · cases h
      · rename_i hcursor
        simp only [Bool.or_eq_true, Bool.not_eq_true', Bool.and_eq_true, decide_eq_true_eq, not_or, Bool.not_eq_false,
          not_and] at hcursor
        by_cases hnil : after = []
        · exact ⟨[], ids, rfl, hnil, .inl rfl⟩
        · have hmem : after ∈ ids := by
            rcases hplace with hplace | ⟨hmem, _⟩
            · cases hplace
              simp [hnil] at hcursor
            · exact hmem
          obtain ⟨init, post, rfl⟩ := append_of_mem hmem
          refine ⟨init ++ [after], post, by simp, by simp, .inr ?_⟩
          rintro rfl
          have hcur := @locate_cursor (init ++ [after]) [] (by simpa using hinv)
          rw [append_nil, getLastD_concat, hloc] at hcur
          cases hcur
          exact hcursor.2 hnil rfl

lemma nextCursor_of_long (h : Inventory (pre ++ post)) (hle : ¬ post.length ≤ batchSize) :
    nextCursor post = (pre ++ post.take batchSize).getLastD [] ∧ nextCursor post ≠ [] ∧ post.drop batchSize ≠ [] ∧
      post.take batchSize ≠ [] := by
  have hlt : 4 < post.length := Nat.lt_of_not_le hle
  have hne : post.take batchSize ≠ [] := by simpa [batchSize] using ne_nil_of_length_pos (by omega)
  have hlast : (post.take batchSize).getLastD [] = (post.take batchSize).getLast hne := by
    rw [getLastD_eq_getLast?, getLast?_eq_some_getLast hne]
    rfl
  rw [nextCursor, if_neg hle]
  refine ⟨?_, ?_, by simpa [batchSize] using hlt, hne⟩
  · rw [getLastD_eq_getLast?, getLastD_eq_getLast?, getLast?_append_of_ne_nil _ hne]
  · rw [hlast]
    exact h.ne_nil (mem_append_right pre (mem_of_mem_take (getLast_mem hne)))

lemma follow_split (h : Inventory (pre ++ post)) (hlen : (pre ++ post).length ≤ batchMaxRepositories)
    (hpost : pre = [] ∨ post ≠ []) {fuel : ℕ} (hfuel : post.length < fuel) :
    ∃ pages, follow (pre ++ post) fuel (pre.getLastD []) = some pages ∧ pages.flatten = post ∧
      ∀ page ∈ pages, page.length ≤ batchSize ∧ (post ≠ [] → page ≠ []) := by
  induction fuel generalizing pre post with
  | zero => omega
  | succ fuel ih =>
    rw [follow, batchPage_split h hlen hpost]
    dsimp only
    by_cases hle : post.length ≤ batchSize
    · refine ⟨[post], ?_, by simp, ?_⟩
      · simp [nextCursor, hle, take_of_length_le hle]
      · simp [hle]
    · obtain ⟨hcursor, hnonempty, hrest, hpage⟩ := nextCursor_of_long h hle
      have hids : pre ++ post = (pre ++ post.take batchSize) ++ post.drop batchSize := by simp
      have hshort : (post.drop batchSize).length < fuel := by
        rw [length_drop]
        exact (Nat.sub_lt (by omega) (by decide)).trans_le (by omega)
      rw [if_neg hnonempty, hcursor, hids]
      obtain ⟨pages, hpages, hflat, hall⟩ := ih (hids ▸ h) (hids ▸ hlen) (.inr hrest) hshort
      refine ⟨post.take batchSize :: pages, by rw [hpages]; rfl, by simp [hflat], ?_⟩
      intro page hmem
      rcases mem_cons.mp hmem with rfl | hmem
      · exact ⟨length_take_le _ _, fun _ => hpage⟩
      · exact ⟨(hall page hmem).1, fun _ => (hall page hmem).2 hrest⟩

/-- Following the cursors from the empty one ends and yields the inventory, page by page; nothing else is accepted. -/
theorem batch_paging_lossless (ids : List Str) :
    (Inventory ids → ids.length ≤ batchMaxRepositories →
      (∃ pages, follow ids (ids.length + 1) [] = some pages ∧ pages.flatten = ids ∧
        ∀ page ∈ pages, page.length ≤ batchSize ∧ (ids ≠ [] → page ≠ [])) ∧
      ∀ after page next, batchPage ids after = .ok (page, next) → ∃ r, batchPage ids next = .ok r) ∧
    ∀ after r, batchPage ids after = .ok r → ids.Pairwise (· < ·) ∧ (after = [] ∨ after ∈ ids) := by
  refine ⟨fun h hlen => ⟨@follow_split [] ids h hlen (.inl rfl) _ (Nat.lt_succ_self _), ?_⟩, ?_⟩
  · intro after page next hok
    obtain ⟨_, _, pre, post, rfl, rfl, hpost⟩ := batchPage_ok hok
    rw [batchPage_split h hlen hpost] at hok
    cases hok
    by_cases hle : post.length ≤ batchSize
    · rw [nextCursor, if_pos hle]
      exact ⟨_, @batchPage_split [] _ h hlen (.inl rfl)⟩
    · obtain ⟨hcursor, _, hrest, _⟩ := nextCursor_of_long h hle
      have hids : pre ++ post = (pre ++ post.take batchSize) ++ post.drop batchSize := by simp
      rw [hcursor, hids]
      exact ⟨_, batchPage_split (hids ▸ h) (hids ▸ hlen) (.inr hrest)⟩
  · intro after r hok
    obtain ⟨hinv, _, pre, post, rfl, rfl, _⟩ := batchPage_ok hok
    refine ⟨hinv.sorted, ?_⟩
    rcases eq_nil_or_concat' pre with rfl | ⟨init, last, rfl⟩
    · exact .inl rfl
    · exact .inr (by simp)

def sampleInventory : List Str :=
  ['1', '2', '3', '4', '5', '6'].map (fun d => d :: "0000000-0000-4000-8000-000000000000")

theorem batch_paging_of_six : ∃ pages, follow sampleInventory 7 [] = some pages ∧ pages.flatten = sampleInventory := by
  have h : Inventory sampleInventory := ⟨by decide +kernel, by decide +kernel⟩
  obtain ⟨pages, hpages, hflat, _⟩ := ((batch_paging_lossless sampleInventory).1 h (by decide)).1
  exact ⟨pages, hpages, hflat⟩

end FileES.Reservation
