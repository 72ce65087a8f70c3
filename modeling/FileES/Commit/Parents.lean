import FileES.Commit.Targets

/-! Which directories travel with an added or renamed file. -/

namespace FileES.Commit

open Go List

def publishableAddsAndParents (P : Pass) (paths : List Path) : List Path × List Path :=
  let adds := publishable P paths
  (adds, (adds.flatMap parentPaths).eraseDups)

def publishableRenamesAndParents (P : Pass) (items : List StageItem) : List StageItem × List Path :=
  let kept := items.filter (fun it => onDisk P.late P.wc it.rel)
  (kept, (kept.flatMap (fun it => parentPaths it.rel)).eraseDups)

def Ancestor (q p : Path) : Prop := q ++ ['/'] <+: p

structure ParentsExact (p : Path) : Prop where
  mem : ∀ q, q ∈ parentPaths p ↔ Ancestor q p
  nodup : (parentPaths p).Nodup

/-- A path below a directory begins with no space, and its last segment is not made of spaces. -/
def Unpadded (p : Path) : Prop :=
  '/' ∈ p → p.dropWhile isSpace = p ∧ ∃ c ∈ lastSegment p, isSpace c = false

variable {p q d rel last : Path} {fuel : ℕ}

lemma mem_parentsFrom (hf : rel.length ≤ fuel) : q ∈ parentsFrom fuel rel ↔ Ancestor q rel := by
  induction fuel generalizing rel with
  | zero =>
    have hr : rel = [] := length_eq_zero_iff.mp (Nat.le_zero.mp hf)
    simp [parentsFrom, hr, Ancestor]
  | succ fuel ih =>
    rw [parentsFrom]
    cases hb : beforeLast '/' rel with
    | none =>
      have hnot : '/' ∉ rel := by simpa [beforeLast, afterFirst_eq_none] using hb
      simp only [not_mem_nil, false_iff]
      exact fun hp => hnot (hp.subset (by simp))
    | some parent =>
      obtain ⟨hrel, hn⟩ := eq_of_beforeLast hb
      have hlen := beforeLast_length hb
      rw [mem_cons, ih (by omega), Ancestor, Ancestor, hrel, slash_prefix_iff hn]

lemma nodup_parentsFrom (hf : rel.length ≤ fuel) : (parentsFrom fuel rel).Nodup := by
  induction fuel generalizing rel with
  | zero => exact nodup_nil
  | succ fuel ih =>
    rw [parentsFrom]
    cases hb : beforeLast '/' rel with
    | none => exact nodup_nil
    | some parent =>
      have hlen := beforeLast_length hb
      refine nodup_cons.mpr ⟨fun hm => ?_, ih (by omega)⟩
      have hlong := ((mem_parentsFrom (by omega)).mp hm).length_le
      simp at hlong

lemma mem_parentPaths : q ∈ parentPaths p ↔ Ancestor q (trim '/' (trimSpace p)) := mem_parentsFrom le_rfl

lemma parentsExact_iff : ParentsExact p ↔ ∀ q, Ancestor q (trim '/' (trimSpace p)) ↔ Ancestor q p := by
  constructor
  · intro h q
    rw [← mem_parentPaths, h.mem]
  · intro h
    exact ⟨fun q => mem_parentPaths.trans (h q), nodup_parentsFrom le_rfl⟩

lemma rdropWhile_append_of_mem {f : Char → Bool} (h : ∃ c ∈ last, f c = false) :
    ∃ kept, (d ++ last).rdropWhile f = d ++ kept ∧ kept <+: last ∧ kept ≠ [] := by
  induction last using reverseRecOn with
  | nil => simp at h
  | append_singleton init c ih =>
    by_cases hc : f c = true
    · have hinit : ∃ c ∈ init, f c = false := by
        obtain ⟨b, hb, hf⟩ := h
        rcases mem_append.mp hb with hb | hb
        · exact ⟨b, hb, hf⟩
        · rw [mem_singleton.mp hb, hc] at hf
          cases hf
      obtain ⟨kept, hkept, hpre, hne⟩ := ih hinit
      refine ⟨kept, ?_, hpre.trans (prefix_append _ _), hne⟩
      rw [← append_assoc, rdropWhile_concat_pos _ _ _ hc, hkept]
    · refine ⟨init ++ [c], ?_, prefix_refl _, by simp⟩
      rw [← append_assoc, rdropWhile_concat_neg _ _ _ hc]

lemma dropWhile_slash_of_plain (h : ∀ seg ∈ split p, Plain seg) : ∀ x, (p ++ x).dropWhile (· = '/') = p ++ x := by
  intro x
  cases p with
  | nil => exact absurd rfl (h [] (by simp)).1
  | cons c p =>
    have hc : c ≠ '/' := by
      rintro rfl
      exact (h [] (by simp [split_slash])).1 rfl
    simp [hc]

section

variable (hs : ∀ seg ∈ split p, Plain seg) (hp : p = d ++ '/' :: last) (hn : '/' ∉ last)
include hs hp hn

lemma trimmed_of_unpadded (hfirst : p.dropWhile isSpace = p) (hlast : ∃ c ∈ last, isSpace c = false) :
    ∃ kept, trim '/' (trimSpace p) = d ++ '/' :: kept ∧ '/' ∉ kept := by
  have hd : ∀ seg ∈ split d, Plain seg := by
    intro seg hseg
    exact hs seg (by rw [hp, split_append]; simp [hseg])
  obtain ⟨kept, hkept, hpre, hne⟩ := rdropWhile_append_of_mem (d := d ++ ['/']) hlast
  have hnk : '/' ∉ kept := fun hm => hn (hpre.subset hm)
  have hspace : trimSpace p = d ++ '/' :: kept := by
    rw [trimSpace, hfirst, hp]
    simpa using hkept
  refine ⟨kept, ?_, hnk⟩
  rw [trim, hspace, dropWhile_slash_of_plain hd, rdropWhile_eq_self_iff]
  intro hnil hslash
  rw [getLast_append_of_ne_nil _ (by simp), getLast_cons hne, decide_eq_true_eq] at hslash
  exact hnk (hslash ▸ getLast_mem hne)

omit hs in
lemma unpadded_of_trimmed (h : Ancestor d (trim '/' (trimSpace p))) :
    p.dropWhile isSpace = p ∧ ∃ c ∈ last, isSpace c = false := by
  obtain ⟨x, hx⟩ := h
  obtain ⟨front, hfront⟩ : p.dropWhile isSpace <:+ p := dropWhile_suffix _
  obtain ⟨back, hback⟩ : trimSpace p <+: p.dropWhile isSpace := List.rdropWhile_prefix _ _
  obtain ⟨slashes, hslashes⟩ : (trimSpace p).dropWhile (· = '/') <:+ trimSpace p := dropWhile_suffix _
  obtain ⟨tail, htail⟩ : trim '/' (trimSpace p) <+: (trimSpace p).dropWhile (· = '/') := List.rdropWhile_prefix _ _
  have hwhole : p = (front ++ slashes ++ d) ++ ['/'] ++ (x ++ tail ++ back) := by
    rw [← hfront, ← hback, ← hslashes, ← htail, ← hx]
    simp
  have hsame : front = [] ∧ slashes = [] := by
    have hpre : (front ++ slashes ++ d) ++ ['/'] <+: d ++ '/' :: last := hp ▸ ⟨_, hwhole.symm⟩
    have hlen : (front ++ slashes ++ d).length ≤ d.length := by
      rcases (slash_prefix_iff hn).mp hpre with he | hlong
      · rw [he]
      · exact ((prefix_append _ _).trans hlong).length_le
    simp only [length_append] at hlen
    exact ⟨length_eq_zero_iff.mp (by omega), length_eq_zero_iff.mp (by omega)⟩
  obtain ⟨rfl, rfl⟩ := hsame
  have hlast : last = x ++ tail ++ back := by simpa using hp.symm.trans hwhole
  have htrim : trimSpace p = d ++ '/' :: (x ++ tail) := by
    rw [← hslashes, ← htail, ← hx]
    simp
  refine ⟨hfront, ?_⟩
  have hne : x ++ tail ≠ [] := by
    intro hnil
    have hx' : trim '/' (trimSpace p) = d ++ ['/'] := by rw [← hx, (append_eq_nil_iff.mp hnil).1, append_nil]
    have hend := rdropWhile_last_not (fun c => c = '/') ((trimSpace p).dropWhile (· = '/'))
    rw [trim] at hx'
    simp [hx'] at hend
  refine ⟨(x ++ tail).getLast hne, ?_, ?_⟩
  · rw [hlast]
    exact mem_append_left _ (getLast_mem hne)
  · have hend := rdropWhile_last_not isSpace (p.dropWhile isSpace)
    rw [trimSpace] at htrim
    simpa [htrim, getLast_cons hne] using hend

end

lemma parentsExact_iff_unpadded (h : safeIntentPath p = true) : ParentsExact p ↔ Unpadded p := by
  have hs := plain_of_safe h
  rw [parentsExact_iff, Unpadded]
  cases hb : beforeLast '/' p with
  | none =>
    have hnot : '/' ∉ p := by simpa [beforeLast, afterFirst_eq_none] using hb
    have hsub : trim '/' (trimSpace p) ⊆ p :=
      fun c hc => (dropWhile_suffix _).subset ((List.rdropWhile_prefix _ _).subset
        ((dropWhile_suffix _).subset ((List.rdropWhile_prefix _ _).subset hc)))
    have hnone : ∀ q r : Path, '/' ∉ r → ¬ Ancestor q r := fun q r hr hq => hr (hq.subset (by simp))
    exact iff_of_true (fun q => iff_of_false (hnone q _ (fun hm => hnot (hsub hm))) (hnone q p hnot))
      (fun hm => absurd hm hnot)
  | some d =>
    obtain ⟨hp, hn⟩ := eq_of_beforeLast hb
    constructor
    · intro hall _
      exact unpadded_of_trimmed hp hn ((hall d).mpr ⟨lastSegment p, by rw [append_assoc]; exact hp.symm⟩)
    · intro hun q
      obtain ⟨hfirst, hlast⟩ := hun (by rw [hp]; simp)
      obtain ⟨kept, hkept, hnk⟩ := trimmed_of_unpadded hs hp hn hfirst hlast
      rw [Ancestor, Ancestor, hkept, slash_prefix_iff hnk]
      conv_rhs => rw [hp]
      rw [slash_prefix_iff hn]

def Closed (files parents : List Path) : Prop := ∀ q, q ∈ parents ↔ ∃ p ∈ files, Ancestor q p

lemma closed_parents {files : List Path} (h : ∀ p ∈ files, ParentsExact p) :
    Closed files (files.flatMap parentPaths).eraseDups := by
  intro q
  rw [mem_eraseDups, mem_flatMap]
  exact exists_congr (fun p => and_congr_right (fun hp => (h p hp).mem q))

/-- The parents of a path are its proper ancestors exactly when it is not padded with spaces; unpadded files travel with
all their directories and nothing else. -/
theorem parents_exact_iff (p : Path) :
    (safeIntentPath p = true → (ParentsExact p ↔ Unpadded p)) ∧
    (∀ P paths, (∀ p ∈ publishable P paths, safeIntentPath p = true ∧ Unpadded p) →
      (publishableAddsAndParents P paths).1 = publishable P paths ∧
        Closed (publishable P paths) (publishableAddsAndParents P paths).2) ∧
    ∀ P items, (∀ it ∈ (publishableRenamesAndParents P items).1, safeIntentPath it.rel = true ∧ Unpadded it.rel) →
      Closed ((publishableRenamesAndParents P items).1.map StageItem.rel) (publishableRenamesAndParents P items).2 := by
  refine ⟨fun hp => parentsExact_iff_unpadded hp, fun P paths h => ⟨rfl, closed_parents ?_⟩, fun P items h => ?_⟩
  · intro p hp
    exact (parentsExact_iff_unpadded (h p hp).1).mpr (h p hp).2
  · have hc : ∀ p ∈ (publishableRenamesAndParents P items).1.map StageItem.rel, ParentsExact p := by
      intro p hp
      obtain ⟨it, hit, rfl⟩ := mem_map.mp hp
      exact (parentsExact_iff_unpadded (h it hit).1).mpr (h it hit).2
    have hclosed := closed_parents hc
    rw [flatMap_map] at hclosed
    exact hclosed

theorem parents_exact_of_nested : ParentsExact "a/b c/d" :=
  ((parents_exact_iff "a/b c/d").1 (by decide)).mpr (fun _ => ⟨by decide, 'd', by decide, by decide⟩)

theorem padded_path_loses_parent : safeIntentPath " a/b" = true ∧ parentPaths " a/b" = ["a".toList] ∧
    safeIntentPath "a/ " = true ∧ parentPaths "a/ " = [] := by
  decide

end FileES.Commit
