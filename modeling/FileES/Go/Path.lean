import FileES.Go.Strings

/-! The `path` package, which is also `path/filepath` on POSIX systems. -/

namespace FileES.Go

open List Option

abbrev Path := Str

variable (p : Path)

def split : List Str := p.splitOn '/'

def join (segs : List Str) : Path := ['/'].intercalate segs

def isAbs : Bool := hasPrefix p ['/']

def cleanStep (rooted : Bool) (out : List Str) (seg : Str) : List Str :=
  if seg = [] ∨ seg = ['.'] then out
  else if seg = ['.', '.'] then
    match out with
    | [] => if rooted then [] else [seg]
    | top :: rest => if top = ['.', '.'] then seg :: out else rest
  else seg :: out

def clean : Path :=
  let out := ((split p).foldl (cleanStep (isAbs p)) []).reverse
  if isAbs p then '/' :: join out else if out = [] then ['.'] else join out

def joinPath (dir rel : Path) : Path :=
  if dir = [] ∧ rel = [] then [] else if dir = [] then clean rel else if rel = [] then clean dir
  else clean (dir ++ '/' :: rel)

def base : Str :=
  if p = [] then ['.'] else
  match (split (p.rdropWhile (· = '/'))).getLast? with
  | none | some [] => ['/']
  | some b => b

def dir : Path :=
  match beforeLast '/' p with
  | none => ['.']
  | some d => clean (d ++ ['/'])

def rel (basepath targpath : Path) : Option Path :=
  let base := clean basepath
  let targ := clean targpath
  if targ = base then some ['.']
  else
    let base := if base = ['.'] then [] else base
    if isAbs base ≠ isAbs targ then none
    else
      let segs := fun p => (split p).filter (· ≠ [])
      let (up, down) := dropCommon (segs base) (segs targ)
      if up.head? = some ['.', '.'] then none
      else some (join (up.map (fun _ => ['.', '.']) ++ down))
where
  dropCommon : List Str → List Str → List Str × List Str
    | b :: base, t :: targ => if b = t then dropCommon base targ else (b :: base, t :: targ)
    | base, targ => (base, targ)

def lastSegment : Str := (split p).getLastD []

lemma join_split (p : Path) : join (split p) = p := intercalate_splitOn '/'

variable {segs out : List Str} {rooted : Bool} {seg : Str} {c : Char} {p rest d : Path}

lemma split_join (hs : ∀ seg ∈ segs, '/' ∉ seg) (hn : segs ≠ []) :
    split (join segs) = segs := splitOn_intercalate '/' hs hn

@[simp] lemma split_nil : split [] = [[]] := by simp [split, splitOn, splitOnP_nil]

@[simp] lemma split_ne_nil (p : Path) : split p ≠ [] := by simp [split, splitOn, splitOnP_ne_nil]

def Plain (seg : Str) : Prop := seg ≠ [] ∧ seg ≠ ['.'] ∧ seg ≠ ['.', '.']

lemma cleanStep_plain (h : Plain seg) : cleanStep rooted out seg = seg :: out := by
  simp [cleanStep, h.1, h.2.1, h.2.2]

lemma foldl_cleanStep_plain (h : ∀ seg ∈ segs, Plain seg) :
    segs.foldl (cleanStep rooted) out = segs.reverse ++ out := by
  induction segs generalizing out with
  | nil => rfl
  | cons seg segs ih =>
    rw [foldl_cons, cleanStep_plain (h seg (by simp)), ih (fun s hs => h s (by simp [hs]))]
    simp

lemma split_slash (p : Path) : split ('/' :: p) = [] :: split p := by
  simp [split, splitOn, splitOnP_cons_eq_if_modifyHead]

lemma split_cons_of_ne (hc : c ≠ '/') (p : Path) : split (c :: p) = (split p).modifyHead (c :: ·) := by
  simp [split, splitOn, splitOnP_cons_eq_if_modifyHead, hc]

lemma split_of_notMem (h : '/' ∉ p) : split p = [p] := by
  induction p with
  | nil => exact split_nil
  | cons c p ih =>
    have hc : c ≠ '/' := fun hc => h (by simp [hc])
    rw [split_cons_of_ne hc, ih (fun hp => h (by simp [hp]))]
    rfl

lemma notMem_of_mem_split {seg : Path} (h : seg ∈ split p) : '/' ∉ seg := by
  induction p generalizing seg with
  | nil =>
    simp only [split_nil, mem_singleton] at h
    simp [h]
  | cons c p ih =>
    by_cases hc : c = '/'
    · rw [hc, split_slash] at h
      rcases mem_cons.mp h with rfl | h
      · simp
      · exact ih h
    · rw [split_cons_of_ne hc] at h
      cases hs : split p with
      | nil => exact (split_ne_nil p hs).elim
      | cons first rest =>
        rw [hs] at h
        rcases mem_cons.mp h with rfl | h
        · simp [Ne.symm hc, ih (hs ▸ mem_cons_self)]
        · exact ih (hs ▸ mem_cons_of_mem _ h)

lemma split_append (d r : Path) : split (d ++ '/' :: r) = split d ++ split r := by
  induction d with
  | nil => rw [nil_append, split_slash, split_nil]; rfl
  | cons c d ih =>
    rw [cons_append]
    by_cases hc : c = '/'
    · rw [hc, split_slash, split_slash, ih, cons_append]
    · rw [split_cons_of_ne hc, split_cons_of_ne hc, ih]
      cases hs : split d with
      | nil => exact (split_ne_nil d hs).elim
      | cons first more => rfl

lemma split_of_afterFirst (h : afterFirst '/' p = some rest) :
    ∃ seg, '/' ∉ seg ∧ p = seg ++ '/' :: rest ∧ split p = seg :: split rest := by
  obtain ⟨seg, hn, rfl⟩ := afterFirst_eq_some.mp h
  exact ⟨seg, hn, rfl, by rw [split_append, split_of_notMem hn]; rfl⟩

lemma afterFirst_eq_none {p : Str} : afterFirst c p = none ↔ c ∉ p := by
  induction p with
  | nil => simp [afterFirst]
  | cons d p ih =>
    by_cases hd : d = c
    · simp [afterFirst, hd]
    · simp [afterFirst, hd, ih, Ne.symm hd]

lemma lastSegment_cons (h : split p = seg :: split rest) : lastSegment p = lastSegment rest := by
  cases hr : split rest with
  | nil => exact (split_ne_nil rest hr).elim
  | cons first more => simp [lastSegment, h, hr]

lemma lastSegment_mem (p : Path) : lastSegment p ∈ split p := by
  cases hs : split p with
  | nil => exact (split_ne_nil p hs).elim
  | cons first more =>
    rw [lastSegment, hs, getLastD_cons]
    exact getLastD_mem_cons ..

lemma eq_of_beforeLast (h : beforeLast '/' p = some d) : p = d ++ '/' :: lastSegment p ∧ '/' ∉ lastSegment p := by
  obtain ⟨seg, hn, rfl⟩ := beforeLast_eq_some.mp h
  have hlast : lastSegment (d ++ '/' :: seg) = seg := by
    rw [lastSegment, split_append, split_of_notMem hn]
    simp
  rw [hlast]
  exact ⟨rfl, hn⟩

lemma split_of_beforeLast (h : beforeLast '/' p = some d) : split p = split d ++ [lastSegment p] := by
  obtain ⟨hp, hn⟩ := eq_of_beforeLast h
  calc split p = split (d ++ '/' :: lastSegment p) := by rw [← hp]
    _ = split d ++ [lastSegment p] := by rw [split_append, split_of_notMem hn]

lemma beforeLast_eq_none (h : beforeLast '/' p = none) : split p = [p] := by
  rw [beforeLast, map_eq_none_iff, afterFirst_eq_none] at h
  exact split_of_notMem (by simpa using h)

lemma mem_split_of_mem (h : c ∈ p) : c = '/' ∨ ∃ seg ∈ split p, c ∈ seg := by
  induction p with
  | nil => cases h
  | cons d p ih =>
    by_cases hd : d = '/'
    · rcases mem_cons.mp h with rfl | h
      · exact .inl hd
      · refine (ih h).imp_right ?_
        rintro ⟨seg, hs, hc⟩
        exact ⟨seg, by simp [hd, split_slash, hs], hc⟩
    · rw [split_cons_of_ne hd]
      cases hs : split p with
      | nil => exact (split_ne_nil p hs).elim
      | cons first more =>
        simp only [hs, modifyHead_cons, mem_cons] at ih h ⊢
        rcases h with rfl | h
        · exact .inr ⟨c :: first, by simp, by simp⟩
        · refine (ih h).imp_right ?_
          rintro ⟨seg, rfl | hm, hc⟩
          · exact ⟨d :: seg, by simp, by simp [hc]⟩
          · exact ⟨seg, by simp [hm], hc⟩

lemma mem_split_cases {rel : Path} (h : seg ∈ split rel) : seg ∈ (split rel).dropLast ∨ seg = lastSegment rel := by
  have hs : split rel = (split rel).dropLast ++ [lastSegment rel] := by
    cases hsplit : split rel with
    | nil => exact (split_ne_nil rel hsplit).elim
    | cons first more =>
      have hne : first :: more ≠ [] := by simp
      rw [lastSegment, hsplit, getLastD_cons, ← getLast_eq_getLastD hne]
      exact (dropLast_concat_getLast hne).symm
  rw [hs] at h
  rcases mem_append.mp h with h | h
  · exact .inl h
  · exact .inr (mem_singleton.mp h)

lemma base_eq_lastSegment (hp : p ≠ []) (hs : hasSuffix p ['/'] = false) : base p = lastSegment p := by
  have htrim : p.rdropWhile (· = '/') = p := by
    rw [rdropWhile_eq_self_iff]
    intro hne hlast
    have hend : ['/'] <:+ p := by
      rw [← dropLast_concat_getLast hne, of_decide_eq_true hlast]
      exact suffix_append _ _
    simp [hasSuffix_iff.mpr hend] at hs
  have hlast : (split p).getLast? = some (lastSegment p) := by
    cases h : split p with
    | nil => exact (split_ne_nil p h).elim
    | cons first more => simp [lastSegment, h, getLast?_cons]
  have hne : lastSegment p ≠ [] := by
    intro hnil
    cases hb : beforeLast '/' p with
    | none => exact hp (by simpa [lastSegment, beforeLast_eq_none hb] using hnil)
    | some d =>
      have hpe := (eq_of_beforeLast hb).1
      rw [hnil] at hpe
      have hend : ['/'] <:+ p := hpe ▸ suffix_append d ['/']
      simp [hasSuffix_iff.mpr hend] at hs
  rw [base, if_neg hp, htrim, hlast]
  cases h : lastSegment p with
  | nil => exact (hne h).elim
  | cons c more => rfl

lemma isAbs_iff : isAbs p = true ↔ ∃ q, p = '/' :: q := by
  rw [isAbs, hasPrefix_iff]
  constructor
  · rintro ⟨q, rfl⟩
    exact ⟨q, rfl⟩
  · rintro ⟨q, rfl⟩
    exact ⟨q, rfl⟩

lemma isAbs_eq_false_of_plain (h : ∀ seg ∈ split p, Plain seg) : isAbs p = false := by
  by_contra hp
  obtain ⟨q, rfl⟩ := isAbs_iff.mp (by simpa using hp)
  exact (h [] (by simp [split_slash])).1 rfl

lemma clean_eq_self (h : ∀ seg ∈ split p, Plain seg) : clean p = p := by
  simp only [clean, isAbs_eq_false_of_plain h, foldl_cleanStep_plain h, append_nil,
    reverse_reverse, Bool.false_eq_true, if_false, split_ne_nil]
  exact join_split p

def CleanStack (out : List Str) : Prop :=
  ∃ k kept, out = kept ++ List.replicate k ['.', '.'] ∧ ∀ seg ∈ kept, Plain seg ∧ '/' ∉ seg

lemma cleanStack_cleanStep (h : CleanStack out) (hs : '/' ∉ seg) : CleanStack (cleanStep false out seg) := by
  obtain ⟨k, kept, rfl, hkept⟩ := h
  simp only [cleanStep]
  split
  · exact ⟨k, kept, rfl, hkept⟩
  · rename_i hne
    obtain ⟨hnil, hdot⟩ := not_or.mp hne
    split
    · rename_i hup
      cases kept with
      | nil =>
        refine ⟨k + 1, [], ?_, by simp⟩
        cases k <;> simp [replicate_succ, hup]
      | cons top kept =>
        have htop := (hkept top (by simp)).1.2.2
        exact ⟨k, kept, by simp [htop], fun s hs => hkept s (by simp [hs])⟩
    · rename_i hup
      refine ⟨k, seg :: kept, rfl, ?_⟩
      intro s hs'
      rcases mem_cons.mp hs' with rfl | hs'
      · exact ⟨⟨hnil, hdot, hup⟩, hs⟩
      · exact hkept s hs'

lemma cleanStack_foldl (h : CleanStack out) (hs : ∀ seg ∈ segs, '/' ∉ seg) :
    CleanStack (segs.foldl (cleanStep false) out) := by
  induction segs generalizing out with
  | nil => exact h
  | cons seg segs ih => exact ih (cleanStack_cleanStep h (hs seg (by simp))) (fun s hm => hs s (by simp [hm]))

lemma plain_of_clean (hc : clean p = p) (ha : isAbs p = false) (hdot : p ≠ ['.']) (hup : p ≠ ['.', '.'])
    (hups : hasPrefix p ['.', '.', '/'] = false) : ∀ seg ∈ split p, Plain seg := by
  obtain ⟨k, kept, hout, hkept⟩ : CleanStack ((split p).foldl (cleanStep false) []) :=
    cleanStack_foldl ⟨0, [], rfl, by simp⟩ (fun seg => notMem_of_mem_split)
  have hrev : (kept ++ replicate k ['.', '.']).reverse = replicate k ['.', '.'] ++ kept.reverse := by simp
  have hclean : clean p =
      if replicate k ['.', '.'] ++ kept.reverse = [] then ['.']
      else join (replicate k ['.', '.'] ++ kept.reverse) := by
    simp only [clean, ha, hout, hrev, Bool.false_eq_true, if_false]
  rw [hc] at hclean
  split at hclean
  · exact (hdot hclean).elim
  · rename_i hne
    have hsplit : split p = replicate k ['.', '.'] ++ kept.reverse := by
      rw [hclean]
      refine split_join ?_ hne
      intro seg hs
      rcases mem_append.mp hs with hs | hs
      · simp [(mem_replicate.mp hs).2]
      · exact (hkept seg (by simpa using hs)).2
    cases k with
    | zero =>
      intro seg hs
      rw [hsplit] at hs
      exact (hkept seg (by simpa using hs)).1
    | succ k =>
      have hp : p = join (split p) := (join_split p).symm
      rw [hsplit, replicate_succ, cons_append] at hp
      cases hrest : replicate k ['.', '.'] ++ kept.reverse with
      | nil =>
        rw [hrest] at hp
        exact (hup (by simpa [join] using hp)).elim
      | cons seg rest =>
        have hpre : ['.', '.', '/'] <+: p := by
          rw [hrest] at hp
          exact ⟨join (seg :: rest), by rw [hp]; simp [join, intercalate]⟩
        simp [hasPrefix_iff.mpr hpre] at hups

lemma dir_of_plain (h : ∀ seg ∈ split p, Plain seg) (hb : beforeLast '/' p = some d) : dir p = d := by
  have hd : ∀ seg ∈ split d, Plain seg := by
    intro seg hs
    exact h seg (by rw [split_of_beforeLast hb]; simp [hs])
  have hrel : isAbs (d ++ ['/']) = false := by
    by_contra ha
    obtain ⟨q, hq⟩ := isAbs_iff.mp (by simpa using ha)
    cases d with
    | nil => exact (hd [] (by simp)).1 rfl
    | cons c d =>
      have hc : c = '/' := (cons.inj hq).1
      exact (hd [] (by simp [hc, split_slash])).1 rfl
  have hsplit : split (d ++ ['/']) = split d ++ [[]] := by rw [split_append, split_nil]
  simp only [dir, hb, clean, hrel, hsplit, foldl_append, foldl_cleanStep_plain hd, append_nil,
    foldl_cons, foldl_nil, cleanStep, true_or, if_true, reverse_reverse, Bool.false_eq_true,
    if_false, split_ne_nil]
  exact join_split d

lemma slash_prefix_iff {last q : Path} (hn : '/' ∉ last) :
    q ++ ['/'] <+: d ++ '/' :: last ↔ q = d ∨ q ++ ['/'] <+: d := by
  constructor
  · rintro ⟨r, hr⟩
    rw [append_assoc] at hr
    rcases append_eq_append_iff.mp hr with ⟨c, hd, hc⟩ | ⟨c, hq, hc⟩
    · cases c with
      | nil => exact .inl (by simpa using hd.symm)
      | cons x c =>
        have hx : x = '/' := (cons.inj hc).1.symm
        exact .inr ⟨c, by rw [hd, hx]; simp⟩
    · cases c with
      | nil => exact .inl (by simpa using hq)
      | cons x c =>
        have hlast : last = c ++ '/' :: r := (cons.inj hc).2
        exact (hn (by simp [hlast])).elim
  · rintro (rfl | ⟨r, rfl⟩)
    · exact ⟨last, by simp⟩
    · exact ⟨r ++ '/' :: last, by simp⟩

end FileES.Go
