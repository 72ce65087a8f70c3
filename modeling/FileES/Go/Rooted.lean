import FileES.Go.Path

/-! Clean absolute paths as lists of segments. -/

namespace FileES.Go

open List

def Segment (seg : Str) : Prop := Plain seg ∧ '/' ∉ seg

def render (segs : List Str) : Path := '/' :: join segs

variable {segs more : List Str}

lemma join_append (hs : segs ≠ []) (hm : more ≠ []) : join (segs ++ more) = join segs ++ '/' :: join more := by
  induction segs with
  | nil => exact (hs rfl).elim
  | cons seg segs ih =>
    cases segs with
    | nil =>
      cases more with
      | nil => exact (hm rfl).elim
      | cons m more => simp [join, intercalate, intersperse]
    | cons seg' segs =>
      have := ih (by simp)
      simp only [join, intercalate, cons_append, intersperse_cons_cons, flatten_cons, append_assoc] at this ⊢
      rw [this]

section

variable (h : ∀ seg ∈ segs, Segment seg)
include h

lemma foldl_split_join (out : List Str) : (split (join segs)).foldl (cleanStep true) out = segs.reverse ++ out := by
  by_cases hn : segs = []
  · simp [hn, join, cleanStep]
  · rw [split_join (fun seg hs => (h seg hs).2) hn, foldl_cleanStep_plain (fun seg hs => (h seg hs).1)]

lemma join_injective (h' : ∀ seg ∈ more, Segment seg) (he : join segs = join more) : segs = more := by
  have hfold := foldl_split_join h []
  rw [he, foldl_split_join h' []] at hfold
  simpa using hfold.symm

lemma render_injective (h' : ∀ seg ∈ more, Segment seg) (he : render segs = render more) : segs = more :=
  join_injective h h' (cons.inj he).2

lemma clean_render_append (h' : ∀ seg ∈ more, Segment seg) :
    clean (render segs ++ '/' :: render more) = render (segs ++ more) := by
  have habs : isAbs (render segs ++ '/' :: render more) = true := isAbs_iff.mpr ⟨_, rfl⟩
  have hsplit : split (render segs ++ '/' :: render more) =
      [] :: (split (join segs) ++ [] :: split (join more)) := by
    rw [split_append, render, render, split_slash, split_slash, cons_append]
  simp only [clean, habs, if_true, hsplit, foldl_cons, foldl_append]
  have hskip : ∀ out, cleanStep true out [] = out := fun out => by simp [cleanStep]
  rw [hskip, foldl_split_join h, hskip, foldl_split_join h']
  simp [render]

end

lemma segments_foldl {out : List Str} (hs : ∀ seg ∈ segs, '/' ∉ seg) (ho : ∀ seg ∈ out, Segment seg) :
    ∀ seg ∈ segs.foldl (cleanStep true) out, Segment seg := by
  induction segs generalizing out with
  | nil => exact ho
  | cons seg segs ih =>
    refine ih (fun s h => hs s (by simp [h])) ?_
    simp only [cleanStep]
    split
    · exact ho
    · rename_i hne
      obtain ⟨hnil, hdot⟩ := not_or.mp hne
      split
      · cases out with
        | nil => simp
        | cons top rest =>
          have htop : top ≠ ['.', '.'] := (ho top (by simp)).1.2.2
          simp only [htop, if_false]
          exact fun s h => ho s (by simp [h])
      · rename_i hup
        intro s h
        rcases mem_cons.mp h with rfl | h
        · exact ⟨⟨hnil, hdot, hup⟩, hs s (by simp)⟩
        · exact ho s h

lemma exists_render {p : Path} (ha : isAbs p = true) (hc : clean p = p) :
    ∃ segs, (∀ seg ∈ segs, Segment seg) ∧ p = render segs := by
  refine ⟨((split p).foldl (cleanStep true) []).reverse, ?_, ?_⟩
  · intro seg hseg
    exact segments_foldl (fun s => notMem_of_mem_split) (fun s hs => absurd hs not_mem_nil) seg
      (mem_reverse.mp hseg)
  · conv_lhs => rw [← hc]
    simp [clean, ha, render]

end FileES.Go
