import FileES.Commit.Targets

/-! Whether entries that cannot be published now keep later ones out of the batch. -/

namespace FileES.Commit

open Go Client Watcher Lib List

def publishedAlone (P : Pass) (it : StageItem) : Bool :=
  match planBatch P [it] with
  | .ok plan => plan.commitPaths.contains it.rel
  | .error _ => false

variable {P : Pass} {staging : Staging}

lemma pending_sorted (hk : Keyed staging) : (pending P staging).Pairwise (fun a b => a.rel < b.rel) := by
  have hle : (pending P staging).Pairwise (fun a b => a.rel ≤ b.rel) := pairwise_insertionSort _ _
  have hne : (pending P staging).Pairwise (fun a b => a.rel ≠ b.rel) := by
    have hsub := (filter_sublist (p := ready P staging) (l := items staging)).map StageItem.rel
    exact pairwise_map.mp (((pending_perm P staging).map _).nodup_iff.mpr (hsub.nodup (items_rel_nodup hk)))
  exact (hle.and hne).imp (fun h => lt_of_le_of_ne h.1 h.2)

lemma room_perm {d : Disk} {maxFiles maxBytes : ℤ} {l l' : List StageItem} (h : l.Perm l') :
    Room d maxFiles maxBytes l ↔ Room d maxFiles maxBytes l' := by
  have hf : files l = files l' := (h.map _).sum_eq
  have hw : weight d l = weight d l' := (h.map _).sum_eq
  have hh : heavy d l = heavy d l' := h.countP_eq _
  rw [Room, Room, hf, hw, hh]

def readyUpTo (P : Pass) (staging : Staging) (rel : Path) : List StageItem :=
  (items staging).filter (fun e => ready P staging e && e.rel ≤ rel)

lemma readyUpTo_perm (hk : Keyed staging) {pre post : List StageItem} {it : StageItem}
    (h : pending P staging = pre ++ it :: post) : (readyUpTo P staging it.rel).Perm (pre ++ [it]) := by
  have hs := pending_sorted (P := P) hk
  rw [h] at hs
  rw [← Prefixes.filter_le_of_sorted StageItem.rel hs, ← h]
  have hp := (pending_perm P staging).filter (fun e => e.rel ≤ it.rel)
  rw [filter_filter] at hp
  refine .trans (.of_eq ?_) hp.symm
  apply filter_congr
  intro e _
  exact Bool.and_comm _ _

/-- A publishable entry is taken up exactly when the limits leave room for it and all that sorts before it. -/
theorem publishable_reaches_batch_iff (P : Pass) (staging : Staging) (hk : Keyed staging) :
    ((∃ it ∈ pending P staging, publishedAlone P it = true) →
        ∃ it ∈ batch P staging, publishedAlone P it = true) ↔
      ∀ it ∈ items staging, ready P staging it = true → publishedAlone P it = true →
        (∀ e ∈ items staging, ready P staging e = true → publishedAlone P e = true → it.rel ≤ e.rel) →
        Room P.disk P.rules.maxBatchFiles P.rules.maxBatchBytes (readyUpTo P staging it.rel) := by
  rw [batch, selectBatch, Prefixes.exists_mem_takeAcc_iff]
  simp only [allOk_iff_room]
  constructor
  · intro h it hit hr hp hfirst
    obtain ⟨pre, post, hsplit⟩ := append_of_mem (mem_pending.mpr ⟨hit, hr⟩)
    rw [room_perm (readyUpTo_perm hk hsplit)]
    refine h pre it post hsplit ?_ hp
    intro b hb hpb
    have hs := pending_sorted (P := P) hk
    rw [hsplit] at hs
    have hlt := (pairwise_append.mp hs).2.2 b hb it (by simp)
    obtain ⟨hbi, hbr⟩ := mem_pending.mp (hsplit ▸ mem_append_left _ hb : b ∈ pending P staging)
    exact absurd (hfirst b hbi hbr hpb) (not_le.mpr hlt)
  · intro h pre it post hsplit hpre hp
    obtain ⟨hit, hr⟩ := mem_pending.mp (hsplit ▸ (by simp) : it ∈ pending P staging)
    rw [← room_perm (readyUpTo_perm hk hsplit)]
    refine h it hit hr hp ?_
    intro e he her hpe
    have hs := pending_sorted (P := P) hk
    have hmem := mem_pending.mpr ⟨he, her⟩
    rw [hsplit] at hs hmem
    rcases mem_append.mp hmem with hmem | hmem
    · exact absurd hpe (hpre e hmem)
    · rcases mem_cons.mp hmem with rfl | hmem
      · exact le_rfl
      · exact ((pairwise_cons.mp (pairwise_append.mp hs).2.1).1 e hmem).le

def foreignPass (maxBatchFiles : ℤ) : Pass where
  wc := "/wc"
  native := true
  force := true
  rules := { maxBatchFiles := maxBatchFiles }
  disk := { lstat := fun _ => .ok { size := 1 }, stat := fun _ => .ok { size := 1 }, hash := fun _ => none }
  late := { lstat := fun _ => .ok { size := 1 }, stat := fun _ => .ok { size := 1 }, hash := fun _ => none }
  rows := [⟨"a.txt", .unversioned⟩, ⟨"b.txt", .unversioned⟩]
  notOnDisk := fun abs => abs = "/wc/a.txt"

def foreignQueue : Staging :=
  (AList.singleton "b.txt".toList { rel := "b.txt".toList, abs := "/wc/b.txt".toList, op := .added }).insert
    "a.txt" { rel := "a.txt", abs := "/wc/a.txt", op := .added }

theorem publishable_reaches_batch_of_two :
    (∃ it ∈ pending (foreignPass 2) foreignQueue, publishedAlone (foreignPass 2) it = true) ∧
      ∃ it ∈ batch (foreignPass 2) foreignQueue, publishedAlone (foreignPass 2) it = true := by
  have hk : Keyed foreignQueue := keyed_of_entries (by decide)
  have hex : ∃ it ∈ pending (foreignPass 2) foreignQueue, publishedAlone (foreignPass 2) it = true := by decide
  refine ⟨hex, (publishable_reaches_batch_iff (foreignPass 2) foreignQueue hk).mpr ?_ hex⟩
  decide

theorem waiting_file_fills_batch :
    ¬ ((∃ it ∈ pending (foreignPass 1) foreignQueue, publishedAlone (foreignPass 1) it = true) →
      ∃ it ∈ batch (foreignPass 1) foreignQueue, publishedAlone (foreignPass 1) it = true) := by
  decide

end FileES.Commit
