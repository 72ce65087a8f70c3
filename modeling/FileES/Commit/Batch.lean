import FileES.Client.Status
import FileES.Commit.Staging
import FileES.Lib.Prefixes

/-! Which queue entries one pass of `tryCommitLocked` takes up, and the batch it cuts from them. -/

namespace FileES.Commit

open Go Client Watcher Lib Lib.Maps Prefixes List AList

structure SizeTier where
  (maxBytes interval : ℤ)
  deriving DecidableEq, Repr

structure Rules where
  maxBatchFiles : ℤ := 1000
  maxBatchBytes : ℤ := 512 * 1024 * 1024
  backlogFlushBytes : ℤ := 1024 * 1024 * 1024
  newLatency : ℤ := 5 * 60
  modifiedQuiet : ℤ := 2 * 60
  modifiedMaxWait : ℤ := 5 * 60
  renamedQuiet : ℤ := 60
  sizeTiers : List SizeTier := []
  deriving DecidableEq, Repr

def effectiveInterval (tiers : List SizeTier) (totalBytes : ℕ) : ℤ :=
  match tiers.find? (fun t => t.maxBytes ≤ 0 || (totalBytes : ℤ) ≤ t.maxBytes) with
  | some t => t.interval
  | none => (tiers.getLast?.map SizeTier.interval).getD 0

/-- What one pass reads besides the queue: `rows` answers `svn status`, `late` is the disk just before the commit,
`checks` and `gates` are false when a check, lock or svn command refuses. -/
structure Pass where
  wc : Path
  native : Bool
  now : Time := 0
  force : Bool := false
  rules : Rules := {}
  lastCommit : Option Time := none
  (disk late : Disk)
  rows : List StatusEntry
  clean : Path → Bool := fun _ => false
  verifyCommittedMove : Path → Path → Option Bool := fun _ _ => none
  anchored : Bool := false
  isPlaceholder : Path → Bool := fun _ => false
  localState : Path → Bool := fun _ => false
  notOnDisk : Path → Bool := fun _ => false
  recallsOnRead : FileInfo → Bool := fun _ => false
  readDir : Path → Option (List Str) := fun _ => none
  foldsTo : Str → Str → Bool := fun _ _ => false
  siblingRows : Path → Option (List StatusEntry) := fun _ => none
  checks : Bool := true
  gates : Bool := true

variable (P : Pass) (d : Disk) (staging : Staging) (it : StageItem) (entries : List StageItem)

def elapsed (now since : Time) : ℤ := (now : ℤ) - since

def statSize (abs : Path) : ℕ :=
  match d.stat abs with
  | .ok info => info.size
  | .error _ => 0

def items : List StageItem := staging.entries.map Sigma.snd

def stagedBytes : ℕ :=
  ((items staging).map (fun it => if it.isDir || it.op = .deleted then 0 else statSize d it.abs)).sum

def backlogHigh : Bool :=
  P.rules.backlogFlushBytes > 0 && (stagedBytes P.disk staging : ℤ) ≥ P.rules.backlogFlushBytes

def dependent : Bool :=
  (items staging).any (fun move =>
    move.op = .renamed && (move.oldRel = it.rel || hasPrefix move.oldRel (it.rel ++ ['/'])))

def settled (quiet : ℤ) (it : StageItem) : Bool :=
  elapsed P.now it.lastSeen ≥ quiet || elapsed P.now it.firstSeen ≥ P.rules.modifiedMaxWait

def cancelled : Bool :=
  it.op = .added && (match P.disk.stat it.abs with | .error .notExist => true | _ => false)

def ready : Bool :=
  match it.op with
  | .deleted => !(P.native && dependent staging it)
  | .added => !cancelled P it && (P.force || !(elapsed P.now it.firstSeen < P.rules.newLatency))
  | .renamed => it.moveScheduled || P.force || backlogHigh P staging || P.rules.renamedQuiet ≤ 0 ||
      settled P P.rules.renamedQuiet it
  | .modified => P.force || backlogHigh P staging || settled P P.rules.modifiedQuiet it
  | .renameUncertain => true

def pending : List StageItem :=
  ((items staging).filter (ready P staging)).insertionSort (fun a b => a.rel ≤ b.rel)

def fileCount : ℕ := if it.isDir then 0 else 1

def payload : ℕ := if it.isDir || it.op = .deleted then 0 else statSize d it.abs

def fits (maxFiles maxBytes : ℤ) (taken : ℕ × ℕ) (it : StageItem) : Bool :=
  !(fileCount it > 0 && (taken.1 : ℤ) ≥ maxFiles) &&
    !(payload d it > 0 && taken.2 > 0 && (taken.2 + payload d it : ℤ) > maxBytes)

def charge (taken : ℕ × ℕ) (it : StageItem) : ℕ × ℕ := (taken.1 + fileCount it, taken.2 + payload d it)

def selectBatch (maxFiles maxBytes : ℤ) : List StageItem :=
  Prefixes.takeAcc (fits d maxFiles maxBytes) (charge d) (0, 0) entries

def batch : List StageItem :=
  selectBatch P.disk (pending P staging) P.rules.maxBatchFiles P.rules.maxBatchBytes

def files : ℕ := (entries.map fileCount).sum

def weight : ℕ := (entries.map (payload d)).sum

def heavy : ℕ := entries.countP (fun it => 0 < payload d it)

def Room (maxFiles maxBytes : ℤ) (entries : List StageItem) : Prop :=
  (files entries = 0 ∨ (files entries : ℤ) ≤ maxFiles) ∧
    (heavy d entries ≤ 1 ∨ (weight d entries : ℤ) ≤ maxBytes)

instance (d : Disk) (maxFiles maxBytes : ℤ) (entries : List StageItem) :
    Decidable (Room d maxFiles maxBytes entries) := inferInstanceAs (Decidable (_ ∧ _))

@[simp] lemma files_cons (it : StageItem) (l : List StageItem) : files (it :: l) = fileCount it + files l := by
  simp [files]

@[simp] lemma weight_cons (d : Disk) (it : StageItem) (l : List StageItem) :
    weight d (it :: l) = payload d it + weight d l := by
  simp [weight]

lemma heavy_cons (d : Disk) (it : StageItem) (l : List StageItem) :
    heavy d (it :: l) = heavy d l + if 0 < payload d it then 1 else 0 := by
  simp [heavy, countP_cons]

variable {d : Disk} {l : List StageItem} {maxFiles maxBytes : ℤ} {staging : Staging} {it : StageItem} {P : Pass}

lemma weight_eq_zero (h : heavy d l = 0) : weight d l = 0 := by
  induction l with
  | nil => rfl
  | cons it l ih =>
    rw [heavy_cons] at h
    have hp : payload d it = 0 := by
      by_contra hp
      simp [Nat.pos_of_ne_zero hp] at h
    rw [weight_cons, hp, ih (by omega)]

lemma allOk_iff {n b : ℕ} : AllOk (fits d maxFiles maxBytes) (charge d) (n, b) l ↔
      (files l = 0 ∨ (n + files l : ℤ) ≤ maxFiles) ∧
        (heavy d l = 0 ∨ (b = 0 ∧ heavy d l ≤ 1) ∨ (b + weight d l : ℤ) ≤ maxBytes) := by
  induction l generalizing n b with
  | nil => simp [AllOk, files, heavy]
  | cons it l ih =>
    have hfits : fits d maxFiles maxBytes (n, b) it = true ↔
        (fileCount it = 0 ∨ (n : ℤ) < maxFiles) ∧
          (payload d it = 0 ∨ b = 0 ∨ (b + payload d it : ℤ) ≤ maxBytes) := by
      simp only [fits, gt_iff_lt, ge_iff_le, Bool.and_eq_true, Bool.not_eq_true', Bool.and_eq_false_iff,
        decide_eq_false_iff_not, not_lt, not_le, Nat.le_zero, or_assoc]
    have hw : heavy d l = 0 → weight d l = 0 := weight_eq_zero
    have hc : fileCount it ≤ 1 := by simp only [fileCount]; split <;> omega
    rw [AllOk, hfits, charge, ih, files_cons, weight_cons, heavy_cons]
    push_cast
    by_cases hp : payload d it = 0
    · simp only [hp, lt_self_iff_false, if_false, true_or, and_true]
      omega
    · simp only [Nat.pos_of_ne_zero hp, if_true]
      omega

lemma allOk_iff_room : AllOk (fits d maxFiles maxBytes) (charge d) (0, 0) l ↔ Room d maxFiles maxBytes l := by
  rw [allOk_iff, Room]
  simp only [Nat.cast_zero, zero_add, true_and]
  omega

def Within (d : Disk) (maxFiles maxBytes : ℤ) (entries : List StageItem) : Prop :=
  files entries ≤ maxFiles ∧ (weight d entries ≤ maxBytes ∨ heavy d entries = 1)

structure Selected (d : Disk) (maxFiles maxBytes : ℤ) (entries taken : List StageItem) : Prop where
  initial : taken <+: entries
  nonempty : entries ≠ [] → taken ≠ []
  within : Within d maxFiles maxBytes taken
  maximal : taken = entries ∨ ∃ it post, entries = taken ++ it :: post ∧ ¬ Within d maxFiles maxBytes (taken ++ [it])

def batches (d : Disk) (maxFiles maxBytes : ℤ) : ℕ → List StageItem → List (List StageItem)
  | 0, _ => []
  | fuel + 1, entries =>
    if entries = [] then []
    else
      let taken := selectBatch d entries maxFiles maxBytes
      taken :: batches d maxFiles maxBytes fuel (entries.drop taken.length)

section

variable (hf : 1 ≤ maxFiles) (hb : 0 ≤ maxBytes)
include hf hb

lemma room_iff_within : Room d maxFiles maxBytes l ↔ Within d maxFiles maxBytes l := by
  have hw : heavy d l = 0 → weight d l = 0 := weight_eq_zero
  rw [Room, Within]
  omega

lemma selected (entries : List StageItem) :
    Selected d maxFiles maxBytes entries (selectBatch d entries maxFiles maxBytes) := by
  have hmax := takeAcc_maximal (fits d maxFiles maxBytes) (charge d) (0, 0) entries
  simp only [allOk_iff_room, room_iff_within hf hb] at hmax
  refine ⟨takeAcc_initial _ _ _ _, fun hne hnil => ?_, ?_, hmax⟩
  · rw [selectBatch] at hnil
    rw [hnil] at hmax
    obtain ⟨it, post, _, hfull⟩ := hmax.resolve_left (Ne.symm hne)
    rw [nil_append, ← room_iff_within hf hb, Room] at hfull
    have hone : files [it] ≤ 1 ∧ heavy d [it] ≤ 1 := ⟨by simp [files, fileCount]; split <;> omega, countP_le_length⟩
    omega
  · rw [← room_iff_within hf hb, ← allOk_iff_room]
    exact allOk_takeAcc _ _ _ _

lemma batches_partition {fuel : ℕ} {entries : List StageItem} (hfuel : entries.length ≤ fuel) :
    (batches d maxFiles maxBytes fuel entries).flatten = entries ∧
      ∀ taken ∈ batches d maxFiles maxBytes fuel entries, taken ≠ [] := by
  induction fuel generalizing entries with
  | zero =>
    have hnil : entries = [] := length_eq_zero_iff.mp (Nat.le_zero.mp hfuel)
    simp [batches, hnil]
  | succ fuel ih =>
    rw [batches]
    split
    · rename_i hnil
      simp [hnil]
    · rename_i hne
      have hs := selected (d := d) hf hb entries
      have hlen := length_pos_iff.mpr (hs.nonempty hne)
      have hrest : (entries.drop (selectBatch d entries maxFiles maxBytes).length).length ≤ fuel := by
        rw [length_drop]
        omega
      obtain ⟨hflat, hall⟩ := ih hrest
      dsimp only
      rw [flatten_cons, hflat, forall_mem_cons]
      exact ⟨prefix_iff_eq_append.mp hs.initial, hs.nonempty hne, hall⟩

end

/-- With limits of at least one file and no byte, a batch is the longest prefix within them, and batches partition the
queue. -/
theorem batch_selection (d : Disk) (maxFiles maxBytes : ℤ) (hf : 1 ≤ maxFiles) (hb : 0 ≤ maxBytes)
    (entries : List StageItem) :
    Selected d maxFiles maxBytes entries (selectBatch d entries maxFiles maxBytes) ∧
      (batches d maxFiles maxBytes entries.length entries).flatten = entries ∧
      ∀ taken ∈ batches d maxFiles maxBytes entries.length entries, taken ≠ [] :=
  ⟨selected hf hb entries, batches_partition hf hb le_rfl⟩

def sparseDisk : Disk where
  lstat _ := .ok { size := 1 }
  stat _ := .ok { size := 1 }
  hash _ := none

def threeItems : List StageItem :=
  [{ rel := "a", abs := "/a", op := .added, isDir := true }, { rel := "a/b", abs := "/a/b", op := .added },
    { rel := "a/c", abs := "/a/c", op := .modified }]

theorem batch_selection_of_three : (batches sparseDisk 1 0 3 threeItems).map List.length = [2, 1] ∧
    (batches sparseDisk 1 0 3 threeItems).flatten = threeItems :=
  ⟨by decide, (batch_selection sparseDisk 1 0 le_rfl le_rfl threeItems).2.1⟩

theorem negative_byte_limit_exceeded : ¬ Within sparseDisk 1 (-1) (selectBatch sparseDisk (threeItems.take 1) 1 (-1)) := by
  rintro ⟨_, hbytes⟩
  revert hbytes
  decide

lemma mem_items : it ∈ items staging ↔ ∃ k, staging.lookup k = some it := by
  simp only [items, mem_map, Sigma.exists, mem_entries_iff]
  constructor
  · rintro ⟨k, it, h, rfl⟩
    exact ⟨k, h⟩
  · rintro ⟨k, h⟩
    exact ⟨k, it, h, rfl⟩

lemma mem_pending : it ∈ pending P staging ↔ it ∈ items staging ∧ ready P staging it = true := by
  rw [pending, mem_insertionSort, mem_filter]

lemma items_rel_nodup (hk : Keyed staging) : ((items staging).map StageItem.rel).Nodup := by
  have hkeys : (items staging).map StageItem.rel = staging.keys := by
    rw [items, List.map_map, AList.keys, List.keys]
    apply map_congr_left
    intro e he
    exact hk e.1 e.2 (mem_entries_iff.mp he)
  rw [hkeys]
  exact staging.keys_nodup

lemma pending_perm (P : Pass) (staging : Staging) :
    (pending P staging).Perm ((items staging).filter (ready P staging)) := perm_insertionSort _ _

lemma batch_sub (P : Pass) (staging : Staging) : batch P staging <+: pending P staging := takeAcc_initial _ _ _ _

lemma mem_batch (h : it ∈ batch P staging) : it ∈ items staging ∧ ready P staging it = true :=
  mem_pending.mp ((batch_sub P staging).subset h)

end FileES.Commit
