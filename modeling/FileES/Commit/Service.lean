import FileES.Watcher.Scanner

/-! The path rule of the intent journal, the state of the commit service and the facts it reads from disk. -/

namespace FileES.Commit

open Go Watcher

def reservedSegment (part : Str) : Bool :=
  equalFold part ".svn" || equalFold part ".filees"

def safeIntentPath (p : Path) : Bool :=
  !(split p).any reservedSegment &&
    (p != [] && p != "." && p != ".." && !isAbs p && !hasPrefix p "../" &&
      !containsAny p ['\\', ':', Char.ofNat 0, Char.ofNat 13, Char.ofNat 10] && clean p == p &&
      p != ".svn" && p != ".filees" && !hasPrefix p ".svn/" &&
      !hasPrefix p ".filees/")

def parentsFrom : ℕ → Path → List Path
  | 0, _ => []
  | fuel + 1, rel =>
    match beforeLast '/' rel with
    | none => []
    | some parent => parent :: parentsFrom fuel parent

def parentPaths (rel : Path) : List Path :=
  let rel := trim '/' (trimSpace rel)
  parentsFrom rel.length rel

lemma forall_parentsFrom {P : Str → Prop} {fuel : ℕ} {rel : Path} (hf : rel.length ≤ fuel) :
    (∀ parent ∈ parentsFrom fuel rel, ∀ seg ∈ split parent, P seg) ↔ ∀ seg ∈ (split rel).dropLast, P seg := by
  induction fuel generalizing rel with
  | zero =>
    have hr : rel = [] := List.length_eq_zero_iff.mp (Nat.le_zero.mp hf)
    simp [parentsFrom, hr]
  | succ fuel ih =>
    rw [parentsFrom]
    cases hb : beforeLast '/' rel with
    | none => simp [beforeLast_eq_none hb]
    | some parent =>
      have hlen := beforeLast_length hb
      rw [split_of_beforeLast hb, List.dropLast_concat, List.forall_mem_cons, ih (by omega)]
      refine and_iff_left_of_imp ?_
      intro h seg hseg
      exact h seg (List.mem_of_mem_dropLast hseg)

variable {p : Path}

lemma reservedSegment_not_of_safe (h : safeIntentPath p = true) {part : Str} (hp : part ∈ split p) :
    reservedSegment part = false := by
  simp only [safeIntentPath, Bool.and_eq_true, Bool.not_eq_true', List.any_eq_false] at h
  simpa using h.1 part hp

lemma plain_of_safe (h : safeIntentPath p = true) : ∀ seg ∈ split p, Plain seg := by
  simp only [safeIntentPath, Bool.and_eq_true, bne_iff_ne, Bool.not_eq_true', beq_iff_eq] at h
  obtain ⟨_, ⟨⟨⟨⟨⟨⟨⟨⟨⟨⟨_, hdot⟩, hup⟩, habs⟩, hups⟩, _⟩, hclean⟩, _⟩, _⟩, _⟩, _⟩⟩ := h
  exact plain_of_clean hclean habs hdot hup hups

inductive StatError
  | notExist
  | other
  deriving DecidableEq, Repr

structure FileInfo where
  isDir : Bool := false
  isRegular : Bool := true
  isSymlink : Bool := false
  size : ℕ := 0
  modTime : Time := 0
  deriving DecidableEq, Repr

structure Disk where
  (lstat stat : Path → Except StatError FileInfo)
  hash : Path → Option (ℕ × String)

def Disk.absent (d : Disk) (p : Path) : Bool :=
  match d.lstat p with
  | .error .notExist => true
  | _ => false

structure StageItem where
  resolutionID : String := ""
  (rel abs : Path)
  oldRel : Path := []
  renameVerified : Bool := false
  moveScheduled : Bool := false
  isDir : Bool := false
  op : OpType
  firstSeen : Time := 0
  lastSeen : Time := 0
  ver : ℕ := 0
  placeholderWaitReported : Bool := false
  deriving DecidableEq, Repr

structure CacheEntry where
  resolutionID : String := ""
  (rel abs : Path)
  oldRel : Path := []
  renameVerified : Bool := false
  moveScheduled : Bool := false
  isDir : Bool := false
  op : OpType
  firstSeen : Time := 0
  lastSeen : Time := 0
  deriving DecidableEq, Repr

abbrev Staging := AList (fun _ : Path => StageItem)

inductive IntentOperation
  | delete
  | add
  deriving DecidableEq, Repr

structure IntentPath where
  path : Path
  operation : IntentOperation
  size : ℕ := 0
  sha256 : String := ""
  deriving DecidableEq, Repr

structure IntentReceipt where
  (planID repoID : String)
  acceptedAt : Time
  fingerprint : String
  paths : List IntentPath
  deriving DecidableEq, Repr

structure IntentPlan where
  planID : String := ""
  (repoID choice : String)
  expiresAt : Time := 0
  paths : List IntentPath := []
  deriving DecidableEq, Repr

structure IntentPlanState where
  plan : IntentPlan
  fingerprint : String
  expires : Time
  deriving DecidableEq, Repr

structure Service where
  repoID : String := ""
  wc : Path := []
  cachePath : Path := []
  nativeMover : Bool := false
  staging : Staging := ∅
  intentReceipts : List IntentReceipt := []
  intentPlan : Option IntentPlanState := none

end FileES.Commit
