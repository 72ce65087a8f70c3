import FileES.Watcher.Scanner

/-! Publication snapshots: what the commit service captures before a commit and acknowledges after it. -/

namespace FileES.Watcher

open Go Lib List Option AList

structure PublicationEntry where
  path : Path
  present : Bool
  mtime : ℤ
  size : ℕ
  (md5 identity : String)
  isDir : Bool
  deriving DecidableEq, Repr

structure PublicationSnapshot where
  session : String
  sequence : ℕ
  entries : List PublicationEntry
  deriving DecidableEq, Repr

variable (io : Bool) (s : Scanner) (p : PublicationSnapshot)

def publicationPath (p : Path) : Bool :=
  !(p == [] || p == "." || p == ".." || hasPrefix p "../" ||
      containsAny p ['\\', ':', Char.ofNat 0, Char.ofNat 13, Char.ofNat 10] || isAbs p || clean p != p) &&
    (split p).all (fun part => !equalFold part ".svn" && !equalFold part ".filees")

def observe (cur : Index) (path : Path) : PublicationEntry :=
  let m := (cur.lookup path).getD {}
  { path := path, present := (cur.lookup path).isSome, mtime := m.mtimeSec, size := m.size, md5 := m.md5,
    identity := m.identity, isDir := m.isDir }

def capturePublication (paths : List Path) : Except String PublicationSnapshot :=
  if paths.all publicationPath then
    .ok { session := s.session, sequence := s.sequence, entries := paths.map (observe s.cur) }
  else .error "invalid publication path"

def PublicationEntry.meta (e : PublicationEntry) : Meta where
  mtimeSec := e.mtime
  size := e.size
  md5 := e.md5
  identity := e.identity
  isDir := e.isDir

def upTo (m : Maps.Map Path ℕ) (p : Path) : ℕ := (m.lookup p).getD 0

def raise (sequence : ℕ) (m : Maps.Map Path ℕ) (p : Path) : Maps.Map Path ℕ :=
  if sequence > upTo m p then m.insert p sequence else m

def record (m : Index) (e : PublicationEntry) : Index := if e.present then m.insert e.path e.meta else m.erase e.path

def acknowledgeEntry (s : Scanner) (e : PublicationEntry) : Scanner :=
  let s := if p.session ≠ s.session || s.sequence ≤ p.sequence then
      { s with missingSince := s.missingSince.erase e.path, cur := record s.cur e }
    else s
  if p.session = s.session then { s with acknowledged := raise p.sequence s.acknowledged e.path } else s

def acknowledgePublicationLocked : Except String Scanner :=
  if !io then .error "publication WC unavailable"
  else if !(p.entries.all (fun e => publicationPath e.path) && (p.entries.map PublicationEntry.path).Nodup) then
    .error "invalid publication observations"
  else .ok (p.entries.foldl (acknowledgeEntry p) { s with base := p.entries.foldl record s.base })

def acknowledgePublication : Except String Scanner :=
  if p.session = "" then .error "missing publication observations" else acknowledgePublicationLocked io s p

def withCleanFileMutation (done : Bool) (s : Scanner) (rel : Path) : Except String Scanner :=
  if !publicationPath rel then .error "invalid clean-file mutation"
  else if (observe s.cur rel).isDir then .error "clean-file mutation cannot acknowledge a directory"
  else if !done then .error "clean-file mutation failed"
  else acknowledgePublicationLocked io s
    { session := s.session, sequence := s.sequence, entries := [observe s.cur rel] }

def treeContains (root name : Path) : Bool := name == root || hasPrefix name (root ++ ['/'])

lemma treeContains_iff {root name : Path} : treeContains root name = true ↔ root = name ∨ root ++ ['/'] <+: name := by
  rw [treeContains, Bool.or_eq_true, beq_iff_eq, hasPrefix_iff, eq_comm]

structure TreeMoveSnapshot where
  (source destination : Path)
  session : String
  sequence : ℕ
  entries : List PublicationEntry
  deriving DecidableEq, Repr

variable (p : TreeMoveSnapshot)

def TreeMoveSnapshot.destinationOf (path : Path) : Path :=
  p.destination ++ trimPrefix path p.source

def raiseAll (sequence : ℕ) (m : Maps.Map Path ℕ) (ps : List Path) : Maps.Map Path ℕ := ps.foldl (raise sequence) m

def outsideMove (name : Path) : Bool :=
  !treeContains p.source name && !treeContains p.destination name

def moveEntry (m : Index) (e : PublicationEntry) : Index :=
  (m.erase e.path).insert (p.destinationOf e.path) e.meta

def acknowledgeTreeMove (valid : Bool) (s : Scanner) (p : TreeMoveSnapshot) : Except String Scanner :=
  if p.session = s.session && p.sequence > s.sequence then
    .error "tree move snapshot claims a future scanner generation"
  else if !valid then .error "tree move snapshot does not match the baseline"
  else .ok { s with
    base := p.entries.foldl (moveEntry p) s.base
    cur := p.entries.foldl (moveEntry p) (s.cur.entries.foldl
      (fun m e => if outsideMove p e.1 then m else m.erase e.1) s.cur)
    missingSince := s.missingSince.entries.foldl
      (fun m e => if outsideMove p e.1 then m else m.erase e.1) s.missingSince
    acknowledged := if p.session = s.session then raiseAll p.sequence s.acknowledged
        (p.entries.flatMap (fun e => [e.path, p.destinationOf e.path])) else s.acknowledged
    acknowledgedTrees := if p.session = s.session then
        raiseAll p.sequence s.acknowledgedTrees [p.source, p.destination] else s.acknowledgedTrees }

structure FileDeleteSnapshot where
  source : Path
  session : String
  sequence : ℕ
  deriving DecidableEq, Repr

def acknowledgeFileDelete (valid : Bool) (s : Scanner) (p : FileDeleteSnapshot) : Except String Scanner :=
  if p.session = s.session && p.sequence > s.sequence then
    .error "file delete snapshot claims a future scanner generation"
  else if !valid then .error "file delete snapshot does not match the baseline"
  else .ok { s with
    base := s.base.erase p.source
    cur := s.cur.erase p.source
    missingSince := s.missingSince.erase p.source
    acknowledged := if p.session = s.session then raise p.sequence s.acknowledged p.source else s.acknowledged }

def eventAcknowledged (s : Scanner) (ev : Event) : Bool :=
  if ev.session = "" || ev.session ≠ s.session || ev.sequence = 0 then false
  else if ev.sequence ≤ upTo s.acknowledged ev.rel then true
  else s.acknowledgedTrees.entries.any (fun root => treeContains root.1 ev.rel && ev.sequence ≤ root.2)

def Scanner.restart (s : Scanner) (session : String) : Scanner :=
  { s with session := session, sequence := 0, cur := s.base, missingSince := ∅, acknowledged := ∅,
           acknowledgedTrees := ∅ }

variable {n sequence : ℕ} {m : Maps.Map Path ℕ} {q : Path}

lemma not_le_upTo_empty (hn : 0 < n) (p : Path) : ¬ n ≤ upTo ∅ p := by
  simp only [upTo, lookup_empty, getD_none]
  omega

lemma le_upTo_raise {p : Path} : n ≤ upTo (raise sequence m p) q ↔ n ≤ upTo m q ∨ (q = p ∧ n ≤ sequence) := by
  rw [raise]
  split
  · rename_i h
    by_cases hq : q = p
    · subst hq
      simp only [upTo, lookup_insert, getD_some, true_and] at h ⊢
      omega
    · simp [upTo, lookup_insert_ne hq, hq]
  · rename_i h
    constructor
    · exact .inl
    · rintro (h' | ⟨rfl, h'⟩)
      · exact h'
      · omega

lemma le_upTo_raiseAll {ps : List Path} :
    n ≤ upTo (raiseAll sequence m ps) q ↔ n ≤ upTo m q ∨ (q ∈ ps ∧ n ≤ sequence) := by
  induction ps generalizing m with
  | nil => simp [raiseAll]
  | cons p ps ih =>
    rw [raiseAll, foldl_cons, ← raiseAll, ih, le_upTo_raise]
    simp only [mem_cons]
    tauto

lemma acknowledgeEntries_fence (p : PublicationSnapshot) (es : List PublicationEntry) (s : Scanner) :
    (es.foldl (acknowledgeEntry p) s).session = s.session ∧ (es.foldl (acknowledgeEntry p) s).sequence = s.sequence ∧
      (es.foldl (acknowledgeEntry p) s).acknowledgedTrees = s.acknowledgedTrees ∧
      (es.foldl (acknowledgeEntry p) s).acknowledged =
        if p.session = s.session then raiseAll p.sequence s.acknowledged (es.map PublicationEntry.path)
        else s.acknowledged := by
  induction es generalizing s with
  | nil => simp [raiseAll]
  | cons e es ih =>
    have he : (acknowledgeEntry p s e).session = s.session ∧ (acknowledgeEntry p s e).sequence = s.sequence ∧
        (acknowledgeEntry p s e).acknowledgedTrees = s.acknowledgedTrees ∧
        (acknowledgeEntry p s e).acknowledged =
          if p.session = s.session then raise p.sequence s.acknowledged e.path else s.acknowledged := by
      rw [acknowledgeEntry]
      by_cases hs : p.session = s.session
      · by_cases hq : s.sequence ≤ p.sequence <;> simp [hs, hq]
      · simp [hs]
    obtain ⟨h₁, h₂, h₃, h₄⟩ := ih (acknowledgeEntry p s e)
    rw [foldl_cons]
    refine ⟨h₁.trans he.1, h₂.trans he.2.1, h₃.trans he.2.2.1, ?_⟩
    rw [h₄, he.1, he.2.2.2]
    by_cases hs : p.session = s.session <;> simp [hs, raiseAll]

end FileES.Watcher
