import FileES.Go.Path

/-! `filepath.WalkDir` over a directory tree whose listings may fail. -/

namespace FileES.Go

variable {I S : Type}

inductive EntryKind
  | file
  | symlink
  | dir
  deriving DecidableEq, Repr

structure Name where
  text : Str
  nonempty : text ≠ []
  noSlash : '/' ∉ text

structure Dirent (I : Type) where
  name : Str
  kind : EntryKind
  info : I
  deriving DecidableEq, Repr

inductive Forest (I : Type)
  | nil
  | leaf (name : Name) (listed link : Bool) (info : I) (rest : Forest I)
  | dir (name : Name) (listed : Bool) (info : I) (readErr : Bool) (children rest : Forest I)

structure Root (I : Type) where
  name : Str
  entered : Bool := true
  info : I
  readErr : Bool := false
  children : Forest I

def leafEntry (name : Name) (link : Bool) (info : I) : Dirent I :=
  ⟨name.text, if link then .symlink else .file, info⟩

def Forest.entries (above : List Str) : Forest I → List (List Str × Dirent I)
  | .nil => []
  | .leaf name _ link info rest => (above ++ [name.text], leafEntry name link info) :: rest.entries above
  | .dir name _ info _ children rest =>
    (above ++ [name.text], ⟨name.text, .dir, info⟩) :: children.entries (above ++ [name.text]) ++ rest.entries above

def Forest.sub (name : Str) : Forest I → Option (Bool × Forest I)
  | .nil => none
  | .leaf _ _ _ _ rest => rest.sub name
  | .dir other _ _ readErr children rest => if other.text = name then some (readErr, children) else rest.sub name

structure Visitor (S I : Type) where
  visit : S → List Str → Dirent I → S × Bool
  failed : S → List Str → S × Bool

def Forest.walk (fn : Visitor S I) (above : List Str) (err : Bool) : Forest I → S → S
  | .nil, st => st
  | .leaf name listed link info rest, st =>
    if err && !listed then rest.walk fn above err st
    else
      let r := fn.visit st (above ++ [name.text]) (leafEntry name link info)
      if r.2 then r.1 else rest.walk fn above err r.1
  | .dir name listed info readErr children rest, st =>
    if err && !listed then rest.walk fn above err st
    else
      let path := above ++ [name.text]
      let r := fn.visit st path ⟨name.text, .dir, info⟩
      if r.2 then rest.walk fn above err r.1
      else
        let r := if readErr then fn.failed r.1 path else (r.1, false)
        rest.walk fn above err (if r.2 then r.1 else children.walk fn path readErr r.1)

def Root.entry (root : Root I) : Dirent I := ⟨root.name, .dir, root.info⟩

def walkDir (fn : Visitor S I) (root : Root I) (st : S) : S :=
  if !root.entered then st
  else
    let r := fn.visit st [] root.entry
    if r.2 then r.1
    else
      let r := if root.readErr then fn.failed r.1 [] else (r.1, false)
      if r.2 then r.1 else root.children.walk fn [] root.readErr r.1

def Forest.visits (skip : List Str → Dirent I → Bool) (above : List Str) (err : Bool) :
    Forest I → List (List Str × Dirent I)
  | .nil => []
  | .leaf name listed link info rest =>
    if err && !listed then rest.visits skip above err
    else (above ++ [name.text], leafEntry name link info) :: rest.visits skip above err
  | .dir name listed info readErr children rest =>
    if err && !listed then rest.visits skip above err
    else
      let path := above ++ [name.text]
      (path, ⟨name.text, .dir, info⟩) ::
        (if skip path ⟨name.text, .dir, info⟩ then [] else children.visits skip path readErr) ++
          rest.visits skip above err

def Root.visits (skip : List Str → Dirent I → Bool) (root : Root I) : List (List Str × Dirent I) :=
  if !root.entered then []
  else ([], root.entry) :: if skip [] root.entry then [] else root.children.visits skip [] root.readErr

section Fold

variable {fn : Visitor S I} {skip : List Str → Dirent I → Bool}
  (hskip : ∀ st path d, (fn.visit st path d).2 = skip path d) (hdir : ∀ path d, skip path d = true → d.kind = .dir)
  (hfailed : ∀ st path, fn.failed st path = (st, false))
include hskip hdir hfailed

lemma Forest.walk_eq_foldl (f : Forest I) (above : List Str) (err : Bool) (st : S) :
    f.walk fn above err st = (f.visits skip above err).foldl (fun st v => (fn.visit st v.1 v.2).1) st := by
  induction f generalizing above err st with
  | nil => rfl
  | leaf name listed link info rest ih =>
    rw [Forest.walk, Forest.visits]
    split
    · exact ih above err st
    · have hleaf : skip (above ++ [name.text]) (leafEntry name link info) = false := by
        by_contra h
        have := hdir _ _ (by simpa using h)
        cases link <;> cases this
      simp only [hskip, hleaf, Bool.false_eq_true, if_false, List.foldl_cons]
      exact ih above err _
  | dir name listed info readErr children rest ihc ihr =>
    rw [Forest.walk, Forest.visits]
    split
    · exact ihr above err st
    · simp only [hskip, hfailed, ite_self, Bool.false_eq_true, if_false, List.cons_append, List.foldl_cons,
        List.foldl_append]
      split
      · exact ihr above err _
      · rw [ihr, ihc]

lemma walkDir_eq_foldl (root : Root I) (st : S) :
    walkDir fn root st = (root.visits skip).foldl (fun st v => (fn.visit st v.1 v.2).1) st := by
  rw [walkDir, Root.visits]
  split
  · rfl
  · simp only [hskip, hfailed, ite_self, Bool.false_eq_true, if_false, List.foldl_cons]
    split
    · rfl
    · exact root.children.walk_eq_foldl hskip hdir hfailed [] root.readErr _

end Fold

end FileES.Go
