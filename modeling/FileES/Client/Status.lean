import FileES.Go.Path

/-! The answers of `svn status`. -/

namespace FileES.Client

open Go

inductive StatusItem
  | none
  | unversioned
  | normal
  | modified
  | missing
  | deleted
  | added
  | replaced
  | conflicted
  | other
  deriving DecidableEq, Repr

structure StatusEntry where
  path : Path
  item : StatusItem
  deriving DecidableEq, Repr

end FileES.Client
