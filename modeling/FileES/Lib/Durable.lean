import Mathlib.Tactic

/-! Replacing a file by writing a new one beside it, renaming it over the old one and syncing the directory. -/

namespace FileES.Lib.Durable

/-- Done, failed with the old file in place, or failed although the rename took effect; a crash is one of the last
two. -/
inductive Write
  | done
  | failed
  | unsynced
  deriving DecidableEq, Repr

def Write.ok : Write → Bool
  | .done => true
  | _ => false

def Write.landed : Write → Bool
  | .failed => false
  | _ => true

variable {α : Type}

def Write.store (w : Write) (old new : α) : α := if w.landed then new else old

variable {w : Write}

lemma Write.landed_of_ok (h : w.ok = true) : w.landed = true := by
  cases w with
  | done => rfl
  | failed => cases h
  | unsynced => rfl

lemma Write.eq_done_of_ok (h : w.ok = true) : w = .done := by
  cases w with
  | done => rfl
  | failed => cases h
  | unsynced => cases h

end FileES.Lib.Durable
