import FileES.Client.Status
import FileES.Watcher.Scanner

/-! The guard that defers `svn update` while local removals are pending. -/

namespace FileES.Commit

open Go Client Policy Watcher

def statusRel (wc : Path) (entry : StatusEntry) : Option Path :=
  if isAbs entry.path then rel wc entry.path else some entry.path

def countsAsDeletion (wc : Path) (entry : StatusEntry) : Bool :=
  match statusRel wc entry with
  | none => true
  | some rel => hasPrefix rel ".." || !isBuiltinIgnored rel

def blocksUpdate (wc : Path) (entries : List StatusEntry) : Bool :=
  entries.any (fun entry => entry.item = .missing && countsAsDeletion wc entry)

lemma blocksUpdate_cons (wc : Path) (entry : StatusEntry) (entries : List StatusEntry) :
    blocksUpdate wc (entry :: entries) = (blocksUpdate wc [entry] || blocksUpdate wc entries) := by
  simp [blocksUpdate]

/-- A hidden missing path leaves updates alone exactly when, if a component is ignored, the last one is and does not
begin with two dots. -/
theorem pruned_missing_uncounted_iff (wc path rel : Path) (h : statusRel wc ⟨path, .missing⟩ = some rel) :
    (BuiltinPruned rel → ∀ entries, blocksUpdate wc (⟨path, .missing⟩ :: entries) = blocksUpdate wc entries) ↔
      ((∃ seg ∈ split rel, ignoredName seg = true) →
        hasPrefix rel ".." = false ∧ ignoredName (lastSegment (replaceAll rel '\\' '/')) = true) := by
  have hone : blocksUpdate wc [⟨path, .missing⟩] = false ↔
      hasPrefix rel ".." = false ∧ ignoredName (lastSegment (replaceAll rel '\\' '/')) = true := by
    simp [blocksUpdate, countsAsDeletion, h, isBuiltinIgnored_eq]
  have hall : (∀ entries, blocksUpdate wc (⟨path, .missing⟩ :: entries) = blocksUpdate wc entries) ↔
      blocksUpdate wc [⟨path, .missing⟩] = false := by
    constructor
    · intro hall
      exact hall []
    · intro hfalse entries
      rw [blocksUpdate_cons, hfalse, Bool.false_or]
  rw [builtinPruned_iff, hall, hone]

theorem pruned_missing_uncounted_lockfile :
    BuiltinPruned "plany/rzut.dwl" ∧ ∀ entries,
      blocksUpdate "/wc" (⟨"plany/rzut.dwl", .missing⟩ :: entries) =
        blocksUpdate "/wc" entries := by
  have hp : BuiltinPruned "plany/rzut.dwl" := ⟨"plany/rzut.dwl", by decide, by decide⟩
  exact ⟨hp, (pruned_missing_uncounted_iff "/wc" "plany/rzut.dwl" _ rfl).mpr (fun _ => by decide) hp⟩

theorem node_modules_child_counted :
    ¬ (BuiltinPruned "node_modules/x.js" → ∀ entries,
      blocksUpdate "/wc" (⟨"node_modules/x.js", .missing⟩ :: entries) =
        blocksUpdate "/wc" entries) := by
  intro h
  have hp : BuiltinPruned "node_modules/x.js" := ⟨"node_modules", by decide, by decide⟩
  exact absurd (h hp []) (by decide)

end FileES.Commit
