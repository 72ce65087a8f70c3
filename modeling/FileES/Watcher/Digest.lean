import FileES.Watcher.Deletions

/-! Hashing under a byte budget, and what a scan concludes from the digests. -/

namespace FileES.Watcher

open Go Lib List Option

/-- A file as it is read; reading at or beyond the offset `fault` fails. -/
structure Source where
  content : List UInt8
  opens : Bool := true
  fault : Option ℕ := none

inductive CopyEnd
  | done
  | eof
  | failed

def copyN (f : Source) (off n : ℕ) : ℕ × CopyEnd :=
  if f.fault.any (fun k => k ≤ f.content.length && k < off + n) then (f.fault.getD 0 - off, .failed)
  else if f.content.length < off + n then (f.content.length - off, .eof)
  else (n, .done)

variable (digest : List UInt8 → String)

def md5Loop (f : Source) : ℕ → ℕ → ℕ → Option (String × ℕ)
  | 0, copied, _ => some (digest (f.content.take copied), copied)
  | fuel + 1, copied, budget =>
    if budget = 0 then some (digest (f.content.take copied), copied)
    else match copyN f copied (min (128 * 1024) budget) with
      | (m, .done) => md5Loop f fuel (copied + m) (budget - m)
      | (m, .eof) => some (digest (f.content.take (copied + m)), copied + m)
      | (_, .failed) => none

def md5FileBudgeted (f : Source) (budget : ℕ) : Option (String × ℕ) :=
  if f.opens then md5Loop digest f budget 0 budget else none

def Collides (content : List UInt8) (budget : ℕ) : Prop :=
  budget < content.length ∧ digest (content.take budget) = digest content

variable {digest} {f : Source} {sum : String} {budget copied fuel read : ℕ} {nf : PendingAdd}

lemma md5Loop_eq_some (hb : budget ≤ fuel) (hc : copied ≤ f.content.length)
    (h : md5Loop digest f fuel copied budget = some (sum, read)) : sum = digest (f.content.take (copied + budget)) := by
  induction fuel generalizing copied budget with
  | zero =>
    cases h
    rw [Nat.le_zero.mp hb, Nat.add_zero]
  | succ fuel ih =>
    rw [md5Loop] at h
    split at h
    · rename_i hzero
      cases h
      rw [hzero, Nat.add_zero]
    · split at h <;> rename_i hcopy <;> rw [copyN] at hcopy <;> split_ifs at hcopy with _ hlen <;> cases hcopy
      · rw [ih (by omega) (by omega) h]
        congr 2
        omega
      · cases h
        rw [take_of_length_le (by omega), take_of_length_le (by omega)]
      · cases h

lemma md5FileBudgeted_eq_some (h : md5FileBudgeted digest f budget = some (sum, read)) :
    sum = digest (f.content.take budget) := by
  rw [md5FileBudgeted] at h
  split at h
  · rw [md5Loop_eq_some le_rfl (Nat.zero_le _) h, Nat.zero_add]
  · cases h

lemma digest_complete_iff (h : md5FileBudgeted digest f budget = some (sum, read)) :
    sum = digest f.content ↔ f.content.length ≤ budget ∨ Collides digest f.content budget := by
  rw [md5FileBudgeted_eq_some h, Collides]
  by_cases hb : f.content.length ≤ budget
  · simp [hb, take_of_length_le]
  · simp [hb, not_le.mp hb]

section

variable {files : Path → Source} {s : Scanner} {V : Scan} {st : WalkState} {rel : Path} {m old : Meta}
  (hmd5 : ∀ rel b, V.md5 rel b = md5FileBudgeted digest (files rel) b)
  (hfit : (files rel).content.length ≤ st.budget)
include hmd5 hfit

lemma unreported_whole (hmissing : st.missingSince.lookup rel = none) (hd : m.isDir = false)
    (hchanged : ¬ (m.size = old.size ∧ m.mtimeSec = old.mtimeSec))
    (h : (observeKnown s V st rel m old).events = st.events) : old.md5 ≠ "" ∧ old.md5 = digest (files rel).content := by
  rw [observeKnown] at h
  simp only [hmissing, hd, hchanged, isSome_none, Bool.false_eq_true, if_false] at h
  split at h
  · rename_i sum read hs
    split_ifs at hs
    rw [hmd5] at hs
    split_ifs at h with hreport
    · simp [WalkState.emit, WalkState.spend, seen] at h
    · rw [not_or, not_not] at hreport
      exact ⟨hreport.1, hreport.2 ▸ (digest_complete_iff hs).mpr (.inl hfit)⟩
  · simp [WalkState.emit, seen] at h

lemma added_whole (hm : m.md5 = "") (h : nf ∈ (observeNew s V st rel m).newFiles) :
    nf ∈ st.newFiles ∨ nf.rel = rel ∧ (nf.info.md5 = "" ∨ nf.info.md5 = digest (files rel).content) := by
  rcases mem_append.mp h with h | h
  · exact .inl h
  · cases mem_singleton.mp h
    refine .inr ⟨rfl, ?_⟩
    dsimp only
    split
    · rename_i hs
      split_ifs at hs
      rw [hmd5] at hs
      exact .inr ((digest_complete_iff hs).mpr (.inl hfit))
    · exact .inl hm

end

lemma renamed_same_digest {s : Scanner} {start : Index} {newFiles : List PendingAdd} {st : WalkState}
    {ev : Event} (hs : s.requireRenameIdentity = false) (h : ev ∈ (detectRename s start newFiles st nf).events)
    (hnew : ev ∉ st.events) (hop : ev.op = .renamed) :
    ev.rel = nf.rel ∧ nf.info.md5 ≠ "" ∧ ∃ old, start.lookup ev.oldRel = some old ∧ old.md5 = nf.info.md5 := by
  rw [detectRename] at h
  simp only [hs, Bool.false_eq_true, if_false, Bool.false_and] at h
  split_ifs at h
  · cases mem_singleton.mp ((mem_append.mp h).resolve_left hnew)
    cases hop
  · split at h <;> cases mem_singleton.mp ((mem_append.mp h).resolve_left hnew)
    · rename_i oldRel holds _
      have hmem : oldRel ∈ candidates start Meta.md5 nf.info.md5 := by rw [holds]; exact mem_singleton_self _
      simp only [candidates, List.mem_map, List.mem_filter, Bool.and_eq_true, decide_eq_true_eq] at hmem
      obtain ⟨e, ⟨he, ⟨_, hne⟩, heq⟩, rfl⟩ := hmem
      exact ⟨rfl, heq ▸ hne, e.2, Maps.mem_entries_iff.mp he, heq⟩
    · cases hop

def fourBytes : Source where
  content := [1, 2, 3, 4]

def byteSum (content : List UInt8) : String := toString (content.map UInt8.toNat).sum

end FileES.Watcher
