import FileES.Go.Strings
import FileES.Lib.Durable

/-! The shouting-commit marker, the durable inbox of discovered shouts and the last revision scanned for them. -/

namespace FileES.Shout

open Go Lib.Durable List Option

def marker : Str := "[!shout@#!]"

def acknowledgedHistoryLimit : ℕ := 50

def format (comment : Str) : Str := marker ++ ' ' :: trimSpace comment

def parse (message : Str) : Option Str :=
  let trimmed := trimSpace message
  if hasPrefix trimmed marker then
    let rest := trimSpace (trimPrefix trimmed marker)
    if rest = [] then none else some rest
  else none

def noticeID (repoID : Str) (revision : ℤ) : Str :=
  "shout:" ++ repoID ++ ':' :: (toString revision).toList

structure Record where
  (id repoID : Str)
  revision : ℤ
  (title createdAt : Str)
  acked : Bool := false
  deriving DecidableEq, Repr

structure LogEntry where
  revision : ℤ
  message : Str
  deriving DecidableEq, Repr

structure Files where
  lastSeen : Option ℤ := none
  inbox : List Record := []

def Files.Has (f : Files) (revision : ℤ) : Prop := revision ∈ f.inbox.map Record.revision

instance (f : Files) (revision : ℤ) : Decidable (f.Has revision) :=
  inferInstanceAs (Decidable (revision ∈ f.inbox.map Record.revision))

inductive Fault
  | io
  | logReaderMissing
  deriving DecidableEq, Repr

def discover (repoID stamp : Str) (inbox : List Record) : List LogEntry → List Record
  | [] => []
  | entry :: entries =>
    match parse entry.message with
    | none => discover repoID stamp inbox entries
    | some comment =>
      if entry.revision ∈ inbox.map Record.revision then discover repoID stamp inbox entries
      else
        let r : Record :=
          { id := noticeID repoID entry.revision, repoID := repoID, revision := entry.revision, title := comment,
            createdAt := stamp }
        r :: discover repoID stamp (inbox ++ [r]) entries

def remember (repoID stamp : Str) (readable : Bool) (save : Write) (f : Files) (entries : List LogEntry) :
    Files × Except Fault (List Record) :=
  if !readable then (f, .error .io)
  else
    let added := discover repoID stamp f.inbox entries
    if added = [] then (f, .ok [])
    else ({ f with inbox := save.store f.inbox (f.inbox ++ added) }, if save.ok then .ok added else .error .io)

def saveLastSeen (save : Write) (f : Files) (revision : ℤ) : Files × Except Fault Unit :=
  if revision < 0 then (f, .error .io)
  else ({ f with lastSeen := save.store f.lastSeen (some revision) }, if save.ok then .ok () else .error .io)

inductive Reader
  | missing
  | failing
  | reading
  deriving DecidableEq, Repr

structure Calls where
  loadSeen : Bool := true
  reader : Reader := .reading
  loadInbox : Bool := true
  saveInbox : Write := .done
  saveSeen : Write := .done
  deriving DecidableEq, Repr

def advance (repoID stamp : Str) (fetch : ℤ → ℤ → List LogEntry) (c : Calls) (f : Files) (localRev : ℤ) :
    Files × Except Fault (List Record) :=
  if localRev < 0 then (f, .ok [])
  else if !c.loadSeen then (f, .error .io)
  else
    match f.lastSeen with
    | none =>
      let (f, r) := saveLastSeen c.saveSeen f localRev
      (f, r.map (fun _ => []))
    | some last =>
      if localRev ≤ last then (f, .ok [])
      else
        match c.reader with
        | .missing => (f, .error .logReaderMissing)
        | .failing => (f, .error .io)
        | .reading =>
          match remember repoID stamp c.loadInbox c.saveInbox f (fetch (last + 1) localRev) with
          | (f, .error e) => (f, .error e)
          | (f, .ok added) =>
            let (f, r) := saveLastSeen c.saveSeen f localRev
            (f, r.map (fun _ => added))

def pruneAcknowledged (inbox : List Record) (limit : ℕ) : List Record :=
  go limit inbox.reverse []
where
  go : ℕ → List Record → List Record → List Record
    | _, [], kept => kept
    | n, r :: older, kept =>
      if !r.acked then go n older (r :: kept)
      else
        match n with
        | 0 => go 0 older kept
        | n + 1 => go n older (r :: kept)

def ack (noticeID : Str) (readable : Bool) (save : Write) (f : Files) : Files × Except Fault Unit :=
  if !readable then (f, .error .io)
  else if !f.inbox.any (fun r => r.id = noticeID && !r.acked) then (f, .ok ())
  else
    let marked := f.inbox.map (fun r => if r.id = noticeID && !r.acked then { r with acked := true } else r)
    ({ f with inbox := save.store f.inbox (pruneAcknowledged marked acknowledgedHistoryLimit) },
      if save.ok then .ok () else .error .io)

variable {inbox : List Record} {entries : List LogEntry} {revision : ℤ} {r : Record} {readable : Bool} {save : Write}

lemma mem_discover {repoID stamp : Str} : revision ∈ (discover repoID stamp inbox entries).map Record.revision ↔
      revision ∉ inbox.map Record.revision ∧ ∃ e ∈ entries, e.revision = revision ∧ (parse e.message).isSome = true := by
  induction entries generalizing inbox with
  | nil => simp [discover]
  | cons entry entries ih =>
    rw [discover, exists_mem_cons_iff]
    split
    · rename_i hp
      rw [ih, hp]
      simp
    · rename_i comment hp
      rw [hp]
      split
      · rename_i hm
        rw [ih]
        constructor
        · rintro ⟨hn, he⟩
          exact ⟨hn, .inr he⟩
        · rintro ⟨hn, ⟨rfl, _⟩ | he⟩
          · exact (hn hm).elim
          · exact ⟨hn, he⟩
      · rename_i hm
        rw [map_cons, mem_cons, ih]
        simp only [map_append, map_cons, map_nil, mem_append, mem_singleton, not_or, isSome_some, and_true]
        constructor
        · rintro (rfl | ⟨⟨hn, _⟩, he⟩)
          · exact ⟨hm, .inl rfl⟩
          · exact ⟨hn, .inr he⟩
        · rintro ⟨hn, rfl | he⟩
          · exact .inl rfl
          · by_cases hr : revision = entry.revision
            · exact .inl hr
            · exact .inr ⟨⟨hn, hr⟩, he⟩

lemma discover_nodup (repoID stamp : Str) (inbox : List Record) (entries : List LogEntry) :
    ((discover repoID stamp inbox entries).map Record.revision).Nodup := by
  induction entries generalizing inbox with
  | nil => simp [discover]
  | cons entry entries ih =>
    rw [discover]
    split
    · exact ih inbox
    · split
      · exact ih inbox
      · rw [map_cons, nodup_cons]
        refine ⟨?_, ih _⟩
        rw [mem_discover]
        simp

lemma pruneAcknowledged_go_subset {n : ℕ} {older kept : List Record} (h : r ∈ pruneAcknowledged.go n older kept) :
    r ∈ older ∨ r ∈ kept := by
  induction older generalizing n kept with
  | nil => exact .inr h
  | cons x older ih =>
    unfold pruneAcknowledged.go at h
    split at h
    · rcases ih h with h | h
      · exact .inl (mem_cons_of_mem x h)
      · rcases mem_cons.mp h with rfl | h
        · exact .inl (mem_cons_self)
        · exact .inr h
    · split at h
      · exact (ih h).imp (mem_cons_of_mem x) id
      · rcases ih h with h | h
        · exact .inl (mem_cons_of_mem x h)
        · rcases mem_cons.mp h with rfl | h
          · exact .inl (mem_cons_self)
          · exact .inr h

lemma mem_of_mem_pruneAcknowledged {limit : ℕ} (h : r ∈ pruneAcknowledged inbox limit) : r ∈ inbox := by
  rcases pruneAcknowledged_go_subset h with h | h
  · exact mem_reverse.mp h
  · cases h

lemma has_of_ack {noticeID : Str} {f : Files} (h : (ack noticeID readable save f).1.Has revision) :
    f.Has revision := by
  unfold ack at h
  split at h
  · exact h
  · split at h
    · exact h
    · cases save with
      | failed => exact h
      | done | unsynced =>
        obtain ⟨r, hr, rfl⟩ := mem_map.mp h
        obtain ⟨r', hr', rfl⟩ := mem_map.mp (mem_of_mem_pruneAcknowledged hr)
        refine mem_map.mpr ⟨r', hr', ?_⟩
        split <;> rfl

lemma ack_lastSeen (noticeID : Str) (readable : Bool) (save : Write) (f : Files) :
    (ack noticeID readable save f).1.lastSeen = f.lastSeen := by
  unfold ack
  split
  · rfl
  · split <;> rfl

/-- `Advance` appends records of new revisions and moves `last_seen` only when every shout up to it is in the inbox.
-/
structure Advanced (fetch : ℤ → ℤ → List LogEntry) (f f' : Files) (localRev last : ℤ) : Prop where
  appends : ∃ added, f'.inbox = f.inbox ++ added ∧ (added.map Record.revision).Nodup ∧
    ∀ r ∈ added.map Record.revision, ¬ f.Has r ∧
      ∃ e ∈ fetch (last + 1) localRev, e.revision = r ∧ (parse e.message).isSome = true
  moves : f'.lastSeen = some last ∨ last < localRev ∧ f'.lastSeen = some localRev ∧
    ∀ e ∈ fetch (last + 1) localRev, (parse e.message).isSome = true → f'.Has e.revision

variable {repoID stamp : Str} {fetch : ℤ → ℤ → List LogEntry} {f : Files} {localRev last : ℤ}

lemma Advanced.refl (h : f.lastSeen = some last) : Advanced fetch f f localRev last where
  appends := ⟨[], by simp, by simp, by simp⟩
  moves := .inl h

lemma saveLastSeen_inbox (save : Write) (f : Files) (revision : ℤ) : (saveLastSeen save f revision).1.inbox = f.inbox := by
  unfold saveLastSeen
  split <;> rfl

lemma saveLastSeen_lastSeen (save : Write) (f : Files) (revision : ℤ) :
    (saveLastSeen save f revision).1.lastSeen = f.lastSeen ∨
      (saveLastSeen save f revision).1.lastSeen = some revision := by
  unfold saveLastSeen
  split
  · exact .inl rfl
  · cases save with
    | failed => exact .inl rfl
    | done | unsynced => exact .inr rfl

lemma remember_spec {f' : Files} {res : Except Fault (List Record)}
    (h : remember repoID stamp readable save f entries = (f', res)) : f'.lastSeen = f.lastSeen ∧
      (∃ added, f'.inbox = f.inbox ++ added ∧ (added.map Record.revision).Nodup ∧
        ∀ r ∈ added.map Record.revision, ¬ f.Has r ∧ ∃ e ∈ entries, e.revision = r ∧ (parse e.message).isSome = true) ∧
      (∀ added, res = .ok added → ∀ e ∈ entries, (parse e.message).isSome = true → f'.Has e.revision) := by
  have hnew : ∀ r ∈ (discover repoID stamp f.inbox entries).map Record.revision, ¬ f.Has r ∧
      ∃ e ∈ entries, e.revision = r ∧ (parse e.message).isSome = true := fun r hr => mem_discover.mp hr
  have hall : ∀ e ∈ entries, (parse e.message).isSome = true →
      e.revision ∈ (f.inbox ++ discover repoID stamp f.inbox entries).map Record.revision := by
    intro e he hp
    rw [map_append, mem_append, mem_discover]
    by_cases hm : e.revision ∈ f.inbox.map Record.revision
    · exact .inl hm
    · exact .inr ⟨hm, e, he, rfl, hp⟩
  have hnone : ∃ added, f.inbox = f.inbox ++ added ∧ (added.map Record.revision).Nodup ∧
      ∀ r ∈ added.map Record.revision, ¬ f.Has r ∧ ∃ e ∈ entries, e.revision = r ∧ (parse e.message).isSome = true :=
    ⟨[], by simp, by simp, by simp⟩
  unfold remember at h
  split at h
  · cases h
    exact ⟨rfl, hnone, by simp⟩
  · simp only at h
    split at h
    · rename_i hadd
      cases h
      rw [hadd, append_nil] at hall
      exact ⟨rfl, hnone, fun _ _ => hall⟩
    · cases save with
      | failed =>
        cases h
        exact ⟨rfl, hnone, by simp [Write.ok]⟩
      | done | unsynced =>
        cases h
        exact ⟨rfl, ⟨_, rfl, discover_nodup _ _ _ _, hnew⟩, fun _ _ => hall⟩

lemma advance_spec (h : f.lastSeen = some last) (c : Calls) :
    Advanced fetch f (advance repoID stamp fetch c f localRev).1 localRev last := by
  unfold advance
  split
  · exact Advanced.refl h
  · split
    · exact Advanced.refl h
    · rw [h]
      simp only
      split
      · exact Advanced.refl h
      · rename_i hlt
        split
        · exact Advanced.refl h
        · exact Advanced.refl h
        · split
          · rename_i f' e hr
            obtain ⟨hseen, happ, _⟩ := remember_spec hr
            exact { appends := happ, moves := .inl (hseen.trans h) }
          · rename_i f' added hr
            obtain ⟨hseen, happ, hall⟩ := remember_spec hr
            refine { appends := ?_, moves := ?_ }
            · simp only [saveLastSeen_inbox]
              exact happ
            · rcases saveLastSeen_lastSeen c.saveSeen f' localRev with hs | hs
              · exact .inl (hs.trans (hseen.trans h))
              · refine .inr ⟨not_le.mp hlt, hs, ?_⟩
                intro e he hp
                have := hall added rfl e he hp
                unfold Files.Has at this ⊢
                simpa only [saveLastSeen_inbox] using this

end FileES.Shout
