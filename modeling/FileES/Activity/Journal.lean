import FileES.Go.Path
import FileES.Lib.Durable
import FileES.Lib.Fallible
import FileES.Lib.Runs

/-! The feed of recent activity: which groups it keeps, and what of it is on disk. -/

namespace FileES.Activity

open Go Lib.Durable Lib.Fallible Lib.Runs List

/-- The text of a kind: none, one of the four kinds, or any other. -/
inductive Kind
  | unset
  | added
  | modified
  | deleted
  | renamed
  | other
  deriving DecidableEq

inductive Stage
  | detected
  | pending
  | publishing
  | published
  | received
  | reconciled
  | failed
  deriving DecidableEq

structure Entry where
  repoID : Str
  path : Str
  kind : Kind
  stage : Stage
  detectedAt : ℕ
  updatedAt : ℕ
  revision : ℤ
  errorID : Str
  size : Option ℤ
  deriving DecidableEq

structure GroupKey where
  repo : Str
  stage : Stage
  revision : ℤ
  errorID : Str
  deriving DecidableEq

def Entry.group (e : Entry) : GroupKey :=
  match e.stage with
  | .published | .received => ⟨e.repoID, e.stage, e.revision, []⟩
  | .failed => ⟨e.repoID, e.stage, 0, e.errorID⟩
  | _ => ⟨e.repoID, e.stage, 0, []⟩

structure Selection where
  selected : List GroupKey
  receivedGroups : ℕ
  otherGroups : ℕ
  result : List Entry

def Selection.select (limit : ℕ) (s : Selection) (e : Entry) : Selection :=
  if e.group ∈ s.selected then s
  else if e.stage = .received ∧ s.receivedGroups < limit then
    { s with selected := e.group :: s.selected, receivedGroups := s.receivedGroups + 1 }
  else if e.stage ≠ .received ∧ s.otherGroups < limit then
    { s with selected := e.group :: s.selected, otherGroups := s.otherGroups + 1 }
  else s

def Selection.next (limit : ℕ) (s : Selection) (e : Entry) : Selection :=
  let s := s.select limit e
  if e.group ∈ s.selected then { s with result := s.result ++ [e] } else s

def defaultLimit : ℕ := 20

def groupLimit (limit : ℤ) : ℕ := if limit ≤ 0 then defaultLimit else limit.toNat

def limitGroups (entries : List Entry) (limit : ℤ) : List Entry :=
  (entries.foldl (Selection.next (groupLimit limit)) ⟨[], 0, 0, []⟩).result

def Entry.isReceived (e : Entry) : Bool := e.stage = .received

/-- The groups of received entries, or those of the others, in order of first appearance. -/
def groups (b : Bool) (l : List Entry) : List GroupKey := ((l.filter (·.isReceived = b)).map Entry.group).reverse.dedup.reverse

variable {e e' : Entry} {l : List Entry} {k : GroupKey} {b : Bool} {n : ℕ} {s : Selection}

lemma group_stage : e.group.stage = e.stage := by
  rw [Entry.group]
  split <;> rfl

lemma isReceived_eq (h : e.group = e'.group) : e.isReceived = e'.isReceived := by
  rw [Entry.isReceived, Entry.isReceived, ← group_stage, h, group_stage]

lemma mem_groups : k ∈ groups b l ↔ ∃ e ∈ l, e.isReceived = b ∧ e.group = k := by simp [groups, and_assoc]

lemma groups_snoc (e : Entry) (b : Bool) :
    groups b (l ++ [e]) = groups b l ++ if e.isReceived = b ∧ e.group ∉ groups b l then [e.group] else [] := by
  by_cases hb : e.isReceived = b
  · by_cases hmem : e.group ∈ groups b l <;> simp_all [groups, dedup_cons_of_mem, dedup_cons_of_notMem]
  · simp [groups, filter_append, hb]

def Selection.count (s : Selection) (b : Bool) : ℕ := if b then s.receivedGroups else s.otherGroups

lemma count_isReceived : s.count e.isReceived = if e.stage = .received then s.receivedGroups else s.otherGroups := by
  simp [Selection.count, Entry.isReceived]

lemma next_old (h : e.group ∈ s.selected) : s.next n e = { s with result := s.result ++ [e] } := by
  simp [Selection.next, Selection.select, h]

lemma next_new (h : e.group ∉ s.selected) (hn : s.count e.isReceived < n) :
    (s.next n e).selected = e.group :: s.selected ∧ (s.next n e).result = s.result ++ [e] ∧
      ∀ b, (s.next n e).count b = s.count b + if e.isReceived = b then 1 else 0 := by
  rw [count_isReceived] at hn
  split at hn <;> rename_i hrec <;>
    simp [Selection.next, Selection.select, Selection.count, Entry.isReceived, h, hrec, hn, Bool.forall_bool]

lemma next_full (h : e.group ∉ s.selected) (hn : ¬ s.count e.isReceived < n) : s.next n e = s := by
  rw [count_isReceived] at hn
  split at hn <;> rename_i hrec <;> simp [Selection.next, Selection.select, h, hrec, hn]

structure Selects (n : ℕ) (l : List Entry) (s : Selection) : Prop where
  count : ∀ b, s.count b = ((groups b l).take n).length
  selected : ∀ e : Entry, e.group ∈ s.selected ↔ e.group ∈ (groups e.isReceived l).take n
  result : s.result = l.filter (·.group ∈ s.selected)

lemma Selects.next (h : Selects n l s) (e : Entry) : Selects n (l ++ [e]) (s.next n e) := by
  have hlen := h.count e.isReceived
  rw [length_take] at hlen
  have hsame : e.group ∈ groups e.isReceived l ∨ n ≤ (groups e.isReceived l).length →
      ∀ b, (groups b (l ++ [e])).take n = (groups b l).take n := by
    intro hor b
    rw [groups_snoc]
    split
    · rename_i hb
      obtain ⟨rfl, hnew⟩ := hb
      rw [take_append_of_le_length (hor.resolve_left hnew)]
    · rw [append_nil]
  by_cases hsel : e.group ∈ s.selected
  · have hsame := hsame (.inl (mem_of_mem_take ((h.selected e).mp hsel)))
    rw [next_old hsel]
    refine ⟨fun b => (h.count b).trans (by rw [hsame]), by simpa only [hsame] using h.selected, ?_⟩
    rw [filter_append, ← h.result, filter_cons_of_pos (by simpa using hsel), filter_nil]
  by_cases hn : s.count e.isReceived < n
  · -- all groups of its class have been kept so far, so the group is new
    obtain ⟨hselected, hresult, hcount⟩ := next_new hsel hn
    have hnew : e.group ∉ groups e.isReceived l := by rwa [h.selected, take_of_length_le (by omega)] at hsel
    refine ⟨fun b => ?_, fun e' => ?_, ?_⟩
    · rw [hcount, h.count, groups_snoc]
      by_cases hb : e.isReceived = b
      · subst hb
        simp [hnew]
        omega
      · simp [hb]
    · rw [hselected, groups_snoc, mem_cons, h.selected]
      by_cases hb : e.isReceived = e'.isReceived
      · rw [← hb, if_pos ⟨rfl, hnew⟩, take_of_length_le (by omega), take_of_length_le (by simp; omega)]
        simp [or_comm]
      · rw [if_neg (fun h => hb h.1), append_nil, or_iff_right (fun heq => hb (isReceived_eq heq.symm))]
    · rw [hselected, hresult, filter_append, h.result]
      congr 1
      · refine filter_congr (fun e' he' => ?_)
        have hne : e'.group ≠ e.group := fun heq => hnew (mem_groups.mpr ⟨e', he', isReceived_eq heq, heq⟩)
        simp [hne]
      · simp
  · have hsame := hsame (.inr (by omega))
    rw [next_full hsel hn]
    refine ⟨by simpa only [hsame] using h.count, by simpa only [hsame] using h.selected, ?_⟩
    rw [filter_append, ← h.result, filter_cons_of_neg (by simpa using hsel), filter_nil, append_nil]

lemma selects (n : ℕ) (l : List Entry) : Selects n l (l.foldl (Selection.next n) ⟨[], 0, 0, []⟩) := by
  induction l using List.reverseRecOn with
  | nil => exact ⟨by simp [Selection.count, groups], by simp [groups], rfl⟩
  | append_singleton l e ih =>
    rw [foldl_append]
    exact ih.next e

lemma limitGroups_eq (l : List Entry) (limit : ℤ) :
    limitGroups l limit = l.filter (fun e => e.group ∈ (groups e.isReceived l).take (groupLimit limit)) := by
  have h := selects (groupLimit limit) l
  refine h.result.trans (filter_congr (fun e _ => ?_))
  rw [decide_eq_decide]
  exact h.selected e

/-- A limit that is not positive stands for the default one. -/
theorem limitGroups_keeps_first_groups (l : List Entry) (limit : ℤ) :
    limitGroups l limit <+ l ∧
    (∀ k, (limitGroups l limit).filter (·.group = k) = l.filter (·.group = k) ∨ ∀ e ∈ limitGroups l limit, e.group ≠ k) ∧
    (∀ e, e ∈ limitGroups l limit ↔ e ∈ l ∧ e.group ∈ (groups e.isReceived l).take (groupLimit limit)) ∧
    limitGroups (limitGroups l limit) limit = limitGroups l limit := by
  have heq := limitGroups_eq l limit
  have hmem : ∀ e, e ∈ limitGroups l limit ↔ e ∈ l ∧ e.group ∈ (groups e.isReceived l).take (groupLimit limit) := by
    intro e
    rw [heq, mem_filter, decide_eq_true_eq]
  refine ⟨heq ▸ filter_sublist, fun k => ?_, hmem, ?_⟩
  · by_cases hk : ∃ e ∈ limitGroups l limit, e.group = k
    · obtain ⟨e, he, rfl⟩ := hk
      refine .inl ?_
      rw [heq, filter_filter]
      refine filter_congr (fun e' _ => ?_)
      by_cases hg : e'.group = e.group
      · simp [hg, isReceived_eq hg, ((hmem e).mp he).2]
      · simp [hg]
    · exact .inr (fun e he heq => hk ⟨e, he, heq⟩)
  · -- the groups that are left are no more than the limit
    rw [limitGroups_eq, filter_eq_self]
    intro e he
    have hsub : groups e.isReceived (limitGroups l limit) ⊆ (groups e.isReceived l).take (groupLimit limit) := by
      intro k hk
      obtain ⟨e', he', hb, rfl⟩ := mem_groups.mp hk
      exact hb ▸ ((hmem e').mp he').2
    have hnodup : (groups e.isReceived (limitGroups l limit)).Nodup := nodup_reverse.mpr (nodup_dedup _)
    rw [take_of_length_le ((hnodup.subperm hsub).length_le.trans (length_take_le _ _)), decide_eq_true_eq]
    exact mem_groups.mpr ⟨e, he, rfl, rfl⟩

def sampleEntry (stage : Stage) (revision : ℤ) (detectedAt : ℕ) : Entry :=
  ⟨"repo", "a.txt", .added, stage, detectedAt, detectedAt, revision, [], none⟩

theorem limit_zero_keeps_groups :
    limitGroups [sampleEntry .detected 0 1] 0 = [sampleEntry .detected 0 1] ∧
      (groups false [sampleEntry .detected 0 1]).take 0 = [] :=
  ⟨by decide +kernel, rfl⟩

def Entry.key (e : Entry) : Str := e.repoID ++ '\x00' :: clean e.path

def validateResult (e : Entry) : Except Str Unit := do
  require (trimSpace e.repoID ≠ [] && e.path ≠ [] && !isAbs e.path && clean e.path ≠ "." && !hasPrefix (clean e.path) "../")
    "activity repository and relative path are required"
  require (e.kind ≠ .unset && e.kind ≠ .other) "activity kind is invalid"
  match e.stage with
  | .detected | .pending | .publishing =>
    require (e.revision = 0 && e.errorID = []) "unfinished activity cannot have a result"
  | .published | .received => require (0 < e.revision && e.errorID = []) "published activity requires a revision"
  | .reconciled => require (e.revision = 0 && e.errorID = []) "reconciled activity cannot claim a commit"
  | .failed => require (trimSpace e.errorID ≠ [] && e.revision = 0) "failed activity requires an error ID"

def validate (e : Entry) : Except Str Unit := do
  validateResult e
  require (e.detectedAt ≠ 0 && e.detectedAt ≤ e.updatedAt) "activity timestamps are invalid"
  require (e.size.all (0 ≤ ·)) "activity size is invalid"

/-- `behind` is history: the last write that was tried has not replaced the file. -/
structure Journal where
  entries : List Entry
  file : List Entry
  behind : Bool

def put (rows : List Entry) (e : Entry) : List Entry := e :: rows.filter (·.key ≠ e.key)

def sorted (rows : List Entry) : List Entry :=
  rows.insertionSort (fun a b => if a.updatedAt = b.updatedAt then a.key < b.key else b.updatedAt < a.updatedAt)

variable (limit : ℤ)

def trim (rows : List Entry) : List Entry := limitGroups (sorted rows) limit

def load (file : List Entry) : Except Str (List Entry) := do
  let _ ← file.mapM validate
  pure (trim limit (file.foldl put []))

def completed (old e : Entry) : Entry :=
  { e with
    detectedAt := if e.detectedAt = 0 then old.detectedAt else e.detectedAt
    kind := if e.kind = .unset then old.kind else e.kind
    size := if e.size = none then old.size else e.size }

def replays (old e : Entry) : Bool :=
  e.stage = .published && old.stage = .published && e.revision = old.revision && e.kind = old.kind &&
    e.errorID = old.errorID && e.detectedAt = old.detectedAt && e.size = old.size

def stamped (now : ℕ) (e : Entry) : Entry :=
  { e with detectedAt := if e.detectedAt = 0 then now else e.detectedAt, updatedAt := now }

def pending (now : ℕ) (rows : List Entry) (e : Entry) : Option Entry :=
  match rows.find? (·.key = e.key) with
  | none => some (stamped now e)
  | some old => if replays old (completed old e) then none else some (stamped now (completed old e))

def persist (w : Write) (j : Journal) (rows : List Entry) : Except Str Unit × Journal :=
  (require w.ok "activity journal is not written", ⟨rows, w.store j.file (sorted rows), !w.landed⟩)

def record (now : ℕ) (w : Write) (j : Journal) (e : Entry) : Except Str Unit × Journal :=
  match pending now j.entries e with
  | none => (.ok (), j)
  | some row =>
    match validate row with
    | .error m => (.error m, j)
    | .ok _ => persist w j (trim limit (put j.entries row))

structure Item where
  rel : Str
  kind : Kind

def Item.published (repoID : Str) (revision : ℤ) (it : Item) : Entry :=
  ⟨repoID, it.rel, it.kind, .published, 0, 0, revision, [], none⟩

/-- The confirmed phase: each item with the reading of the clock and the write that its record takes. -/
def recordIntentPublishedActivity (repoID : Str) (revision : ℤ) :
    List (Item × ℕ × Write) → Journal → Except Str Unit × Journal
  | [], j => (.ok (), j)
  | (it, now, w) :: items, j =>
    match record limit now w j (it.published repoID revision) with
    | (.ok _, j) => recordIntentPublishedActivity repoID revision items j
    | (.error m, j) => (.error m, j)

inductive Event
  | record (now : ℕ) (e : Entry) (w : Write)
  | restart

def step (j : Journal) : Event → Journal
  | .record now e w => (record limit now w j e).2
  | .restart =>
    match load limit j.file with
    | .error _ => j
    | .ok rows => ⟨rows, j.file, false⟩

def start : Journal := ⟨[], [], false⟩

variable {limit} {now t : ℕ} {w : Write} {j : Journal} {row : Entry} {rows : List Entry}

lemma mem_sorted : row ∈ sorted rows ↔ row ∈ rows := (perm_insertionSort _ _).mem_iff

lemma mem_of_mem_trim (h : row ∈ trim limit rows) : row ∈ rows := by
  rw [trim, limitGroups_eq] at h
  exact mem_sorted.mp (mem_of_mem_filter h)

lemma mem_of_mem_put (h : row ∈ put rows e) : row = e ∨ row ∈ rows := (mem_cons.mp h).imp_right mem_of_mem_filter

lemma mem_of_mem_load (h : load limit l = .ok rows) (hrow : row ∈ rows) : row ∈ l := by
  obtain ⟨_, _, heq⟩ := bind_ok.mp h
  obtain rfl := Except.ok.inj heq
  have hfrom : ∀ (l rows : List Entry), row ∈ l.foldl put rows → row ∈ rows ∨ row ∈ l := by
    intro l
    induction l with
    | nil => exact fun _ => .inl
    | cons e l ih =>
      intro rows h
      rcases ih (put rows e) h with hrow | hrow
      · rcases mem_of_mem_put hrow with rfl | hrow
        · exact .inr mem_cons_self
        · exact .inl hrow
      · exact .inr (mem_cons_of_mem _ hrow)
  exact (hfrom l [] (mem_of_mem_trim hrow)).resolve_left not_mem_nil

lemma record_cases (limit : ℤ) (now : ℕ) (w : Write) (j : Journal) (e : Entry) :
    (pending now j.entries e = none ∧ record limit now w j e = (.ok (), j)) ∨
    (∃ row m, pending now j.entries e = some row ∧ validate row = .error m ∧ record limit now w j e = (.error m, j)) ∨
    ∃ row, pending now j.entries e = some row ∧ validate row = .ok () ∧
      record limit now w j e = persist w j (trim limit (put j.entries row)) := by
  rw [record]
  cases hp : pending now j.entries e with
  | none => exact .inl ⟨rfl, rfl⟩
  | some row =>
    cases hv : validate row with
    | error m => exact .inr (.inl ⟨row, m, rfl, hv, by simp only [hv]⟩)
    | ok u => exact .inr (.inr ⟨row, rfl, hv, by simp only [hv]⟩)

lemma pending_cases (h : pending now rows e = some row) :
    row = stamped now e ∨ ∃ old ∈ rows, row = stamped now (completed old e) := by
  rw [pending] at h
  split at h
  · exact .inl (Option.some.inj h).symm
  · rename_i old hold
    split at h
    · cases h
    · exact .inr ⟨old, mem_of_find?_eq_some hold, (Option.some.inj h).symm⟩

/-- The row says what the entry says, where the entry leaves nothing open. -/
def Carries (row e : Entry) : Prop :=
  row.key = e.key ∧ row.stage = e.stage ∧ row.revision = e.revision ∧ row.errorID = e.errorID ∧
    (e.kind = .unset ∨ row.kind = e.kind) ∧ (e.detectedAt = 0 ∨ row.detectedAt = e.detectedAt) ∧
    (e.size = none ∨ row.size = e.size)

lemma carries_pending (h : pending now rows e = some row) : Carries row e ∧ row.group = e.group := by
  rcases pending_cases h with rfl | ⟨old, _, rfl⟩
  all_goals
    refine ⟨⟨rfl, rfl, rfl, rfl, ?_⟩, rfl⟩
    grind [stamped, completed]

lemma carries_replayed (h : pending now rows e = none) : ∃ old ∈ rows, Carries old e := by
  rw [pending] at h
  split at h
  · cases h
  · rename_i old hold
    split at h
    · rename_i hreplay
      refine ⟨old, mem_of_find?_eq_some hold, by simpa using find?_some hold, ?_⟩
      grind [replays, completed]
    · cases h

def Synced (j : Journal) : Prop := j.behind = false → ∀ row ∈ j.entries, row ∈ j.file

lemma synced_persist (h : w.landed = true) : ∀ row ∈ (persist w j rows).2.entries, row ∈ (persist w j rows).2.file := by
  intro row hrow
  rw [persist, Write.store, if_pos h]
  exact mem_sorted.mpr hrow

lemma synced_step (h : Synced j) (ev : Event) : Synced (step limit j ev) := by
  cases ev with
  | record now e w =>
    rw [step]
    rcases record_cases limit now w j e with ⟨_, heq⟩ | ⟨_, _, _, _, heq⟩ | ⟨row, _, _, heq⟩ <;> rw [heq]
    · exact h
    · exact h
    · exact fun hb => synced_persist (by simpa [persist] using hb)
  | restart =>
    rw [step]
    split
    · exact h
    · rename_i hload
      exact fun _ row hrow => mem_of_mem_load hload hrow

/-- No publication is repeated while the last write has failed. -/
def Prompt (j : Journal) : Event → Prop
  | .record now e _ => pending now j.entries e = none → j.behind = false
  | .restart => True

instance (j : Journal) : (ev : Event) → Decidable (Prompt j ev)
  | .record now e _ => inferInstanceAs (Decidable (pending now j.entries e = none → j.behind = false))
  | .restart => isTrue trivial

/-- The entry is on disk or its group is not kept, and nothing is in memory only. -/
def Stored (e : Entry) (j : Journal) : Prop :=
  ((∃ row ∈ j.file, Carries row e) ∨ ∀ row ∈ j.file, row.group ≠ e.group) ∧ ∀ row ∈ j.entries, row ∈ j.file

def samplePublished : Event := .record 5 (sampleEntry .published 7 0) .done

def Sound (t : ℕ) (j : Journal) : Prop :=
  ∀ row, row ∈ j.entries ∨ row ∈ j.file → validate row = .ok () ∧ row.updatedAt ≤ t

lemma sound_record (h : Sound t j) (hle : t ≤ now) : Sound now (record limit now w j e).2 := by
  have hnow : Sound now j := fun row hrow => ⟨(h row hrow).1, (h row hrow).2.trans hle⟩
  rcases record_cases limit now w j e with ⟨_, heq⟩ | ⟨_, _, _, _, heq⟩ | ⟨row, hrow, hvalid, heq⟩ <;> rw [heq]
  · exact hnow
  · exact hnow
  · have hnew : ∀ row' ∈ trim limit (put j.entries row), validate row' = .ok () ∧ row'.updatedAt ≤ now := by
      intro row' hrow'
      rcases mem_of_mem_put (mem_of_mem_trim hrow') with rfl | hold
      · refine ⟨hvalid, ?_⟩
        rcases pending_cases hrow with rfl | ⟨_, _, rfl⟩ <;> exact le_rfl
      · exact hnow row' (.inl hold)
    rintro row' (hrow' | hrow')
    · exact hnew row' hrow'
    · rw [persist, Write.store] at hrow'
      split at hrow'
      · exact hnew row' (mem_sorted.mp hrow')
      · exact hnow row' (.inr hrow')

def readings (es : List Event) : List ℕ :=
  es.filterMap (fun | .record now _ _ => some now | .restart => none)

lemma sound_run {rest : List ℕ} (es : List Event) (h : Sound t j) (hclock : (t :: (readings es ++ rest)).Pairwise (· ≤ ·)) :
    ∃ t', Sound t' (run (step limit) j es) ∧ (t' :: rest).Pairwise (· ≤ ·) := by
  induction es generalizing j t with
  | nil => exact ⟨t, h, hclock⟩
  | cons ev es ih =>
    cases ev with
    | record now e w =>
      obtain ⟨hle, hclock⟩ := pairwise_cons.mp hclock
      exact ih (sound_record h (hle now mem_cons_self)) hclock
    | restart =>
      refine ih ?_ hclock
      rw [step]
      split
      · exact h
      · rename_i hload
        exact fun row hrow => h row (.inr (hrow.elim (mem_of_mem_load hload) id))

variable {repoID : Str} {revision : ℤ} {it : Item}

lemma record_published (h : Sound t j) (hle : t ≤ now) (hpos : 0 < now)
    (hvalid : validateResult (it.published repoID revision) = .ok ()) :
    (record limit now .done j (it.published repoID revision)).1 = .ok () := by
  have hkind : it.kind ≠ .unset := by
    obtain ⟨_, _, _, hkind, _⟩ := bind₂_ok.mp hvalid
    rw [require_ok, Bool.and_eq_true, decide_eq_true_eq] at hkind
    exact hkind.1
  rcases record_cases limit now .done j (it.published repoID revision) with ⟨_, heq⟩ | ⟨row, m, hrow, hv, heq⟩ | ⟨row, _, _, heq⟩
  · rw [heq]
  · have hok : validate row = .ok () := by
      rcases pending_cases hrow with rfl | ⟨old, hold, rfl⟩
      · refine bind₂_ok.mpr ⟨(), hvalid, (), require_ok.mpr ?_, rfl⟩
        simp [stamped, Item.published, hpos.ne']
      · obtain ⟨hold, hup⟩ := h old (.inl hold)
        obtain ⟨_, _, _, htimes, hsize⟩ := bind₂_ok.mp hold
        rw [require_ok, Bool.and_eq_true, decide_eq_true_eq, decide_eq_true_eq] at htimes
        refine bind₂_ok.mpr ⟨(), ?_, (), require_ok.mpr ?_, ?_⟩
        · obtain ⟨rel, kind⟩ := it
          cases kind <;> first | exact hvalid | exact absurd rfl hkind
        · simp only [completed, stamped, Item.published, if_true, if_neg htimes.1]
          simp
          omega
        · simpa [completed, stamped, Item.published] using hsize
    rw [hok] at hv
    cases hv
  · rw [heq]
    rfl

/-- While the clock is not set back, the journal refuses no publication of valid items that it can write. -/
theorem publication_is_recorded (limit : ℤ) (repoID : Str) (revision : ℤ) (es : List Event) (items : List (Item × ℕ × Write))
    (hclock : (readings es ++ items.map (·.2.1)).Pairwise (· ≤ ·))
    (hitems : ∀ it ∈ items, validateResult (it.1.published repoID revision) = .ok () ∧ 0 < it.2.1 ∧ it.2.2 = .done) :
    (recordIntentPublishedActivity limit repoID revision items (run (step limit) start es)).1 = .ok () := by
  obtain ⟨t, hsound, htimes⟩ : ∃ t, Sound t (run (step limit) start es) ∧ (t :: items.map (·.2.1)).Pairwise (· ≤ ·) :=
    sound_run (t := 0) es (by rintro row (hrow | hrow) <;> cases hrow) (pairwise_cons.mpr ⟨fun _ _ => Nat.zero_le _, hclock⟩)
  generalize run (step limit) start es = j at hsound
  clear hclock
  induction items generalizing t j with
  | nil => rfl
  | cons it items ih =>
    obtain ⟨it, now, w⟩ := it
    obtain ⟨⟨hvalid, hpos, rfl⟩, hrest⟩ := forall_mem_cons.mp hitems
    obtain ⟨hle, htimes⟩ := pairwise_cons.mp htimes
    have hnow := hle now mem_cons_self
    have hok : (record limit now .done j (it.published repoID revision)).1 = .ok () :=
      record_published hsound hnow hpos hvalid
    have hnext : Sound now (record limit now .done j (it.published repoID revision)).2 := sound_record hsound hnow
    rw [recordIntentPublishedActivity]
    generalize record limit now .done j (it.published repoID revision) = x at hok hnext
    obtain ⟨r, j'⟩ := x
    subst hok
    exact ih hrest now htimes j' hnext

theorem sample_publication_is_recorded : (recordIntentPublishedActivity 20 "repo" 7 [(⟨"a.txt", .added⟩, 9, .done)]
    (run (step 20) start [.record 5 (sampleEntry .detected 0 0) .done])).1 = .ok () :=
  publication_is_recorded 20 "repo" 7 [.record 5 (sampleEntry .detected 0 0) .done] [(⟨"a.txt", .added⟩, 9, .done)]
    (by decide) (forall_mem_singleton.mpr ⟨by decide +kernel, by decide, rfl⟩)

/-- The clock is set back after the path was detected. -/
theorem publication_refused_after_clock_step :
    (recordIntentPublishedActivity 20 "repo" 7 [(⟨"a.txt", .added⟩, 5, .done)]
      (step 20 start (.record 9 (sampleEntry .detected 0 0) .done))).1 = .error "activity timestamps are invalid" := by
  decide +kernel

end FileES.Activity
