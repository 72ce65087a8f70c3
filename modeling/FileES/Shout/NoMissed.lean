import FileES.Shout.Inbox
import FileES.Lib.Runs

/-! One installation's shouts against the repository's log: other installations commit, this one publishes, finishes
its publications and scans after updates. -/

namespace FileES.Shout

open Go Lib Lib.Durable Option

structure Commit where
  own : Bool
  message : Str
  deriving DecidableEq, Repr

structure Publication where
  comment : Str
  revision : ℤ
  durable : Bool
  deriving DecidableEq, Repr

structure Installation where
  files : Files
  log : List Commit
  pending : Option Publication := none
  puts : List ℤ := []

def autoMessage (uid : Str) (paths : ℕ) : Str :=
  "Auto-commit by FileES client " ++ uid ++ ": " ++ (toString paths).toList ++ " paths"

def commitMessage (uid : Str) (paths : ℕ) (comment : Str) : Str :=
  if comment = [] then autoMessage uid paths else format comment

inductive Event
  | foreign (message : Str)
  | publish (uid : Str) (paths : ℕ) (comment : Str) (durable : Bool)
  | finish (loaded : Bool) (save : Write) (done : Bool)
  | confirm (exactReceipt : Bool) (save : Write)
  | restart
  | advance (stamp : Str) (localRev : ℤ) (calls : Calls)
  | ack (noticeID : Str) (readable : Bool) (save : Write)

variable (repoID : Str)

variable (s : Installation)

def Installation.head : ℤ := s.log.length

def Installation.fetch (fromRev toRev : ℤ) : List LogEntry :=
  if fromRev < 1 || toRev < fromRev then []
  else
    (s.log.zipIdx.map (fun c => ({ revision := (c.2 : ℤ) + 1, message := c.1.message } : LogEntry))).filter
      (fun e => fromRev ≤ e.revision && e.revision ≤ toRev)

def finishShout (loaded : Bool) (save : Write) (f : Files) (p : Publication) : Files × Except Fault Unit :=
  if p.comment = [] then (f, .ok ())
  else if !loaded then (f, .error .io)
  else
    match f.lastSeen with
    | none => saveLastSeen save f p.revision
    | some seen => if seen < p.revision then saveLastSeen save f p.revision else (f, .ok ())

def Installation.finish (loaded : Bool) (save : Write) (done : Bool) (p : Publication) :
    Installation :=
  match finishShout loaded save s.files p with
  | (f, .error _) => { s with files := f }
  | (f, .ok _) => { s with files := f, pending := if done then none else s.pending }

def Installation.confirmed (exactReceipt : Bool) (p : Publication) : ℤ :=
  if exactReceipt then p.revision else s.head

def Installation.confirm (exactReceipt : Bool) (save : Write) (p : Publication) : Installation :=
  { s with
    files := if p.comment = [] then s.files else (saveLastSeen save s.files (s.confirmed exactReceipt p)).1
    pending := none }

def Installation.scan (stamp : Str) (localRev : ℤ) (calls : Calls) : Installation :=
  let f := (Shout.advance repoID stamp s.fetch calls s.files localRev).1
  { s with files := f, puts := s.puts ++ (f.inbox.drop s.files.inbox.length).map Record.revision }

def Installation.step : Event → Installation
  | .foreign message => { s with log := s.log ++ [{ own := false, message := message }] }
  | .publish uid paths comment durable =>
    if s.pending.isSome then s
    else
      { s with
        log := s.log ++ [{ own := true, message := commitMessage uid paths comment }]
        pending := some { comment := comment, revision := s.head + 1, durable := durable } }
  | .finish loaded save done =>
    match s.pending with
    | some p => if p.durable then s.finish loaded save done p else s
    | none => s
  | .confirm exactReceipt save =>
    match s.pending with
    | some p => if p.durable then s else s.confirm exactReceipt save p
    | none => s
  | .restart => { s with pending := s.pending.filter Publication.durable }
  | .advance stamp localRev calls =>
    if s.pending.isSome || s.head < localRev then s else s.scan repoID stamp localRev calls
  | .ack noticeID readable save => { s with files := (Shout.ack noticeID readable save s.files).1 }

def Installation.ForeignShout (r : ℤ) : Prop :=
  ∃ (i : ℕ) (c : Commit), s.log[i]? = some c ∧ r = i + 1 ∧ c.own = false ∧ (parse c.message).isSome = true

def Installation.Delivered (b : ℤ) (s : Installation) : Prop :=
  ∀ l, s.files.lastSeen = some l → ∀ r, b < r → r ≤ l → s.ForeignShout r → s.puts.count r = 1

def Installation.jump : Event → Option ℤ
  | .finish loaded save _ =>
    match s.pending, s.files.lastSeen with
    | some p, some seen =>
      if p.durable && p.comment ≠ [] && loaded && seen < p.revision && save.landed then some p.revision else none
    | _, _ => none
  | .confirm exactReceipt save =>
    match s.pending with
    | some p => if !p.durable && p.comment ≠ [] && save.landed then some (s.confirmed exactReceipt p) else none
    | none => none
  | _ => none

/-- The step passes over no foreign shout above `last_seen` that is not in the inbox already. -/
def Installation.Scanned (e : Event) : Prop :=
  ∀ R, s.jump e = some R → ∀ l, s.files.lastSeen = some l → ∀ r, l < r → r ≤ R → s.ForeignShout r → s.files.Has r

/-- Acknowledging a notice drops no record above `last_seen` from the inbox. -/
def Installation.KeepsUnseen : Event → Prop
  | .ack noticeID readable save =>
    ∀ l, s.files.lastSeen = some l → ∀ r, l < r → s.files.Has r → (Shout.ack noticeID readable save s.files).1.Has r
  | _ => True

structure Installation.Sound (b : ℤ) (s : Installation) : Prop where
  base : 0 ≤ b
  seen : ∃ l, s.files.lastSeen = some l ∧ b ≤ l ∧ l ≤ s.head
  landed : ∀ p, s.pending = some p → p.revision ≤ s.head
  ahead : ∀ p, s.pending = some p → p.durable = false → ∀ l, s.files.lastSeen = some l → l < p.revision
  once : s.puts.Nodup
  kept : ∀ r ∈ s.puts, ∀ l, s.files.lastSeen = some l → l < r → s.files.Has r
  known : ∀ r, s.files.Has r → b < r → r ∈ s.puts

open Installation

variable {s s' : Installation} {b l r R : ℤ}

lemma mem_fetch {e : LogEntry} {fromRev toRev : ℤ} (h : 1 ≤ fromRev) : e ∈ s.fetch fromRev toRev ↔
      ∃ (i : ℕ) (c : Commit), s.log[i]? = some c ∧ e = { revision := i + 1, message := c.message } ∧
        fromRev ≤ (i : ℤ) + 1 ∧ (i : ℤ) + 1 ≤ toRev := by
  unfold fetch
  split
  · rename_i hout
    simp only [Bool.or_eq_true, decide_eq_true_eq] at hout
    simp only [List.not_mem_nil, false_iff]
    rintro ⟨i, c, _, _, _, _⟩
    omega
  · simp only [List.mem_filter, List.mem_map, Prod.exists, List.mem_zipIdx_iff_getElem?, Bool.and_eq_true,
      decide_eq_true_eq]
    constructor
    · rintro ⟨⟨c, i, hi, rfl⟩, hlo, hhi⟩
      exact ⟨i, c, hi, rfl, hlo, hhi⟩
    · rintro ⟨i, c, hi, rfl, hlo, hhi⟩
      exact ⟨⟨c, i, hi, rfl⟩, hlo, hhi⟩

variable {more : List Commit} {e : Event} {p : Publication}

lemma foreignShout_append (hl : s'.log = s.log ++ more) (h : r ≤ s.head) :
    s'.ForeignShout r ↔ s.ForeignShout r := by
  unfold ForeignShout
  rw [hl]
  constructor
  · rintro ⟨i, c, hi, rfl, hc⟩
    have hlt : i < s.log.length := by
      unfold head at h
      omega
    rw [List.getElem?_append_left hlt] at hi
    exact ⟨i, c, hi, rfl, hc⟩
  · rintro ⟨i, c, hi, rfl, hc⟩
    refine ⟨i, c, ?_, rfl, hc⟩
    rw [List.getElem?_append_left (List.getElem?_eq_some_iff.mp hi).1]
    exact hi

section

variable (h : s.Sound b) (hl : s'.log = s.log ++ more) (hf : s'.files = s.files) (hq : s'.puts = s.puts)
include h hl hf hq

lemma Installation.Sound.grow (hland : ∀ p, s'.pending = some p → p.revision ≤ s'.head)
    (hahead : ∀ p, s'.pending = some p → p.durable = false → ∀ l, s.files.lastSeen = some l → l < p.revision) :
    s'.Sound b where
  base := h.base
  seen := by
    obtain ⟨l, hs, hb, hh⟩ := h.seen
    refine ⟨l, by rw [hf]; exact hs, hb, hh.trans ?_⟩
    simp [head, hl]
  landed := hland
  ahead := by
    rw [hf]
    exact hahead
  once := by
    rw [hq]
    exact h.once
  kept := by
    rw [hq, hf]
    exact h.kept
  known := by
    rw [hq, hf]
    exact h.known

lemma delivered_grow (hd : s.Delivered b) : s'.Delivered b := by
  intro l hs r hb hr hfs
  rw [hf] at hs
  obtain ⟨l', hs', _, hh⟩ := h.seen
  obtain rfl := mem_unique hs hs'
  rw [hq]
  exact hd l hs r hb hr ((foreignShout_append hl (hr.trans hh)).mp hfs)

end

lemma Installation.Sound.jump (h : s.Sound b) (hl : s'.log = s.log) (hi : s'.files.inbox = s.files.inbox)
    (hq : s'.puts = s.puts) (hs : s'.files.lastSeen = some R) (hlt : ∀ l, s.files.lastSeen = some l → l < R)
    (hR : R ≤ s.head) (hp : ∀ p, s'.pending = some p → s.pending = some p ∧ p.durable = true) : s'.Sound b := by
  obtain ⟨l, hs', hb, hh⟩ := h.seen
  have hhas : ∀ r, s'.files.Has r ↔ s.files.Has r := by
    intro r
    unfold Files.Has
    rw [hi]
  have hhead : s'.head = s.head := by
    unfold head
    rw [hl]
  exact {
    base := h.base
    seen := ⟨R, hs, hb.trans (hlt l hs').le, hhead ▸ hR⟩
    landed := fun p hp' => hhead ▸ h.landed p (hp p hp').1
    ahead := fun p hp' hd => absurd (hp p hp').2 (by simp [hd])
    once := hq ▸ h.once
    kept := by
      rintro r hr l₁ hl₁ hlr
      obtain rfl := mem_unique hs hl₁
      exact (hhas r).mpr (h.kept r (hq ▸ hr) l hs' ((hlt l hs').trans hlr))
    known := by
      intro r hr hbr
      rw [hq]
      exact h.known r ((hhas r).mp hr) hbr }

lemma delivered_jump_iff (h : s.Sound b) (hd : s.Delivered b) (hl : s'.log = s.log) (hq : s'.puts = s.puts)
    (hs : s'.files.lastSeen = some R) (hsl : s.files.lastSeen = some l) :
    s'.Delivered b ↔ ∀ r, l < r → r ≤ R → s.ForeignShout r → s.files.Has r := by
  have hfs : ∀ r, s'.ForeignShout r ↔ s.ForeignShout r := by
    intro r
    unfold ForeignShout
    rw [hl]
  obtain ⟨l', hs', hb, hh⟩ := h.seen
  obtain rfl := mem_unique hsl hs'
  constructor
  · intro hd' r hlr hrR hf
    have hc := hd' R hs r (by omega) hrR ((hfs r).mpr hf)
    rw [hq] at hc
    exact h.kept r (List.count_pos_iff.mp (by omega)) l hsl hlr
  · intro hin l₁ hl₁ r hbr hrl hf
    obtain rfl := mem_unique hs hl₁
    rw [hq]
    by_cases hle : r ≤ l
    · exact hd l hsl r hbr hle ((hfs r).mp hf)
    · exact List.count_eq_one_of_mem h.once (h.known r (hin r (not_le.mp hle) hrl ((hfs r).mp hf)) hbr)

lemma Installation.Sound.scanned (h : s.Sound b) {f : Files} {localRev : ℤ} (hloc : localRev ≤ s.head)
    (hs : s.files.lastSeen = some l) (ha : Advanced s.fetch s.files f localRev l) (hp : s.pending = none)
    (he : s' = { s with files := f, puts := s.puts ++ (f.inbox.drop s.files.inbox.length).map Record.revision }) :
    s'.Sound b ∧ (s.Delivered b → s'.Delivered b) := by
  have hb := h.base
  obtain ⟨l', hs', hbl, hlh⟩ := h.seen
  obtain rfl := mem_unique hs hs'
  obtain ⟨added, hin, hnd, hadd⟩ := ha.appends
  have hputs : s'.puts = s.puts ++ added.map Record.revision := by
    rw [he, hin]
    simp
  have hfiles : s'.files = f := by rw [he]
  have hnew : ∀ r ∈ added.map Record.revision, l < r := by
    intro r hr
    obtain ⟨_, e, hmem, rfl, _⟩ := hadd r hr
    obtain ⟨i, c, _, rfl, hlo, _⟩ := (mem_fetch (by omega)).mp hmem
    simp only
    omega
  have hhas : ∀ r, f.Has r ↔ s.files.Has r ∨ r ∈ added.map Record.revision := by
    intro r
    unfold Files.Has
    rw [hin, List.map_append, List.mem_append]
  have hlast : ∀ l₁, f.lastSeen = some l₁ → l ≤ l₁ := by
    intro l₁ hl₁
    rcases ha.moves with hm | ⟨hlt, hm, _⟩
    · exact (mem_unique hm hl₁).le
    · exact hlt.le.trans (mem_unique hm hl₁).le
  have hdisj : ∀ r ∈ added.map Record.revision, r ∉ s.puts := by
    intro r hr hput
    exact (hadd r hr).1 (h.kept r hput l hs (hnew r hr))
  have honce : s'.puts.Nodup := by
    rw [hputs, List.nodup_append]
    refine ⟨h.once, hnd, ?_⟩
    rintro r hr _ hr' rfl
    exact hdisj r hr' hr
  have hknown : ∀ r, f.Has r → b < r → r ∈ s'.puts := by
    intro r hr hbr
    rw [hputs, List.mem_append]
    exact ((hhas r).mp hr).imp (fun hold => h.known r hold hbr) id
  have hfs : ∀ r, s'.ForeignShout r ↔ s.ForeignShout r := by
    intro r
    rw [he]
    rfl
  refine ⟨{ base := hb, seen := ?_, landed := ?_, ahead := ?_, once := honce, kept := ?_, known := hfiles ▸ hknown }, ?_⟩
  · rw [hfiles]
    have hhead : s'.head = s.head := by rw [he]; rfl
    rw [hhead]
    rcases ha.moves with hm | ⟨hlt, hm, _⟩
    · exact ⟨l, hm, hbl, hlh⟩
    · exact ⟨localRev, hm, by omega, hloc⟩
  · simp [he, hp]
  · simp [he, hp]
  · intro r hr l₁ hl₁ hlr
    rw [hfiles] at hl₁ ⊢
    rw [hputs, List.mem_append] at hr
    rw [hhas]
    exact hr.imp (fun hr => h.kept r hr l hs ((hlast l₁ hl₁).trans_lt hlr)) id
  · intro hd l₁ hl₁ r hbr hrl hf
    rw [hfiles] at hl₁
    by_cases hle : r ≤ l
    · have hc := hd l hs r hbr hle ((hfs r).mp hf)
      have hmem : r ∈ s'.puts := by
        rw [hputs, List.mem_append]
        exact .inl (List.count_pos_iff.mp (by omega))
      exact List.count_eq_one_of_mem honce hmem
    · refine List.count_eq_one_of_mem honce (hknown r ?_ hbr)
      rcases ha.moves with hm | ⟨_, hm, hall⟩
      · obtain rfl := mem_unique hm hl₁
        exact absurd hrl hle
      · obtain rfl := mem_unique hm hl₁
        obtain ⟨i, c, hi, rfl, _, hparse⟩ := (hfs r).mp hf
        have hfetch : (⟨(i : ℤ) + 1, c.message⟩ : LogEntry) ∈ s.fetch (l + 1) localRev :=
          (mem_fetch (by omega)).mpr ⟨i, c, hi, rfl, by omega, by omega⟩
        exact hall _ hfetch hparse

inductive Turn (b : ℤ) (s : Installation) (e : Event) (s' : Installation) : Prop
  | grow (more : List Commit) (hl : s'.log = s.log ++ more) (hf : s'.files = s.files) (hq : s'.puts = s.puts)
      (hland : ∀ p, s'.pending = some p → p.revision ≤ s'.head)
      (hahead : ∀ p, s'.pending = some p → p.durable = false → ∀ l, s.files.lastSeen = some l → l < p.revision)
      (hj : s.jump e = none)
  | jump (R : ℤ) (hl : s'.log = s.log) (hi : s'.files.inbox = s.files.inbox) (hq : s'.puts = s.puts)
      (hs : s'.files.lastSeen = some R) (hlt : ∀ l, s.files.lastSeen = some l → l < R) (hR : R ≤ s.head)
      (hp : ∀ p, s'.pending = some p → s.pending = some p ∧ p.durable = true) (hj : s.jump e = some R)
  | scan (f : Files) (l localRev : ℤ) (hloc : localRev ≤ s.head) (hs : s.files.lastSeen = some l)
      (ha : Advanced s.fetch s.files f localRev l) (hp : s.pending = none)
      (he : s' = { s with files := f, puts := s.puts ++ (f.inbox.drop s.files.inbox.length).map Record.revision })
      (hj : s.jump e = none)
  | ack (noticeID : Str) (readable : Bool) (save : Write) (he : e = .ack noticeID readable save)
      (hs : s' = { s with files := (Shout.ack noticeID readable save s.files).1 })

section

variable (h : s.Sound b)
include h

lemma Installation.Sound.still (hl : s'.log = s.log) (hf : s'.files = s.files) (hq : s'.puts = s.puts)
    (hp : ∀ p, s'.pending = some p → s.pending = some p) (hj : s.jump e = none) : Turn b s e s' := by
  refine .grow [] (by rw [hl, List.append_nil]) hf hq ?_ ?_ hj
  · intro p hp'
    have := h.landed p (hp p hp')
    unfold head at this ⊢
    rwa [hl]
  · exact fun p hp' => h.ahead p (hp p hp')

lemma Installation.Sound.turn_finish (loaded : Bool) (save : Write) (done : Bool)
    (hp : s.pending = some p) (hd : p.durable = true) :
    Turn b s (.finish loaded save done) (s.finish loaded save done p) := by
  obtain ⟨l, hl, hbl, _⟩ := h.seen
  have hkeep : ∀ d : Bool, ∀ q, (if d then none else s.pending) = some q → s.pending = some q ∧ q.durable = true := by
    intro d q hq
    cases d with
    | true => cases hq
    | false =>
      obtain rfl := mem_unique hp hq
      exact ⟨hq, hd⟩
  unfold finish finishShout
  by_cases hc : p.comment = []
  · simp only [hc, if_true]
    exact h.still rfl rfl rfl (fun q hq => (hkeep done q hq).1) (by simp [Installation.jump, hp, hl, hc])
  cases loaded with
  | false =>
    simp only [hc, if_false, Bool.not_false, if_true]
    exact h.still rfl rfl rfl (fun _ hq => hq) (by simp [Installation.jump, hp, hl])
  | true =>
    simp only [hc, if_false, Bool.not_true, Bool.false_eq_true, hl]
    by_cases hlt : l < p.revision
    · have hnn : ¬ p.revision < 0 := by
        have := h.base
        omega
      simp only [hlt, if_true, saveLastSeen, hnn, if_false]
      cases save with
      | failed => exact h.still rfl rfl rfl (fun _ hq => hq) (by simp [Installation.jump, hp, hl, Write.landed])
      | done | unsynced =>
        refine .jump p.revision rfl rfl rfl rfl (fun l₁ hl₁ => ?_) (h.landed p hp)
          (by first | exact hkeep done | exact hkeep false) ?_
        · rwa [← mem_unique hl hl₁]
        · simp [Installation.jump, hp, hl, hd, hc, hlt, Write.landed]
    · simp only [hlt, if_false]
      exact h.still rfl rfl rfl (fun q hq => (hkeep done q hq).1) (by simp [Installation.jump, hp, hl, hlt])

lemma Installation.Sound.turn_confirm (exactReceipt : Bool) (save : Write)
    (hp : s.pending = some p) (hd : p.durable = false) :
    Turn b s (.confirm exactReceipt save) (s.confirm exactReceipt save p) := by
  obtain ⟨l, hl, hbl, _⟩ := h.seen
  have hlt : l < s.confirmed exactReceipt p := by
    have := h.ahead p hp hd l hl
    have := h.landed p hp
    unfold Installation.confirmed
    split <;> omega
  have hR : s.confirmed exactReceipt p ≤ s.head := by
    have := h.landed p hp
    unfold Installation.confirmed
    split <;> omega
  have hnn : ¬ s.confirmed exactReceipt p < 0 := by
    have := h.base
    omega
  unfold Installation.confirm
  by_cases hc : p.comment = []
  · simp only [hc, if_true]
    exact h.still rfl rfl rfl (by simp) (by simp [Installation.jump, hp, hc])
  · simp only [hc, if_false, saveLastSeen, hnn]
    cases save with
    | failed => exact h.still rfl rfl rfl (by simp) (by simp [Installation.jump, hp, Write.landed])
    | done | unsynced =>
      refine .jump (s.confirmed exactReceipt p) rfl rfl rfl rfl ?_ hR (by simp) ?_
      · intro l₁ hl₁
        rwa [← mem_unique hl hl₁]
      · simp [Installation.jump, hp, hd, hc, Write.landed]

lemma Installation.Sound.turn (e : Event) : Turn b s e (s.step repoID e) := by
  obtain ⟨l, hl, _, hlh⟩ := h.seen
  cases e with
  | foreign message =>
    refine .grow _ rfl rfl rfl ?_ h.ahead rfl
    intro p hp
    have := h.landed p hp
    simp only [step, head, List.length_append, List.length_singleton] at this ⊢
    omega
  | publish uid paths comment durable =>
    rw [step]
    split
    · exact h.still rfl rfl rfl (fun _ hp => hp) rfl
    · refine .grow _ rfl rfl rfl ?_ ?_ rfl
      · intro p hp
        obtain rfl := some.inj hp
        simp [head]
      · intro p hp _ l₁ hl₁
        obtain rfl := some.inj hp
        have := mem_unique hl hl₁
        simp only
        omega
  | finish loaded save done =>
    rw [step]
    split
    · rename_i p hp
      split
      · rename_i hd
        exact h.turn_finish loaded save done hp hd
      · rename_i hd
        exact h.still rfl rfl rfl (fun _ hp => hp) (by simp [Installation.jump, hp, hl, hd])
    · rename_i hp
      exact h.still rfl rfl rfl (fun _ hp => hp) (by simp [Installation.jump, hp])
  | confirm exactReceipt save =>
    rw [step]
    split
    · rename_i p hp
      split
      · rename_i hd
        exact h.still rfl rfl rfl (fun _ hp => hp) (by simp [Installation.jump, hp, hd])
      · rename_i hd
        exact h.turn_confirm exactReceipt save hp (by simpa using hd)
    · rename_i hp
      exact h.still rfl rfl rfl (fun _ hp => hp) (by simp [Installation.jump, hp])
  | restart =>
    refine h.still rfl rfl rfl ?_ rfl
    intro p hp
    exact (filter_eq_some_iff.mp hp).1
  | advance stamp localRev calls =>
    rw [step]
    split
    · exact h.still rfl rfl rfl (fun _ hp => hp) rfl
    · rename_i hg
      simp only [Bool.or_eq_true, isSome_iff_ne_none, ne_eq, decide_eq_true_eq, not_or, not_not, not_lt] at hg
      exact .scan _ l localRev hg.2 hl (advance_spec hl calls) hg.1 rfl rfl
  | ack noticeID readable save => exact .ack noticeID readable save rfl rfl

lemma Installation.Sound.acked {noticeID : Str} {readable : Bool} {save : Write}
    (hk : s.KeepsUnseen (.ack noticeID readable save))
    (he : s' = { s with files := (Shout.ack noticeID readable save s.files).1 }) : s'.Sound b := by
  have hseen : s'.files.lastSeen = s.files.lastSeen := by
    rw [he]
    exact ack_lastSeen noticeID readable save s.files
  have hputs : s'.puts = s.puts := by rw [he]
  have hpend : s'.pending = s.pending := by rw [he]
  have hhead : s'.head = s.head := by
    rw [he]
    rfl
  refine { base := h.base, seen := ?_, landed := ?_, ahead := ?_, once := hputs ▸ h.once, kept := ?_, known := ?_ }
  · rw [hseen, hhead]
    exact h.seen
  · rw [hpend, hhead]
    exact h.landed
  · rw [hpend, hseen]
    exact h.ahead
  · intro r hr l hl hlr
    rw [hputs] at hr
    rw [hseen] at hl
    rw [he]
    exact hk l hl r hlr (h.kept r hr l hl hlr)
  · intro r hr hbr
    rw [he] at hr
    rw [hputs]
    exact h.known r (has_of_ack hr) hbr

lemma sound_step (hk : s.KeepsUnseen e) : (s.step repoID e).Sound b := by
  cases h.turn repoID e with
  | grow more hl hf hq hland hahead hj => exact h.grow hl hf hq hland hahead
  | jump R hl hi hq hs hlt hR hp hj => exact h.jump hl hi hq hs hlt hR hp
  | scan f l localRev hloc hs ha hp he hj => exact (h.scanned hloc hs ha hp he).1
  | ack noticeID readable save he hs =>
    subst he
    exact h.acked hk hs

lemma delivered_step (hd : s.Delivered b) (e : Event) :
    (s.step repoID e).Delivered b ↔ s.Scanned e := by
  obtain ⟨l, hsl, _, _⟩ := h.seen
  have hquiet : s.jump e = none → s.Scanned e := by
    intro hj R hR
    rw [hj] at hR
    cases hR
  cases h.turn repoID e with
  | grow more hl hf hq hland hahead hj => exact iff_of_true (delivered_grow h hl hf hq hd) (hquiet hj)
  | jump R hl hi hq hs hlt hR hp hj =>
    rw [delivered_jump_iff h hd hl hq hs hsl]
    constructor
    · intro hin R' hR' l' hl'
      obtain rfl := mem_unique hj hR'
      obtain rfl := mem_unique hsl hl'
      exact hin
    · intro hsc
      exact hsc R hj l hsl
  | scan f l localRev hloc hs ha hp he hj => exact iff_of_true ((h.scanned hloc hs ha hp he).2 hd) (hquiet hj)
  | ack noticeID readable save he hs =>
    refine iff_of_true ?_ (hquiet (by rw [he]; rfl))
    intro l₁ hl₁ r hbr hrl hf
    rw [hs] at hl₁ hf ⊢
    rw [ack_lastSeen] at hl₁
    exact hd l₁ hl₁ r hbr hrl hf

end

structure Installation.Initialised (b : ℤ) (s : Installation) : Prop where
  seen : s.files.lastSeen = some b
  base : 0 ≤ b
  known : b ≤ s.head
  inbox : ∀ r, s.files.Has r → r ≤ b
  pending : s.pending = none
  puts : s.puts = []

lemma Installation.Initialised.sound (h : s.Initialised b) : s.Sound b where
  base := h.base
  seen := ⟨b, h.seen, le_refl b, h.known⟩
  landed := by simp [h.pending]
  ahead := by simp [h.pending]
  once := by simp [h.puts]
  kept := by simp [h.puts]
  known := by
    intro r hr hbr
    exact absurd (h.inbox r hr) (not_le.mpr hbr)

theorem foreign_shouts_put_once_iff {b : ℤ} {s : Installation} (hs : s.Initialised b) (es : List Event)
    (hk : Runs.Admits (Installation.step repoID) Installation.KeepsUnseen s es) :
    Runs.Along (Installation.step repoID) (Installation.Delivered b) s es ↔
      Runs.Admits (Installation.step repoID) Installation.Scanned s es := by
  refine Runs.along_iff_admits_of (I := Sound b) _ ?_ ?_ hs.sound ?_ hk
  · exact fun s e h hk => sound_step repoID h hk
  · exact fun s e h hd _ => delivered_step repoID h hd e
  · intro l hl r hbr hrl
    rw [hs.seen] at hl
    obtain rfl := some.inj hl
    omega

def attached : Installation := { files := { lastSeen := some 0 }, log := [] }

def announcement (text : String) : Str := format text.toList

def pulledFirst : List Event :=
  [.foreign (announcement "release"), .advance [] 1 {}, .publish [] 1 "mine" true, .finish true .done true]

theorem foreign_shouts_put_once_when_pulled_first :
    (Runs.run (Installation.step []) attached pulledFirst).puts = [1] ∧
      Runs.Along (Installation.step []) (Installation.Delivered 0) attached pulledFirst := by
  have hs : attached.Initialised 0 :=
    { seen := rfl, base := le_refl 0, known := by decide, inbox := by simp [attached, Files.Has], pending := rfl,
      puts := rfl }
  refine ⟨by decide, (foreign_shouts_put_once_iff [] hs pulledFirst ?_).mpr ?_⟩
  · exact ⟨trivial, trivial, trivial, trivial, trivial⟩
  · refine ⟨by simp [Scanned, jump], by simp [Scanned, jump],
      by simp [Scanned, jump], ?_, trivial⟩
    intro R hR l hl r hlr hrR hf
    obtain rfl : 2 = R := some.inj hR
    obtain rfl : 1 = l := some.inj hl
    obtain rfl : r = 2 := by omega
    obtain ⟨i, c, hi, hr, hown, _⟩ := hf
    obtain rfl : i = 1 := by omega
    obtain rfl := some.inj hi
    cases hown

theorem own_shout_hides_unpulled_shout :
    ¬ Runs.Along (Installation.step []) (Installation.Delivered 0) attached
        [.foreign (announcement "release"), .publish [] 1 "mine" true, .finish true .done true,
          .advance [] 2 {}] := by
  intro h
  have hd := h.last
  have hc := hd 2 (by decide) 1 (by decide) (by decide)
    ⟨0, { own := false, message := announcement "release" }, by decide, rfl, rfl, by decide⟩
  exact absurd hc (by decide)

end FileES.Shout
