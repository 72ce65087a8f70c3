import FileES.Go.Strings
import FileES.Lib.Durable
import FileES.Lib.Runs

/-! The record of the servers that the client was detached from, which keeps their repositories from starting again. -/

namespace FileES.Detachment

open Go Lib.Durable Lib.Runs List

inductive Cause
  | self
  | revoked
  | demoExpired
  | forced
  | unknown (text : Str)
  deriving DecidableEq, Repr

def Cause.known : Cause → Bool
  | .unknown _ => false
  | _ => true

/-- Times count nanoseconds; 0 is the zero time. -/
structure Record where
  (serverID displayName address : Str)
  cause : Cause
  atTime : ℤ
  workingCopies : List Str
  hidden : Bool
  reattachedAt : Option ℤ
  deriving DecidableEq, Repr

def Record.current (r : Record) : Bool := r.reattachedAt.isNone

def Record.fences (id : Str) (r : Record) : Bool := r.serverID = id && r.current

structure Store where
  file : Option (List Record)
  records : List Record
  deriving DecidableEq, Repr

inductive StoreError
  | text (t : Str)
  | io
  deriving DecidableEq, Repr

variable (s : Store) (id : Str) (now : ℤ) (r : Record)

def visibility : ℤ := 48 * 3600 * 10 ^ 9

def maxBytes : ℕ := 2 ^ 20

def persist (w : Write) (records : List Record) (s : Store) : Store × Except StoreError Unit :=
  (⟨w.store s.file (if records = [] then none else some records), records⟩, if w.ok then .ok () else .error .io)

def migrate : Record := if r.reattachedAt = some 0 then { r with reattachedAt := none } else r

/-- `size` is the length of the JSON text; the reader stops after `maxBytes`. -/
def openStore (size : List Record → ℕ) (w : Write) : Option (List Record) → Option Store
  | none => some ⟨none, []⟩
  | some doc =>
    if size doc ≤ maxBytes then
      if doc.any (fun r => r.reattachedAt = some 0) then some (persist w (doc.map migrate) ⟨some doc, doc⟩).1
      else some ⟨some doc, doc⟩
    else none

def stamp : Record := if r.atTime = 0 then { r with atTime := now } else r

def record (r : Record) (now : ℤ) (w : Write) (s : Store) : Store × Except StoreError Unit :=
  if trimSpace r.serverID = [] then (s, .error (.text "detachment record needs a server id"))
  else if !r.cause.known then (s, .error (.text "detachment record needs a known cause"))
  else persist w (s.records.filter (fun e => e.serverID ≠ r.serverID) ++ [stamp now r]) s

def Store.noticed : Bool :=
  s.records.any (fun e => e.serverID = r.serverID && e.cause = r.cause)

def recordFirstNoticed (now : ℤ) (w : Write) (s : Store) : Store × Except StoreError Bool :=
  if trimSpace r.serverID = [] then (s, .error (.text "detachment record needs a server id"))
  else if s.noticed r then (s, .ok false)
  else ((record r now w s).1, (record r now w s).2.map (fun _ => true))

def mark (time : ℤ) (r : Record) : Record :=
  if r.fences id then { r with reattachedAt := some time } else r

def reattached (time now : ℤ) (w : Write) (s : Store) : Store × Except StoreError Bool :=
  if s.records.any (Record.fences id) then
    let next := persist w (s.records.map (mark id (if time = 0 then now else time))) s
    (next.1, next.2.map (fun _ => true))
  else (s, .ok false)

def expire : Record :=
  if !r.hidden && visibility ≤ now - r.atTime then { r with hidden := true } else r

def newestFirst (a b : Record) : Bool :=
  if a.atTime = b.atTime then a.serverID ≤ b.serverID else b.atTime < a.atTime

def list (w : Write) (s : Store) : Store × List Record :=
  let kept := (s.records.map (expire now)).filter (fun r => !(r.hidden && !r.current))
  (if kept = s.records then s else (persist w kept s).1, (kept.filter (fun r => !r.hidden)).mergeSort newestFirst)

def Store.current : Bool := trimSpace id ≠ [] && s.records.any (Record.fences id)

inductive Call
  | record (r : Record)
  | firstNoticed (r : Record)
  | reattached (id : Str) (time : ℤ)
  | list
  deriving DecidableEq, Repr

inductive Event
  | call (c : Call) (now : ℤ) (w : Write)
  | restart (w : Write)
  deriving DecidableEq, Repr

/-- `fenced`: the servers whose last detachment was reported as stored, with no re-activation since. -/
structure Machine where
  store : Store
  opened : Bool
  fenced : Finset Str

variable (size : List Record → ℕ) (m : Machine) (id : Str) (s : Store)

def Machine.current : Bool := m.opened && m.store.current id

def recorded (ok : Bool) : Machine :=
  { m with store := s, fenced := if ok then insert id m.fenced else m.fenced }

def perform (now : ℤ) (w : Write) : Call → Machine
  | .record r => recorded m r.serverID (record r now w m.store).1 (record r now w m.store).2.isOk
  | .firstNoticed r =>
    recorded m r.serverID (recordFirstNoticed r now w m.store).1 (recordFirstNoticed r now w m.store).2.isOk
  | .reattached id time => { m with store := (reattached id time now w m.store).1, fenced := m.fenced.erase id }
  | .list => { m with store := (list now w m.store).1 }

def step : Event → Machine
  | .call c now w => if m.opened then perform m now w c else m
  | .restart w =>
    match openStore size w m.store.file with
    | some s => { m with store := s, opened := true }
    | none => { m with opened := false }

def fits : Bool := s.file.all (fun doc => size doc ≤ maxBytes)

def stored (file : Option (List Record)) (id : Str) : Bool :=
  file.any (fun doc => size doc ≤ maxBytes && (doc.map migrate).any (Record.fences id))

def held (id : Str) : Bool :=
  s.records.any (Record.fences id) && stored size s.file id

/-- A detachment is recorded as one that lasts, and a repeated notice finds the record of the first one current, in memory
and in the file. -/
def renews : Event → Bool
  | .call (.record r) _ _ => r.current
  | .call (.firstNoticed r) _ _ => r.current && (!m.store.noticed r || held size m.store r.serverID)
  | _ => true

variable {size : List Record → ℕ} {m : Machine} {id : Str} {s : Store} {l : List Record} {w : Write} {now : ℤ}
  {r : Record}

lemma any_map_of {f : Record → Record} (hf : ∀ r, r.fences id = true → (f r).fences id = true)
    (h : l.any (Record.fences id) = true) : (l.map f).any (Record.fences id) = true := by
  simp only [any_map, any_eq_true, Function.comp_apply] at h ⊢
  exact h.imp (fun r hr => ⟨hr.1, hf r hr.2⟩)

lemma fences_migrate (h : r.fences id = true) : (migrate r).fences id = true := by
  grind [migrate, Record.fences, Record.current]

lemma fences_mark {id' : Str} {time : ℤ} (hne : id ≠ id') (h : r.fences id = true) :
    (mark id' time r).fences id = true := by
  grind [mark, Record.fences]

lemma any_kept (h : l.any (Record.fences id) = true) :
    ((l.map (expire now)).filter (fun r => !(r.hidden && !r.current))).any (Record.fences id) = true := by
  obtain ⟨r, hr, hid⟩ := any_eq_true.mp h
  have hsame : (expire now r).fences id = true ∧ (expire now r).current = true := by
    grind [expire, Record.fences, Record.current]
  exact any_eq_true.mpr ⟨_, mem_filter.mpr ⟨mem_map_of_mem hr, by simp [hsame.2]⟩, hsame.1⟩

lemma held_persist (hl : l.any (Record.fences id) = true) (hfit : fits size (persist w l s).1 = true)
    (hs : w.landed = false → stored size s.file id = true) : held size (persist w l s).1 id = true := by
  have hne : l ≠ [] := by
    rintro rfl
    cases hl
  have hmigrated := any_map_of (fun _ => fences_migrate) hl
  cases hw : w.landed with
  | true => simp_all [held, stored, fits, persist, Write.store]
  | false => simp_all [held, stored, persist, Write.store]

def Kept (size : List Record → ℕ) (m : Machine) : Prop :=
  ∀ id ∈ m.fenced, trimSpace id ≠ [] ∧ m.opened = true ∧ held size m.store id = true

lemma Kept.current (h : Kept size m) (hid : id ∈ m.fenced) : m.current id = true := by
  obtain ⟨htrim, hopened, hheld⟩ := h id hid
  rw [held, Bool.and_eq_true] at hheld
  simp [Machine.current, Store.current, hopened, htrim, hheld.1]

lemma Kept.persist {F : Finset Str} (h : Kept size m) (hopened : m.opened = true)
    (hfit : fits size (persist w l m.store).1 = true) (hF : F ⊆ m.fenced)
    (hl : ∀ id ∈ F, m.store.records.any (Record.fences id) = true → l.any (Record.fences id) = true) :
    Kept size { m with store := (Detachment.persist w l m.store).1, fenced := F } := by
  intro id hid
  obtain ⟨htrim, _, hheld⟩ := h id (hF hid)
  obtain ⟨hrecords, hstored⟩ := Bool.and_eq_true_iff.mp hheld
  exact ⟨htrim, hopened, held_persist (hl id hid hrecords) hfit (fun _ => hstored)⟩

lemma record_cases (r : Record) (now : ℤ) (w : Write) (s : Store) : (record r now w s).1 = s ∧ (record r now w s).2.isOk = false ∨
    trimSpace r.serverID ≠ [] ∧
      record r now w s = persist w (s.records.filter (fun e => e.serverID ≠ r.serverID) ++ [stamp now r]) s := by
  rw [record]
  split_ifs <;> simp_all [Except.isOk, Except.toBool]

lemma any_recorded (hr : r.current = true) (h : id = r.serverID ∨ l.any (Record.fences id) = true) :
    (l.filter (fun e => e.serverID ≠ r.serverID) ++ [stamp now r]).any (Record.fences id) = true := by
  have hstamp : (stamp now r).fences id = r.fences id := by
    rw [stamp]
    split <;> rfl
  grind [Record.fences]

lemma Kept.record (h : Kept size m) (hopened : m.opened = true) (hr : r.current = true)
    (hfit : fits size (record r now w m.store).1 = true) :
    Kept size (recorded m r.serverID (record r now w m.store).1 (record r now w m.store).2.isOk) := by
  rcases record_cases r now w m.store with ⟨hs, hok⟩ | ⟨htrim, hs⟩
  · rw [hs, hok]
    exact h
  rw [hs] at hfit ⊢
  have hold := h.persist hopened hfit (Finset.Subset.refl _) (fun id _ hid => any_recorded hr (.inr hid))
  cases w with
  | done =>
    intro id hid
    rcases Finset.mem_insert.mp hid with rfl | hid
    · exact ⟨htrim, hopened, held_persist (any_recorded hr (.inl rfl)) hfit nofun⟩
    · exact hold id hid
  | failed => exact hold
  | unsynced => exact hold

lemma Kept.recordFirstNoticed (h : Kept size m) (hopened : m.opened = true) (hr : r.current = true)
    (hn : m.store.noticed r = false ∨ held size m.store r.serverID = true)
    (hfit : fits size (recordFirstNoticed r now w m.store).1 = true) :
    Kept size (recorded m r.serverID (recordFirstNoticed r now w m.store).1
      (recordFirstNoticed r now w m.store).2.isOk) := by
  rw [Detachment.recordFirstNoticed] at hfit ⊢
  split_ifs at hfit ⊢ with htrim hnoticed
  · exact h
  · intro id hid
    rcases Finset.mem_insert.mp hid with rfl | hid
    · exact ⟨htrim, hopened, hn.resolve_left (by simp [hnoticed])⟩
    · exact h id hid
  · have hok : ((Detachment.record r now w m.store).2.map (fun _ => true)).isOk = (Detachment.record r now w m.store).2.isOk := by
      cases (Detachment.record r now w m.store).2 <;> rfl
    rw [hok]
    exact h.record hopened hr hfit

lemma openStore_held (h : stored size s.file id = true) :
    ∃ s', openStore size w s.file = some s' ∧ (fits size s' = true → held size s' id = true) := by
  cases hdoc : s.file with
  | none => simp [hdoc, stored] at h
  | some doc =>
    rw [hdoc] at h
    have hok : size doc ≤ maxBytes ∧ (doc.map migrate).any (Record.fences id) = true := by simpa [stored] using h
    simp only [openStore, if_pos hok.1]
    by_cases hmigrated : doc.any (fun r => r.reattachedAt = some 0) = true
    · exact ⟨_, if_pos hmigrated, fun hfit => held_persist hok.2 hfit (fun _ => h)⟩
    · have hsame : ∀ r ∈ doc, migrate r = r := by
        intro r hr
        exact if_neg (fun hzero => hmigrated (any_eq_true.mpr ⟨r, hr, decide_eq_true hzero⟩))
      rw [map_congr_left hsame, map_id'] at hok
      exact ⟨_, if_neg hmigrated, fun _ => Bool.and_eq_true_iff.mpr ⟨hok.2, h⟩⟩

lemma Kept.perform {c : Call} (h : Kept size m) (hopened : m.opened = true) (hrec : renews size m (.call c now w) = true)
    (hfit : fits size (perform m now w c).store = true) : Kept size (perform m now w c) := by
  cases c with
  | record r => exact h.record hopened hrec hfit
  | firstNoticed r =>
    simp only [renews, Bool.and_eq_true, Bool.or_eq_true, Bool.not_eq_true'] at hrec
    exact h.recordFirstNoticed hopened hrec.1 hrec.2 hfit
  | reattached id' time =>
    by_cases hany : m.store.records.any (Record.fences id') = true
    · simp only [Detachment.perform, reattached, if_pos hany] at hfit ⊢
      refine h.persist hopened hfit (Finset.erase_subset _ _) (fun id hid hany => ?_)
      exact any_map_of (fun r => fences_mark (Finset.ne_of_mem_erase hid)) hany
    · simp only [Detachment.perform, reattached, if_neg hany]
      exact fun id hid => h id (Finset.mem_of_mem_erase hid)
  | list =>
    simp only [Detachment.perform, list] at hfit ⊢
    split_ifs at hfit ⊢
    · exact h
    · exact h.persist hopened hfit (Finset.Subset.refl _) (fun id _ hany => any_kept hany)

lemma Kept.step {e : Event} (h : Kept size m) (hrec : renews size m e = true)
    (hfit : fits size (step size m e).store = true) : Kept size (step size m e) := by
  cases e with
  | restart w =>
    have hmem : (Detachment.step size m (.restart w)).fenced = m.fenced := by
      rw [Detachment.step]
      split <;> rfl
    intro id hid
    obtain ⟨htrim, _, hheld⟩ := h id (hmem ▸ hid)
    obtain ⟨s', hs', hheld'⟩ := openStore_held (w := w) (Bool.and_eq_true_iff.mp hheld).2
    rw [Detachment.step, hs'] at hfit ⊢
    exact ⟨htrim, rfl, hheld' hfit⟩
  | call c now w =>
    rw [Detachment.step] at hfit ⊢
    split_ifs at hfit ⊢ with hopened
    · exact h.perform hopened hrec hfit
    · exact h

/-- If every detachment lasts, no notice repeats one that is over, and the file reads back, a stored detachment
fences until the re-activation. -/
theorem detachment_fence_holds (size : List Record → ℕ) (s : Store) (opened : Bool) (es : List Event)
    (h : Admits (step size) (fun m e => renews size m e = true ∧ fits size (step size m e).store = true) ⟨s, opened, ∅⟩ es) :
    Along (step size) (fun m => ∀ id ∈ m.fenced, m.current id = true) ⟨s, opened, ∅⟩ es := by
  have hkept : Along (step size) (Kept size) ⟨s, opened, ∅⟩ es :=
    along_of_admits (step size) (fun _ _ hk hc => hk.step hc.1 hc.2) (fun id hid => absurd hid (Finset.notMem_empty id)) h
  exact fun pre hpre id hid => (hkept pre hpre).current hid

def sampleServer : Str := "manual"

def sampleRecord (cause : Cause) : Record := ⟨sampleServer, [], [], cause, 5, [], false, none⟩

def emptyStore : Store := ⟨none, []⟩

theorem detachment_fence_survives : (run (step (fun l => l.length)) ⟨emptyStore, true, ∅⟩
    [.call (.firstNoticed (sampleRecord .revoked)) 5 .done, .call .list (2 * visibility) .failed, .restart .done]).current
      sampleServer = true := by
  have hadmits : Admits (step (fun l => l.length)) (fun m e => renews (fun l => l.length) m e = true ∧
      fits (fun l => l.length) (step (fun l => l.length) m e).store = true) ⟨emptyStore, true, ∅⟩
      [.call (.firstNoticed (sampleRecord .revoked)) 5 .done, .call .list (2 * visibility) .failed, .restart .done] := by
    decide +kernel
  exact (detachment_fence_holds _ emptyStore true _ hadmits).last _ sampleServer (by decide +kernel)

/-- A second revocation is taken for a repetition of the first; so is a notice after one that was not stored. -/
theorem second_detachment_not_fenced :
    (let m := run (step (fun l => l.length)) ⟨emptyStore, true, ∅⟩
      [.call (.firstNoticed (sampleRecord .revoked)) 5 .done, .call (.reattached sampleServer 6) 6 .done,
        .call (.firstNoticed (sampleRecord .revoked)) 7 .done]
    sampleServer ∈ m.fenced ∧ m.current sampleServer = false) ∧
    let m := run (step (fun l => l.length)) ⟨emptyStore, true, ∅⟩
      [.call (.firstNoticed (sampleRecord .revoked)) 5 .failed, .call (.firstNoticed (sampleRecord .revoked)) 6 .done,
        .restart .done]
    sampleServer ∈ m.fenced ∧ m.current sampleServer = false := by
  decide +kernel

end FileES.Detachment
