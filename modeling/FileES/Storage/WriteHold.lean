import FileES.Go.Strings
import FileES.Lib.Durable
import FileES.Lib.Fallible
import FileES.Lib.Maps
import FileES.Lib.Runs

/-! The capacity monitor's write holds: devices that were measured critical stop all writes until they are measured again. -/

namespace FileES.Storage

open Go Lib.Durable Lib.Fallible Lib.Maps Lib.Runs List Option AList

structure Sample where
  (total available files freeFiles : ℕ)
  deriving DecidableEq, Repr

structure Volume where
  device : ℕ
  labels : List Str
  sample : Sample
  deriving DecidableEq, Repr

structure Policy (F : Type) where
  (warningPercent criticalPercent hysteresisPercent : F)
  (warningBytes criticalBytes hysteresisBytes : ℕ)

inductive Level
  | normal
  | warning
  | error
  deriving DecidableEq, Repr

structure WriteHold where
  (device since : ℕ)
  deriving DecidableEq, Repr

structure DeviceWriteState where
  device : ℕ
  blocked : Bool
  deriving DecidableEq, Repr

structure Observation where
  measuredAt : ℕ
  devices : List DeviceWriteState
  deriving DecidableEq, Repr

structure State (S : Type) where
  observation : Option Observation
  writeHolds : List WriteHold
  snapshot : S
  deriving DecidableEq, Repr

inductive Err
  | text (message : Str)
  | system
  deriving DecidableEq, Repr

/-- `under a b x` is `float64(a)/float64(b)*100 < x`; the alerts; and what encoding and decoding ask of a state. -/
structure Env (F S : Type) where
  add : F → F → F
  under : ℕ → ℕ → F → Bool
  validPolicy : Policy F → Bool
  incidents : S → List Volume → Policy F → ℕ → Except Err S
  alarmed : S → ℕ → Bool
  initial : S
  loadable : S → Bool
  encodes : State S → Bool

variable {F S : Type} (env : Env F S)

variable (p : Policy F) (s : State S) (holds : List WriteHold)

def below (s : Sample) (percent : F) (bytes : ℕ) : Bool :=
  s.available < bytes || env.under s.available s.total percent || (0 < s.files && env.under s.freeFiles s.files percent)

def level (s : Sample) (previous : Level) : Level :=
  if below env s p.criticalPercent p.criticalBytes then .error
  else if previous = .error ∧ below env s (env.add p.criticalPercent p.hysteresisPercent) (p.criticalBytes + p.hysteresisBytes)
  then .error
  else if below env s p.warningPercent p.warningBytes then .warning
  else if previous ≠ .normal ∧ below env s (env.add p.warningPercent p.hysteresisPercent) (p.warningBytes + p.hysteresisBytes)
  then .warning
  else .normal

def Observation.validate (o : Observation) : Except Err Unit := do
  require (o.measuredAt ≠ 0 && o.devices ≠ [] && o.devices.length ≤ 128) (.text "invalid capacity observation")
  require (o.devices.map DeviceWriteState.device).Nodup (.text "invalid capacity observation device")

def validateObservation : Option Observation → Except Err Unit
  | none => .ok ()
  | some o => o.validate

def validateWriteHolds : Except Err Unit := do
  require (holds.length ≤ 128) (.text "too many capacity write holds")
  require (holds.all (fun h => h.since ≠ 0) && (holds.map WriteHold.device).Nodup) (.text "invalid capacity write hold")

def migrate (measuredAt : ℕ) (out : List WriteHold) (x : DeviceWriteState) : List WriteHold :=
  if x.blocked && !out.any (fun h => h.device = x.device) then out ++ [⟨x.device, measuredAt⟩] else out

def migrateObservationHolds : Option Observation → List WriteHold
  | none => holds
  | some o => o.devices.foldl (migrate o.measuredAt) holds

def canRelease (previous : Option Observation) (now : ℕ) : Bool := previous.all (fun o => o.measuredAt < now)

def rate (release : Bool) (now : ℕ) (m : Map ℕ WriteHold) (v : Volume) : Map ℕ WriteHold :=
  match m.lookup v.device with
  | none => if level env p v.sample .normal = .error then m.insert v.device ⟨v.device, now⟩ else m
  | some hold =>
    if level env p v.sample .error = .error then m
    else if release && hold.since < now then m.erase v.device else m

def nextWriteHolds (previous : Option Observation) (volumes : List Volume) (p : Policy F) (now : ℕ) : Except Err (List WriteHold) := do
  let holds := migrateObservationHolds holds previous
  validateWriteHolds holds
  let m := volumes.foldl (rate env p (canRelease previous now) now) (holds.foldl (fun m h => m.insert h.device h) ∅)
  let out := (m.entries.map Sigma.snd).mergeSort (fun h h' => h.device ≤ h'.device)
  validateWriteHolds out
  pure out

def newObservation (volumes : List Volume) (snapshot : S) (now : ℕ) : Except Err Observation := do
  require (volumes.all (fun v => v.sample.total ≠ 0 && v.sample.available ≤ v.sample.total && v.sample.freeFiles ≤ v.sample.files))
    (.text "invalid capacity observation counters")
  let o : Observation := ⟨now, volumes.map (fun v => ⟨v.device, env.alarmed snapshot v.device⟩)⟩
  o.validate
  pure o

def Observation.block (o : Observation) (holds : List WriteHold) : Observation :=
  { o with devices := o.devices.map (fun x => if holds.any (fun h => h.device = x.device) then { x with blocked := true } else x) }

def observe (v : List Volume) (p : Policy F) (now : ℕ) : Except Err (State S) := do
  validateObservation s.observation
  require (s.observation.all (fun o => o.measuredAt ≤ now)) (.text "capacity observation clock moved backwards")
  require (env.validPolicy p) (.text "invalid capacity thresholds")
  require (v ≠ []) (.text "empty capacity observation")
  let next ← env.incidents s.snapshot v p now
  let holds ← nextWriteHolds env s.writeHolds s.observation v p now
  let o ← newObservation env v next now
  pure ⟨some (o.block holds), holds, next⟩

def State.writesHeld : Bool :=
  s.writeHolds ≠ [] || s.observation.any (fun o => o.devices.any DeviceWriteState.blocked)

structure Machine (S : Type) where
  mem : State S
  file : Option (State S)

def saveCheck : Except Err Unit := do
  validateObservation s.observation
  validateWriteHolds s.writeHolds
  require (env.encodes s) (.text "capacity state too large")

def save [DecidableEq S] (c : Machine S) (w : Write) : Except Err Unit × Machine S :=
  match saveCheck env c.mem with
  | .error e => (.error e, c)
  | .ok _ =>
    if c.file = some c.mem then (.ok (), c)
    else (require w.ok .system, { c with file := w.store c.file (some c.mem) })

def load : Option (State S) → Except Err (State S)
  | none => .ok ⟨none, [], env.initial⟩
  | some s => do
    require (env.loadable s.snapshot) .system
    validateObservation s.observation
    let holds := migrateObservationHolds s.writeHolds s.observation
    validateWriteHolds holds
    pure { s with writeHolds := holds }

inductive Event (F : Type)
  | observe (v : List Volume) (p : Policy F) (now : ℕ)
  | save (w : Write)
  | load

def step [DecidableEq S] (c : Machine S) : Event F → Machine S
  | .observe v p now => { c with mem := (observe env c.mem v p now).toOption.getD c.mem }
  | .save w => (save env c w).2
  | .load => { c with mem := (load env c.file).toOption.getD c.mem }

/-- A strictly later measurement that includes the device and rates it non-critical. -/
def releases (d : ℕ) (c : Machine S) : Event F → Bool
  | .observe v p now =>
    v.any (fun x => x.device = d && level env p x.sample .error ≠ .error) && canRelease c.mem.observation now
  | _ => false

def Event.isLoad : Event F → Bool
  | .load => true
  | _ => false

section

variable {env : Env F S} {d now : ℕ} {holds : List WriteHold} {p : Policy F} {vs : List Volume} {s s' : State S}

def On (d : ℕ) (holds : List WriteHold) : Prop := ∃ h ∈ holds, h.device = d

def Blocked (d : ℕ) (o : Observation) : Prop := ∃ x ∈ o.devices, x.device = d ∧ x.blocked = true

def HeldBy (d : ℕ) (s : State S) : Prop := On d s.writeHolds ∨ ∃ o, s.observation = some o ∧ Blocked d o

lemma HeldBy.writesHeld (h : HeldBy d s) : s.writesHeld = true := by
  rw [State.writesHeld, Bool.or_eq_true]
  rcases h with ⟨h, hh, -⟩ | ⟨o, ho, x, hx, -, hb⟩
  · exact .inl (by simpa using ne_nil_of_mem hh)
  · refine .inr ?_
    simp only [ho, Option.any_some, List.any_eq_true]
    exact ⟨x, hx, hb⟩

variable {t : ℕ} {x : DeviceWriteState} {release : Bool} {m : Map ℕ WriteHold} {v : Volume} {e : Event F}

lemma On.migrate (h : On d holds) : On d (migrate t holds x) := by
  obtain ⟨a, ha, had⟩ := h
  rw [Storage.migrate]
  split
  · exact ⟨a, mem_append_left _ ha, had⟩
  · exact ⟨a, ha, had⟩

lemma on_migrate_self (hx : x.blocked = true) : On x.device (migrate t holds x) := by
  rw [migrate]
  split
  · exact ⟨_, mem_append_right _ (mem_singleton.mpr rfl), rfl⟩
  · rename_i h
    simpa [hx, On] using h

lemma On.foldl_migrate {xs : List DeviceWriteState} (h : On d holds ∨ ∃ x ∈ xs, x.device = d ∧ x.blocked = true) :
    On d (xs.foldl (Storage.migrate t) holds) := by
  induction xs generalizing holds with
  | nil => exact h.resolve_right (by simp)
  | cons x xs ih =>
    refine ih ?_
    rcases h with h | ⟨y, hy, rfl, hb⟩
    · exact .inl h.migrate
    · rcases mem_cons.mp hy with rfl | hy
      · exact .inl (on_migrate_self hb)
      · exact .inr ⟨y, hy, rfl, hb⟩

lemma HeldBy.migrated (h : HeldBy d s) : On d (migrateObservationHolds s.writeHolds s.observation) := by
  cases ho : s.observation with
  | none => exact h.resolve_right (by simp [ho])
  | some o =>
    refine On.foldl_migrate ?_
    rcases h with h | ⟨o', ho', hb⟩
    · exact .inl h
    · obtain rfl := mem_unique ho ho'
      exact .inr hb

lemma nodup_of_validate (h : validateWriteHolds holds = .ok ()) : (holds.map WriteHold.device).Nodup := by
  obtain ⟨_, -, h⟩ := bind_ok.mp h
  simpa using (Bool.and_eq_true_iff.mp (require_ok.mp h)).2

lemma lookup_of_on (hn : (holds.map WriteHold.device).Nodup) (h : On d holds) :
    (holds.foldl (fun m h => m.insert h.device h) (∅ : Map ℕ WriteHold)).lookup d ≠ none := by
  obtain ⟨a, ha, had⟩ := h
  rw [(lookup_foldl_insert hn).mpr (.inl ⟨ha, had⟩)]
  exact some_ne_none a

lemma lookup_rate_ne (h : v.device ≠ d) : (rate env p release now m v).lookup d = m.lookup d := by
  rw [rate]
  split
  · split
    · exact lookup_insert_ne h.symm
    · rfl
  · split
    · rfl
    · split
      · exact lookup_erase_ne h.symm
      · rfl

lemma lookup_foldl_ne (h : ∀ v ∈ vs, v.device ≠ d) : (vs.foldl (rate env p release now) m).lookup d = m.lookup d := by
  induction vs generalizing m with
  | nil => rfl
  | cons v vs ih => rw [foldl_cons, ih (fun u hu => h u (mem_cons_of_mem v hu)), lookup_rate_ne (h v mem_cons_self)]

lemma lookup_rate_kept (hm : m.lookup d ≠ none)
    (h : (v.device = d → level env p v.sample .error = .error) ∨ release = false) :
    (rate env p release now m v).lookup d ≠ none := by
  by_cases hd : v.device = d
  · subst hd
    obtain ⟨hold, hh⟩ := ne_none_iff_exists'.mp hm
    simp only [rate, hh]
    split
    · exact hm
    · rename_i hl
      rw [if_neg]
      · exact hm
      · simp [h.resolve_left (fun h => hl (h rfl))]
  · rwa [lookup_rate_ne hd]

lemma lookup_foldl_kept (hm : m.lookup d ≠ none)
    (h : (∀ v ∈ vs, v.device = d → level env p v.sample .error = .error) ∨ release = false) :
    (vs.foldl (rate env p release now) m).lookup d ≠ none := by
  induction vs generalizing m with
  | nil => exact hm
  | cons v vs ih =>
    exact ih (lookup_rate_kept hm (h.imp_left (fun h => h v mem_cons_self)))
      (h.imp_left (fun h u hu => h u (mem_cons_of_mem v hu)))

lemma level_error_of_critical {q : Level} {x : Sample} (h : below env x p.criticalPercent p.criticalBytes = true) :
    level env p x q = .error := by rw [level, if_pos h]

lemma lookup_foldl_critical (hv : v ∈ vs) (hn : (vs.map Volume.device).Nodup)
    (hc : below env v.sample p.criticalPercent p.criticalBytes = true) :
    (vs.foldl (rate env p release now) m).lookup v.device ≠ none := by
  obtain ⟨pre, post, rfl⟩ := append_of_mem hv
  rw [map_append, map_cons, nodup_append] at hn
  have hpost : ∀ u ∈ post, u.device ≠ v.device := fun u hu h =>
    (nodup_cons.mp hn.2.1).1 (h ▸ mem_map_of_mem hu)
  rw [foldl_append, foldl_cons, lookup_foldl_ne hpost, rate]
  split
  · rw [if_pos (level_error_of_critical hc), lookup_insert]
    exact some_ne_none _
  · rename_i hold hh
    rw [if_pos (level_error_of_critical hc), hh]
    exact some_ne_none _

def Keyed (m : Map ℕ WriteHold) : Prop := ∀ d h, m.lookup d = some h → h.device = d

lemma keyed_rate (hm : Keyed m) (v : Volume) : Keyed (rate env p release now m v) := by
  intro d h hd
  rw [rate] at hd
  split at hd
  · split at hd
    · rcases lookup_insert_eq_some.mp hd with ⟨rfl, rfl⟩ | ⟨-, hd⟩
      · rfl
      · exact hm d h hd
    · exact hm d h hd
  · split at hd
    · exact hm d h hd
    · split at hd
      · exact hm d h (lookup_erase_eq_some.mp hd).2
      · exact hm d h hd

lemma keyed_foldl (hm : Keyed m) : Keyed (vs.foldl (rate env p release now) m) := by
  induction vs generalizing m with
  | nil => exact hm
  | cons v vs ih => exact ih (keyed_rate hm v)

lemma on_entries (hm : Keyed m) (h : m.lookup d ≠ none) :
    On d ((m.entries.map Sigma.snd).mergeSort (fun h h' => h.device ≤ h'.device)) := by
  obtain ⟨hold, hh⟩ := ne_none_iff_exists'.mp h
  exact ⟨hold, mem_mergeSort.mpr (mem_map.mpr ⟨⟨d, hold⟩, mem_entries_iff.mpr hh, rfl⟩), hm d hold hh⟩

lemma observe_eq_ok (h : observe env s vs p now = .ok s') : (vs.map Volume.device).Nodup ∧
    validateWriteHolds (migrateObservationHolds s.writeHolds s.observation) = .ok () ∧
    ∀ d, (vs.foldl (rate env p (canRelease s.observation now) now)
      ((migrateObservationHolds s.writeHolds s.observation).foldl (fun m h => m.insert h.device h) ∅)).lookup d ≠ none →
        On d s'.writeHolds := by
  simp only [observe, nextWriteHolds, newObservation, Observation.validate, bind_ok] at h
  obtain ⟨_, -, _, -, _, -, _, -, _, -, _, ⟨_, hvalid, _, -, hholds⟩, _, ⟨_, -, _, ⟨_, -, hnodup⟩, -⟩, hs'⟩ := h
  cases hholds
  cases hs'
  refine ⟨?_, hvalid, fun d hd => on_entries (keyed_foldl ?_) hd⟩
  · simpa [Function.comp_def] using require_ok.mp hnodup
  · intro d h hd
    rcases (lookup_foldl_insert (nodup_of_validate hvalid)).mp hd with ⟨-, hk⟩ | ⟨-, hk⟩
    · exact hk
    · simp at hk

lemma held_of_critical (h : observe env s vs p now = .ok s') (hv : v ∈ vs)
    (hc : below env v.sample p.criticalPercent p.criticalBytes = true) : HeldBy v.device s' := by
  obtain ⟨hn, -, hon⟩ := observe_eq_ok h
  exact .inl (hon _ (lookup_foldl_critical hv hn hc))

lemma HeldBy.observe (hh : HeldBy d s) (h : observe env s vs p now = .ok s')
    (hr : (∀ v ∈ vs, v.device = d → level env p v.sample .error = .error) ∨ canRelease s.observation now = false) :
    HeldBy d s' := by
  obtain ⟨-, hvalid, hon⟩ := observe_eq_ok h
  exact .inl (hon d (lookup_foldl_kept (lookup_of_on (nodup_of_validate hvalid) hh.migrated) hr))

lemma HeldBy.load {f : State S} (hf : HeldBy d f) (h : load env (some f) = .ok s) : HeldBy d s := by
  simp only [Storage.load, bind_ok] at h
  obtain ⟨_, -, _, -, _, -, hs⟩ := h
  cases hs
  exact .inl hf.migrated

lemma not_releases {c : Machine S} (h : releases env d c (.observe vs p now) = false) :
    (∀ v ∈ vs, v.device = d → level env p v.sample .error = .error) ∨ canRelease c.mem.observation now = false := by
  rw [releases, Bool.and_eq_false_iff] at h
  refine h.imp_left (fun h v hv hd => ?_)
  have := any_eq_false.mp h v hv
  simpa [hd] using this

def Durable (d : ℕ) (c : Machine S) : Prop := ∃ f, c.file = some f ∧ HeldBy d f

variable [DecidableEq S] {c : Machine S}

lemma mem_step (hh : HeldBy d c.mem) (hr : releases env d c e = false) (hl : e.isLoad = true → Durable d c) :
    HeldBy d (step env c e).mem := by
  cases e with
  | observe v p now =>
    cases h : observe env c.mem v p now with
    | error =>
      rw [step, h]
      exact hh
    | ok s' =>
      rw [step, h]
      exact hh.observe h (not_releases hr)
  | save w =>
    rw [step, save]
    split
    · exact hh
    · split
      · exact hh
      · exact hh
  | load =>
    obtain ⟨f, hf, hfile⟩ := hl rfl
    cases h : load env c.file with
    | error =>
      rw [step, h]
      exact hh
    | ok s' =>
      rw [step, h]
      exact hfile.load (hf ▸ h)

lemma durable_step (hh : HeldBy d c.mem) (hf : Durable d c) : Durable d (step env c e) := by
  cases e with
  | observe v p now => exact hf
  | load => exact hf
  | save w =>
    rw [step, save]
    split
    · exact hf
    · split
      · exact hf
      · cases w with
        | done => exact ⟨c.mem, rfl, hh⟩
        | unsynced => exact ⟨c.mem, rfl, hh⟩
        | failed => exact hf

lemma durable_save {w : Write} (hh : HeldBy d c.mem) (h : (save env c w).1 = .ok ()) : Durable d (save env c w).2 := by
  rw [save] at h ⊢
  split at h
  · cases h
  · split at h
    · rename_i heq
      rw [if_pos heq]
      exact ⟨c.mem, heq, hh⟩
    · rename_i hne
      obtain rfl : w = .done := Write.eq_done_of_ok (require_ok.mp h)
      rw [if_neg hne]
      exact ⟨c.mem, rfl, hh⟩

end

theorem capacity_hold_persists {F S : Type} [DecidableEq S] (env : Env F S) (c : Machine S) (vs : List Volume) (p : Policy F)
    (now : ℕ) (v : Volume) (s : State S) (hobs : observe env c.mem vs p now = .ok s) (hv : v ∈ vs)
    (hc : below env v.sample p.criticalPercent p.criticalBytes = true) (es : List (Event F))
    (hes : Admits (step env) (fun c e => releases env v.device c e = false ∧ e.isLoad = false) { c with mem := s } es) :
    Along (step env) (fun c => c.mem.writesHeld = true) { c with mem := s } es ∧
      ∀ w later, (save env (run (step env) { c with mem := s } es) w).1 = .ok () →
        Admits (step env) (fun c e => releases env v.device c e = false)
          (save env (run (step env) { c with mem := s } es) w).2 later →
        Along (step env) (fun c => c.mem.writesHeld = true) (save env (run (step env) { c with mem := s } es) w).2 later := by
  have hheld : Along (step env) (fun c => HeldBy v.device c.mem) { c with mem := s } es := by
    refine along_of_admits (step env) (I := fun c => HeldBy v.device c.mem)
      (fun c e hh hc => mem_step hh hc.1 (fun hl => ?_)) (held_of_critical hobs hv hc) hes
    rw [hc.2] at hl
    cases hl
  refine ⟨fun pre hp => (hheld pre hp).writesHeld, fun w later hsave hadm => ?_⟩
  have hlast : HeldBy v.device (run (step env) { c with mem := s } es).mem := hheld es (prefix_refl es)
  have hboth := along_of_admits (step env) (I := fun c => HeldBy v.device c.mem ∧ Durable v.device c)
    (fun c e hh hr => ⟨mem_step hh.1 hr (fun _ => hh.2), durable_step hh.1 hh.2⟩)
    ⟨mem_step (e := .save w) hlast rfl nofun, durable_save hlast hsave⟩ hadm
  exact fun pre hp => (hboth pre hp).1.writesHeld

def bytesOnly : Env Unit Unit :=
  ⟨fun _ _ => (), fun _ _ _ => false, fun _ => true, fun _ _ _ _ => .ok (), fun _ _ => false, (), fun _ => true, fun _ => true⟩

def bytesPolicy : Policy Unit := ⟨(), (), (), 20, 10, 5⟩

def volumeWith (device available : ℕ) : Volume := ⟨device, [], ⟨100, available, 0, 0⟩⟩

def emptyMachine : Machine Unit := ⟨⟨none, [], ()⟩, none⟩

def afterCritical : State Unit := ⟨some ⟨1, [⟨1, true⟩]⟩, [⟨1, 1⟩], ()⟩

theorem hold_survives_restart :
    let c := { emptyMachine with mem := afterCritical }
    Along (step bytesOnly) (fun c => c.mem.writesHeld = true) c [.observe [volumeWith 2 50] bytesPolicy 2] ∧
      ∀ w later, (save bytesOnly (run (step bytesOnly) c [.observe [volumeWith 2 50] bytesPolicy 2]) w).1 = .ok () →
        Admits (step bytesOnly) (fun c e => releases bytesOnly 1 c e = false)
          (save bytesOnly (run (step bytesOnly) c [.observe [volumeWith 2 50] bytesPolicy 2]) w).2 later →
        Along (step bytesOnly) (fun c => c.mem.writesHeld = true)
          (save bytesOnly (run (step bytesOnly) c [.observe [volumeWith 2 50] bytesPolicy 2]) w).2 later :=
  capacity_hold_persists bytesOnly emptyMachine [volumeWith 1 4] bytesPolicy 1 (volumeWith 1 4) afterCritical
    (by decide +kernel) (by decide) (by decide) [.observe [volumeWith 2 50] bytesPolicy 2] (by decide +kernel)

/-- The critical measurement was not saved before the restart. -/
theorem unsaved_hold_lost :
    let c := run (step bytesOnly) emptyMachine [.observe [volumeWith 1 4] bytesPolicy 1]
    c.mem.writesHeld = true ∧ (step bytesOnly c .load).mem.writesHeld = false := by
  decide +kernel

end FileES.Storage
