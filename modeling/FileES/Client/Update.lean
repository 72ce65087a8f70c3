import FileES.Go.Strings
import FileES.Lib.Durable
import FileES.Lib.Fallible
import FileES.Lib.Runs

/-! The client's own updates, and the mark that keeps older releases out. -/

namespace FileES.Update

open Go Lib.Durable Lib.Fallible Lib.Runs

def allDigits (s : Str) : Bool := s.all Char.isDigit

def canonicalClientVersion (value : Str) : Str :=
  match cut "r+" (trimSpace value).reverse with
  | none => trimSpace value
  | some (after, rest) =>
    let before := rest.drop 2
    if before = [] || after = [] || !allDigits after then trimSpace value else before.reverse ++ '.' :: after.reverse

def sameClientVersion (left right : Str) : Bool := canonicalClientVersion left = canonicalClientVersion right

def numericPart (part : Str) : Str :=
  if part.dropWhile (· = '0') = [] then ['0'] else part.dropWhile (· = '0')

def numericClientVersionParts (value : Str) : Option (List Str) :=
  let parts := (canonicalClientVersion value).splitOn '.'
  if parts.all (fun part => part ≠ [] && allDigits part) then some (parts.map numericPart) else none

def comparePart (left right : Str) : Ordering :=
  if left.length < right.length then .lt else if right.length < left.length then .gt
  else if left < right then .lt else if right < left then .gt else .eq

def padTo (n : ℕ) (parts : List Str) : List Str := parts ++ List.replicate (n - parts.length) ['0']

def compareParts (left right : List Str) : Ordering :=
  let count := max left.length right.length
  ((padTo count left).zipWith comparePart (padTo count right)).foldl (fun o o' => o.then o') .eq

def compareNumericClientVersions (left right : Str) : Option Ordering := do
  return compareParts (← numericClientVersionParts left) (← numericClientVersionParts right)

def clientUpdateAvailable (available current : Str) : Bool :=
  !sameClientVersion available current && (compareNumericClientVersions available current).all (· = .gt)

/-- A signed release that has passed the checks of its envelope and its manifest. -/
structure Release where
  releaseID : Str
  (sequence securityEpoch : ℕ)
  version : Str
  valid : releaseID ≠ [] ∧ sequence ≠ 0 ∧ securityEpoch ≠ 0

structure State where
  (highestSequence securityEpoch : ℕ)
  (releaseID installedVersion : Str)
  deriving DecidableEq, Repr

inductive UpdateError
  | epochRollback (release state : ℕ)
  | sequenceRollback (release state : ℕ)
  | sequenceFork (state release : Str) (sequence : ℕ)
  | downloading
  | load
  | resolve
  | pending
  | plan
  | install
  | save
  deriving DecidableEq, Repr

def State.check (s : State) (r : Release) : Except UpdateError Unit := do
  require (s.securityEpoch ≤ r.securityEpoch) (.epochRollback r.securityEpoch s.securityEpoch)
  require (s.highestSequence ≤ r.sequence) (.sequenceRollback r.sequence s.highestSequence)
  require (r.sequence ≠ s.highestSequence || s.releaseID = [] || r.releaseID = s.releaseID)
    (.sequenceFork s.releaseID r.releaseID r.sequence)

def State.raised (s : State) (r : Release) (installedVersion : Str) : State where
  highestSequence := max s.highestSequence r.sequence
  releaseID := if s.highestSequence < r.sequence then r.releaseID else s.releaseID
  securityEpoch := max s.securityEpoch r.securityEpoch
  installedVersion := trimSpace installedVersion

def State.advance (s : State) (r : Release) (installedVersion : Str) : Except UpdateError State := do
  s.check r
  return s.raised r installedVersion

/-- `installed` is history: the releases whose files have been put in place, the last one first. -/
structure Machine where
  file : Option State
  (currentVersion appliedVersion : Str)
  appliedRestart : Bool
  installed : List Release

def Machine.state (m : Machine) : State := m.file.getD ⟨0, 0, [], []⟩

structure Answers where
  (downloading loads : Bool)
  release : Option Release
  (pending restart : Option Bool)
  installs : Bool
  saves : Write

variable (m : Machine) (a : Answers)

def Machine.version : Str :=
  if m.appliedVersion ≠ [] then canonicalClientVersion m.appliedVersion
  else if m.currentVersion ≠ [] then canonicalClientVersion m.currentVersion
  else canonicalClientVersion m.state.installedVersion

def installationNeeded (r : Release) (current : Str) : Except UpdateError Bool :=
  if clientUpdateAvailable r.version current then .ok true
  else if sameClientVersion r.version current then present a.pending .pending
  else .ok false

def resolve : Except UpdateError Release := do
  require a.loads .load
  let r ← present a.release .resolve
  m.state.check r
  return r

def choose : Except UpdateError (Option (Release × Bool)) := do
  require (!a.downloading) .downloading
  let r ← resolve m a
  if ← installationNeeded a r m.version then
    let restart ← present a.restart .plan
    require a.installs .install
    return some (r, restart)
  else return none

def install (r : Release) (restart : Bool) (w : Write) : Machine × Except UpdateError (Str × Bool) :=
  let m' := { m with appliedVersion := r.version, appliedRestart := restart, installed := r :: m.installed }
  match m.state.advance r r.version with
  | .error e => (m', .error e)
  | .ok next => ({ m' with file := w.store m.file (some next) }, if w.ok then .ok (r.version, restart) else .error .save)

def apply : Machine × Except UpdateError (Str × Bool) :=
  if m.appliedRestart then (m, .ok (m.appliedVersion, true))
  else
    match choose m a with
    | .error e => (m, .error e)
    | .ok none => (m, .ok (m.version, false))
    | .ok (some (r, restart)) => install m r restart a.saves

inductive Event
  | apply (a : Answers)
  | restart (currentVersion : Str)

def step : Event → Machine
  | .apply a => (apply m a).1
  | .restart v => { m with currentVersion := v, appliedVersion := [], appliedRestart := false }

def Event.saves : Event → Bool
  | .apply a => a.saves.landed
  | .restart _ => true

variable {m : Machine} {r : Release} {s : State} {a : Answers} {restart : Bool} {w : Write} {v : Str}

def NotBack (later earlier : Release) : Prop :=
  earlier.sequence ≤ later.sequence ∧ earlier.securityEpoch ≤ later.securityEpoch ∧
    (earlier.sequence = later.sequence → earlier.releaseID = later.releaseID)

lemma check_ok : s.check r = .ok () ↔ s.securityEpoch ≤ r.securityEpoch ∧ s.highestSequence ≤ r.sequence ∧
    (r.sequence = s.highestSequence → s.releaseID ≠ [] → r.releaseID = s.releaseID) := by
  simp only [State.check, bind_ok, require_ok, exists_const]
  grind

lemma check_of_choose (h : choose m a = .ok (some (r, restart))) : m.state.check r = .ok () := by
  simp only [choose, resolve, bind_ok] at h
  obtain ⟨_, _, r', ⟨_, _, r'', _, _, hcheck, hr⟩, needed, _, h⟩ := h
  cases hr
  cases needed with
  | false => cases h
  | true =>
    simp only [if_true, bind_ok] at h
    obtain ⟨_, _, _, _, h⟩ := h
    cases h
    exact hcheck

def Covers (s : State) (r : Release) : Prop :=
  r.sequence ≤ s.highestSequence ∧ r.securityEpoch ≤ s.securityEpoch ∧
    (r.sequence = s.highestSequence → r.releaseID = s.releaseID)

structure Marked (m : Machine) : Prop where
  named : m.state.highestSequence ≠ 0 → m.state.releaseID ≠ []
  covered : ∀ r ∈ m.installed, Covers m.state r
  ordered : m.installed.Pairwise NotBack

lemma covers_raised (hn : s.highestSequence ≠ 0 → s.releaseID ≠ []) (hc : s.check r = .ok ()) :
    Covers (s.raised r v) r := by
  rw [check_ok] at hc
  have := r.valid
  grind [Covers, State.raised]

lemma Covers.raised {r' : Release} (h : Covers s r') (hc : s.check r = .ok ()) :
    Covers (s.raised r v) r' ∧ NotBack r r' := by
  rw [check_ok] at hc
  have := r'.valid
  grind [Covers, NotBack, State.raised]

lemma Marked.install (h : Marked m) (hc : m.state.check r = .ok ()) (hw : w.landed = true) :
    Marked (install m r restart w).1 := by
  have hnext : m.state.advance r r.version = .ok (m.state.raised r r.version) := by
    rw [State.advance, hc]
    rfl
  rw [Update.install, hnext]
  have hstate : ({ m with
      file := w.store m.file (some (m.state.raised r r.version)), appliedVersion := r.version, appliedRestart := restart,
      installed := r :: m.installed } : Machine).state = m.state.raised r r.version := by
    simp [Machine.state, Write.store, hw]
  refine ⟨?_, ?_, ?_⟩
  · rw [hstate]
    have := r.valid
    have := h.named
    grind [State.raised]
  · intro r' hr'
    rw [hstate]
    rcases List.mem_cons.mp hr' with rfl | hr'
    · exact covers_raised h.named hc
    · exact ((h.covered r' hr').raised hc).1
  · exact List.pairwise_cons.mpr ⟨fun r' hr' => ((h.covered r' hr').raised (v := []) hc).2, h.ordered⟩

lemma Marked.step {e : Event} (h : Marked m) (he : e.saves = true) : Marked (step m e) := by
  cases e with
  | restart v => exact { h with }
  | apply a =>
    rw [Update.step, apply]
    split_ifs
    · exact h
    split
    · exact h
    · exact h
    · rename_i r restart hchoose
      exact h.install (check_of_choose hchoose) he

/-- If every mark is stored, installed releases never go back in sequence or epoch and never fork. -/
theorem updates_never_go_back (version : Str) (es : List Event)
    (h : Admits step (fun _ e => e.saves = true) ⟨none, version, [], false, []⟩ es) :
    Along step (fun m => m.installed.Pairwise NotBack) ⟨none, version, [], false, []⟩ es := by
  have hfirst : Marked ⟨none, version, [], false, []⟩ :=
    ⟨fun hzero => absurd rfl hzero, fun r hr => (by cases hr), List.Pairwise.nil⟩
  have hmarked : Along step Marked ⟨none, version, [], false, []⟩ es :=
    along_of_admits step (fun _ _ hm he => hm.step he) hfirst h
  exact fun pre hpre => (hmarked pre hpre).ordered

def sampleApply (sequence : ℕ) (version : Str) (w : Write) : Event :=
  .apply ⟨false, true, some ⟨['r'], sequence + 1, 1, version, by simp⟩, some false, some true, true, w⟩

def sampleRun (w : Write) : List Event :=
  [sampleApply 1 "1.4+r850" w, .restart "1.4.850", sampleApply 0 "nightly" .done,
    sampleApply 2 "1.5" .done]

theorem saved_mark_refuses_older :
    (run step ⟨none, [], [], false, []⟩ (sampleRun .done)).installed.map Release.sequence = [3, 2] ∧
      (run step ⟨none, [], [], false, []⟩ (sampleRun .done)).installed.Pairwise NotBack :=
  ⟨by decide +kernel, (updates_never_go_back [] (sampleRun .done) (by decide +kernel)).last⟩

/-- The process dies before the mark is stored; an older release of incomparable version is installed. -/
theorem older_release_installed :
    (run step ⟨none, [], [], false, []⟩ (sampleRun .failed)).installed.map Release.sequence = [1, 2] := by
  decide +kernel

end FileES.Update
