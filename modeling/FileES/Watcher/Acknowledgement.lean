import FileES.Watcher.Deletions
import FileES.Watcher.Publication

/-! What an acknowledged publication does to the durable baseline and to the manifest in memory. -/

namespace FileES.Watcher

open Go Lib.Runs PublicationEntry List AList

def acknowledgeOr (io : Bool) (s : Scanner) (p : PublicationSnapshot) : Scanner :=
  match acknowledgePublication io s p with
  | .ok s' => s'
  | .error _ => s

def PublicationEntry.value (e : PublicationEntry) : Option Meta := if e.present then some e.meta else none

/-- `m'` holds what the snapshot observed on its paths and what `m` holds on all others. -/
structure Merged (p : PublicationSnapshot) (m m' : Index) : Prop where
  inside : ∀ e ∈ p.entries, m'.lookup e.path = e.value
  outside : ∀ q, q ∉ p.entries.map PublicationEntry.path → m'.lookup q = m.lookup q

structure Agree (s s' : Scanner) : Prop where
  base : ∀ q, s'.base.lookup q = s.base.lookup q
  cur : ∀ q, s'.cur.lookup q = s.cur.lookup q
  acknowledged : ∀ q, upTo s'.acknowledged q = upTo s.acknowledged q

def Differs (info : EntryInfo) (known : Option Meta) : Prop :=
  ∀ m, known = some m → info.size ≠ m.size ∨ info.modTime ≠ m.mtimeSec

variable {s s' : Scanner} {p : PublicationSnapshot} {m m' m'' : Index} {e : PublicationEntry} {q : Path}

lemma lookup_record : (record m e).lookup q = if q = e.path then e.value else m.lookup q := by
  rw [record, value]
  by_cases hq : q = e.path
  · subst hq
    cases e.present <;> simp
  · cases e.present <;> simp [hq, lookup_insert_ne hq, lookup_erase_ne hq]

lemma merged_foldl (hn : (p.entries.map path).Nodup) : Merged p m (p.entries.foldl record m) := by
  suffices h : ∀ es : List PublicationEntry, (es.map path).Nodup → ∀ m : Index,
      (∀ e ∈ es, (es.foldl record m).lookup e.path = e.value) ∧
        ∀ q, q ∉ es.map path → (es.foldl record m).lookup q = m.lookup q from
    ⟨(h p.entries hn m).1, (h p.entries hn m).2⟩
  intro es hn
  induction es with
  | nil => simp
  | cons e es ih =>
    intro m
    obtain ⟨he, hn⟩ := nodup_cons.mp hn
    obtain ⟨hin, hout⟩ := ih hn (record m e)
    refine ⟨fun e' he' => ?_, fun q hq => ?_⟩
    · rcases mem_cons.mp he' with rfl | he'
      · exact (hout _ he).trans (by rw [lookup_record, if_pos rfl])
      · exact hin e' he'
    · rw [map_cons, mem_cons, not_or] at hq
      exact (hout q hq.2).trans (by rw [lookup_record, if_neg hq.1])

lemma Merged.again (h : Merged p m m') (h' : Merged p m' m'') (q : Path) : m''.lookup q = m'.lookup q := by
  by_cases hq : q ∈ p.entries.map path
  · obtain ⟨e, he, rfl⟩ := mem_map.mp hq
    exact (h'.inside e he).trans (h.inside e he).symm
  · exact h'.outside q hq

lemma acknowledgeEntries_maps (es : List PublicationEntry) (s : Scanner) :
    (es.foldl (acknowledgeEntry p) s).base = s.base ∧ (es.foldl (acknowledgeEntry p) s).cur =
      if p.session ≠ s.session ∨ s.sequence ≤ p.sequence then es.foldl record s.cur else s.cur := by
  induction es generalizing s with
  | nil => simp
  | cons e es ih =>
    obtain ⟨hsession, hsequence, _, _⟩ := acknowledgeEntries_fence p [e] s
    obtain ⟨hbase, hcur⟩ := ih (acknowledgeEntry p s e)
    simp only [foldl_cons, foldl_nil] at hsession hsequence ⊢
    rw [hbase, hcur, hsession, hsequence, acknowledgeEntry]
    by_cases hs : p.session = s.session
    · by_cases hq : s.sequence ≤ p.sequence <;> simp [hs, hq]
    · simp [hs]

section

variable (h : acknowledgePublication true s p = .ok s')
include h

lemma acknowledgePublication_ok : p.session ≠ "" ∧ p.entries.all (fun e => publicationPath e.path) = true ∧
    (p.entries.map path).Nodup ∧
    s' = p.entries.foldl (acknowledgeEntry p) { s with base := p.entries.foldl record s.base } := by
  rw [acknowledgePublication, acknowledgePublicationLocked] at h
  split_ifs at h with hsession _ hvalid
  simp only [Bool.not_eq_true, Bool.not_eq_false', Bool.and_eq_true, decide_eq_true_eq] at hvalid
  cases h
  exact ⟨hsession, hvalid.1, hvalid.2, rfl⟩

lemma acknowledgement_spec : Merged p s.base s'.base ∧ s'.session = s.session ∧ s'.sequence = s.sequence ∧
    (if p.session ≠ s.session ∨ s.sequence ≤ p.sequence then Merged p s.cur s'.cur else s'.cur = s.cur) ∧
    ∀ q n, n ≤ upTo s'.acknowledged q ↔ n ≤ upTo s.acknowledged q ∨
      p.session = s.session ∧ q ∈ p.entries.map path ∧ n ≤ p.sequence := by
  obtain ⟨_, _, hn, rfl⟩ := acknowledgePublication_ok h
  obtain ⟨hsession, hsequence, _, hack⟩ :=
    acknowledgeEntries_fence p p.entries { s with base := p.entries.foldl record s.base }
  obtain ⟨hbase, hcur⟩ := acknowledgeEntries_maps (p := p) p.entries { s with base := p.entries.foldl record s.base }
  refine ⟨hbase ▸ merged_foldl hn, hsession, hsequence, ?_, fun q n => ?_⟩
  · rw [hcur]
    split
    · exact merged_foldl hn
    · rfl
  · rw [hack]
    by_cases hs : p.session = s.session
    · rw [if_pos hs, le_upTo_raiseAll]
      simp only [hs, true_and]
    · rw [if_neg hs]
      simp only [hs, false_and, or_false]

lemma acknowledge_again : ∃ s'', acknowledgePublication true s' p = .ok s'' ∧ Agree s' s'' := by
  obtain ⟨hsession, hpaths, hn, _⟩ := acknowledgePublication_ok h
  obtain ⟨hbase, hses, hseq, hcur, hack⟩ := acknowledgement_spec h
  obtain ⟨s'', h'⟩ : ∃ s'', acknowledgePublication true s' p = .ok s'' := by
    rw [acknowledgePublication, acknowledgePublicationLocked, if_neg hsession, hpaths]
    simp [hn]
  obtain ⟨hbase', _, _, hcur', hack'⟩ := acknowledgement_spec h'
  refine ⟨s'', h', hbase.again hbase', ?_, fun q => eq_of_forall_le_iff (fun n => ?_)⟩
  · rw [hses, hseq] at hcur'
    split at hcur
    · rename_i hnew
      rw [if_pos hnew] at hcur'
      exact hcur.again hcur'
    · rename_i hold
      rw [if_neg hold] at hcur'
      exact fun q => by rw [hcur']
  · rw [hack', hack, hses, or_assoc, or_self]

end

/-- An acknowledgement merges exactly the snapshot's paths into the baseline, and into the manifest as long as no scan
cycle has started since the capture. -/
theorem acknowledgement_merges (s : Scanner) (p : PublicationSnapshot) :
    acknowledgeOr false s p = s ∧ ∀ s', acknowledgePublication true s p = .ok s' →
      Merged p s.base s'.base ∧
      (p.session = s.session → p.sequence < s.sequence → s'.cur = s.cur) ∧
      (p.session = s.session → s.sequence ≤ p.sequence → Merged p s.cur s'.cur) ∧
      (∃ s'', acknowledgePublication true s' p = .ok s'' ∧ Agree s' s'') ∧
      (∀ q, upTo s.acknowledged q ≤ upTo s'.acknowledged q) ∧
      ∀ s₀ paths vs, capturePublication s₀ paths = .ok p → s = run scanStep s₀ vs → ∀ q ∈ paths, ∀ info : EntryInfo,
        Differs info (s₀.cur.lookup q) → Differs info (s'.base.lookup q) := by
  refine ⟨?_, fun s' h => ?_⟩
  · rw [acknowledgeOr, acknowledgePublication, acknowledgePublicationLocked]
    split_ifs <;> simp_all
  obtain ⟨hbase, _, _, hcur, hack⟩ := acknowledgement_spec h
  refine ⟨hbase, fun hs hlt => ?_, fun _ hle => ?_, acknowledge_again h, fun q => (hack q _).mpr (.inl le_rfl), ?_⟩
  · rwa [if_neg (by simp [hs, hlt])] at hcur
  · rwa [if_pos (.inr hle)] at hcur
  · intro s₀ paths vs hcapture _ q hq info hdiffers
    rw [capturePublication] at hcapture
    split at hcapture
    · cases hcapture
      have hvalue := hbase.inside (observe s₀.cur q) (mem_map_of_mem hq)
      rw [show (observe s₀.cur q).path = q from rfl] at hvalue
      rw [hvalue, PublicationEntry.value, observe, PublicationEntry.meta]
      cases hl : s₀.cur.lookup q with
      | none => simp [Differs]
      | some m => simpa [hl] using hdiffers
    · cases hcapture

def publishing : Scanner where
  session := "s"
  sequence := 1
  cur := AList.singleton "a".toList { size := 1 }

def captured : PublicationSnapshot := ⟨"s", 1, [observe publishing.cur "a"]⟩

def recovered : PublicationSnapshot := ⟨"r", 1, [⟨"a", true, 0, 9, "", "", false⟩]⟩

def pendingCycle : Scan where
  root := { name := "wc", info := none, children := .nil }
  now := 0
  publicationPending := true

theorem acknowledgement_merges_captured :
    (acknowledgeOr true publishing captured).base.lookup "a".toList = some { size := 1 } ∧
      Merged captured publishing.base (acknowledgeOr true publishing captured).base :=
  ⟨by decide, ((acknowledgement_merges publishing captured).2 _ rfl).1⟩

/-- A cycle that ends early because a publication is pending counts like a completed scan. -/
theorem skipped_cycle_prevents_merge :
    capturePublication publishing ["a".toList] = .ok captured ∧
      ((scanCycle (acknowledgeOr true publishing recovered) pendingCycle).1.cur.lookup "a".toList).map Meta.size = some 9 ∧
      ((acknowledgeOr true (scanCycle (acknowledgeOr true publishing recovered) pendingCycle).1
        captured).cur.lookup "a".toList).map Meta.size = some 9 ∧
      (captured.entries.map PublicationEntry.size) = [1] := by
  refine ⟨rfl, ?_, ?_, rfl⟩
  · decide
  · decide

end FileES.Watcher
