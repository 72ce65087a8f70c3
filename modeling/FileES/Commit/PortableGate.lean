import FileES.Commit.Service
import FileES.Portable.Name

/-! The gate that keeps names which cannot exist on every platform out of the queue. -/

namespace FileES.Commit

open Go Portable Watcher List Option

variable (readDir : Path → Option (List Str)) (toUpper : Str → Str)

def gateProblem (wc rel : Path) : Option Problem :=
  let name := base rel
  match segmentProblem name with
  | some problem => some problem
  | none =>
    let parent := dir rel
    match readDir (joinPath wc (if parent = ['.'] then [] else parent)) with
    | none => none
    | some siblings => (collides toUpper name siblings).map (fun other => { kind := .caseCollision, detail := other })

def refuseUnportable (s : Service) (ev : Event) : Bool :=
  if ev.op ≠ .added && ev.op ≠ .renamed then false
  else if s.wc = [] then false
  else (gateProblem readDir toUpper s.wc ev.rel).isSome

def Publishable (rel : Path) : Prop :=
  (∀ seg ∈ split rel, segmentProblem seg = none) ∧
    (∀ parent ∈ parentPaths rel, ∀ seg ∈ split parent, segmentProblem seg = none) ∧ safeIntentPath rel = true

def directoryNames (rel : Path) : List Str :=
  (split rel).dropLast ++ (split (trim '/' (trimSpace rel))).dropLast

variable {rel p : Path}

lemma forall_parentPaths {P : Str → Prop} : (∀ parent ∈ parentPaths rel, ∀ seg ∈ split parent, P seg) ↔
      ∀ seg ∈ (split (trim '/' (trimSpace rel))).dropLast, P seg :=
  forall_parentsFrom le_rfl

lemma containsAny_of_portable (h : ∀ seg ∈ split p, segmentProblem seg = none) :
    containsAny p ['\\', ':', Char.ofNat 0, Char.ofNat 13, Char.ofNat 10] = false := by
  rw [containsAny_eq_false]
  intro c hc hbad
  rcases mem_split_of_mem hc with rfl | ⟨seg, hs, hcs⟩
  · revert hbad
    decide
  · obtain ⟨_, hr, _⟩ := segmentProblem_eq_none (h seg hs)
    obtain ⟨_, hback, hctl, hres⟩ := runeProblem_eq_none.mp hr c hcs
    simp only [mem_cons, not_mem_nil, or_false] at hbad
    rcases hbad with rfl | rfl | rfl | rfl | rfl
    · exact hback rfl
    · exact absurd hres (by decide)
    · exact absurd hctl (by decide)
    · exact absurd hctl (by decide)
    · exact absurd hctl (by decide)

lemma safeIntentPath_of_portable (h : ∀ seg ∈ split p, segmentProblem seg = none) :
    safeIntentPath p = true ↔ ∀ seg ∈ split p, reservedSegment seg = false := by
  have hplain : ∀ seg ∈ split p, Plain seg := fun seg hs => plain_of_portable (h seg hs)
  constructor
  · intro hsafe seg hs
    exact reservedSegment_not_of_safe hsafe hs
  · intro hres
    have hhead : ∀ seg q, p = seg ++ '/' :: q → '/' ∉ seg → seg ∈ split p := by
      intro seg q hp hn
      rw [hp, split_append, split_of_notMem hn]
      simp
    have hwhole : ∀ seg, p = seg → '/' ∉ seg → seg ∈ split p := by
      intro seg hp hn
      rw [hp, split_of_notMem hn]
      simp
    have hnil : p ≠ [] := fun hp => (hplain [] (hwhole [] hp (by simp))).1 rfl
    have hdot : p ≠ "." := fun hp => (hplain _ (hwhole _ hp (by decide))).2.1 rfl
    have hup : p ≠ ".." := fun hp => (hplain _ (hwhole _ hp (by decide))).2.2 rfl
    have hups : hasPrefix p "../" = false := by
      by_contra hp
      obtain ⟨q, hq⟩ := hasPrefix_iff.mp (by simpa using hp)
      exact (hplain _ (hhead ".." q hq.symm (by decide))).2.2 rfl
    have hsvn : p ≠ ".svn" := fun hp => absurd (hres _ (hwhole _ hp (by decide))) (by decide)
    have hfilees : p ≠ ".filees" := fun hp => absurd (hres _ (hwhole _ hp (by decide))) (by decide)
    have hsvns : hasPrefix p ".svn/" = false := by
      by_contra hp
      obtain ⟨q, hq⟩ := hasPrefix_iff.mp (by simpa using hp)
      exact absurd (hres _ (hhead ".svn" q hq.symm (by decide))) (by decide)
    have hfileess : hasPrefix p ".filees/" = false := by
      by_contra hp
      obtain ⟨q, hq⟩ := hasPrefix_iff.mp (by simpa using hp)
      exact absurd (hres _ (hhead ".filees" q hq.symm (by decide))) (by decide)
    have hany : (split p).any reservedSegment = false := by simpa [List.any_eq_false] using hres
    simp only [safeIntentPath, hany, hups, hsvns, hfileess, isAbs_eq_false_of_plain hplain,
      containsAny_of_portable h, clean_eq_self hplain, Bool.and_eq_true, bne_iff_ne, Bool.not_false, beq_iff_eq]
    exact ⟨trivial, ⟨⟨⟨⟨⟨⟨⟨⟨⟨⟨hnil, hdot⟩, hup⟩, trivial⟩, trivial⟩, trivial⟩, trivial⟩, hsvn⟩, hfilees⟩, trivial⟩, trivial⟩⟩

lemma hasSuffix_slash_of_portable (h : ∀ seg ∈ split rel, segmentProblem seg = none) :
    hasSuffix rel ['/'] = false := by
  by_contra hs
  obtain ⟨d, rfl⟩ := hasSuffix_iff.mp (by simpa using hs)
  have hempty : [] ∈ split (d ++ ['/']) := by
    rw [split_append, split_nil]
    simp
  exact absurd (h [] hempty) (by decide)

variable {readDir toUpper} in
lemma lastSegment_of_admitted {s : Service} {ev : Event} (hop : ev.op = .added ∨ ev.op = .renamed)
    (ha : refuseUnportable readDir toUpper s ev = false) (hwc : s.wc ≠ []) (hs : hasSuffix ev.rel ['/'] = false) :
    segmentProblem (lastSegment ev.rel) = none := by
  have hguard : (decide (ev.op ≠ .added) && decide (ev.op ≠ .renamed)) = false := by
    rcases hop with hop | hop <;> simp [hop]
  have hbase : segmentProblem (base ev.rel) = none := by
    rw [refuseUnportable, hguard] at ha
    simp only [Bool.false_eq_true, if_false, hwc, isSome_eq_false_iff, isNone_iff_eq_none] at ha
    rw [gateProblem] at ha
    cases hp : segmentProblem (base ev.rel) with
    | none => rfl
    | some problem => simp [hp] at ha
  have hne : ev.rel ≠ [] := by
    intro hnil
    rw [hnil] at hbase
    exact absurd hbase (by decide)
  rwa [base_eq_lastSegment hne hs] at hbase

/-- What the gate admits is publishable exactly when the directories above have portable names, none reserved. -/
theorem admitted_publishable_iff (s : Service) (ev : Event) (hop : ev.op = .added ∨ ev.op = .renamed)
    (ha : refuseUnportable readDir toUpper s ev = false) :
    Publishable ev.rel ↔
      (∀ name ∈ directoryNames ev.rel, segmentProblem name = none) ∧
        (∀ seg ∈ split ev.rel, reservedSegment seg = false) ∧ hasSuffix ev.rel ['/'] = false ∧
        (s.wc = [] → segmentProblem (lastSegment ev.rel) = none) := by
  rw [Publishable, forall_parentPaths]
  constructor
  · rintro ⟨hsegs, hparents, hsafe⟩
    refine ⟨?_, fun seg hs => reservedSegment_not_of_safe hsafe hs, hasSuffix_slash_of_portable hsegs,
      fun _ => hsegs _ (lastSegment_mem _)⟩
    intro name hname
    rcases mem_append.mp hname with hname | hname
    · exact hsegs name (mem_of_mem_dropLast hname)
    · exact hparents name hname
  · rintro ⟨hdirs, hres, hslash, hlast⟩
    have hsegs : ∀ seg ∈ split ev.rel, segmentProblem seg = none := by
      intro seg hseg
      rcases mem_split_cases hseg with hseg | rfl
      · exact hdirs seg (mem_append_left _ hseg)
      · by_cases hwc : s.wc = []
        · exact hlast hwc
        · exact lastSegment_of_admitted hop ha hwc hslash
    exact ⟨hsegs, fun name hname => hdirs name (mem_append_right _ hname),
      (safeIntentPath_of_portable hsegs).mpr hres⟩

theorem admitted_publishable_plain :
    Publishable "plany/rzut.dwg" := by
  refine (admitted_publishable_iff (fun _ => none) id { wc := "/wc" }
    { path := "/wc/plany/rzut.dwg", rel := "plany/rzut.dwg", op := .added } (.inl rfl)
    (by decide)).mpr ⟨by decide, by decide, by decide, by decide⟩

theorem device_directory_admitted :
    refuseUnportable (fun _ => none) id { wc := "/wc" }
        { path := "/wc/CON/x.txt", rel := "CON/x.txt", op := .added } = false ∧
      ¬ Publishable "CON/x.txt" ∧
      refuseUnportable (fun _ => none) id { wc := "/wc" }
        { path := "/wc/.filees/tickets/t.json", rel := ".filees/tickets/t.json", op := .added } = false ∧
      ¬ Publishable ".filees/tickets/t.json" := by
  refine ⟨by decide, ?_, by decide, ?_⟩
  · rintro ⟨h, _⟩
    exact absurd (h "CON" (by decide)) (by decide)
  · rintro ⟨_, _, h⟩
    exact absurd h (by decide)

end FileES.Commit
