import FileES.Go.Text
import FileES.Lib.Fallible
import FileES.Portable.Name

/-! The repository name derived from the file name a contributor supplies. -/

namespace FileES.Naming

open Go Lib.Fallible Portable

inductive NamingError
  | empty
  | path
  | noExtension
  | emptyBase
  | emptyExt
  | invalidExt
  | emptyAfter
  deriving DecidableEq, Repr

def polish : List (Char × Char) := List.zip "ąćęłńóśżźĄĆĘŁŃÓŚŻŹ".toList "acelnoszzACELNOSZZ".toList

def transliterate (s : Str) : Str := s.map (fun r => (polish.lookup r).getD r)

def isWhitespace (c : Char) : Bool := c = ' ' || c = '\t' || c = '\n' || c = '\r' || c = Char.ofNat 12

def isSafe (c : Char) : Bool := 'A' ≤ c && c ≤ 'Z' || 'a' ≤ c && c ≤ 'z' || isDigit c || c = '_' || c = '-'

/-- Replaces every maximal run of the runes in `p` by one hyphen. -/
def replaceRuns (p : Char → Bool) : Str → Str
  | [] => []
  | c :: s => if !p c then c :: replaceRuns p s else if s.head?.any p then replaceRuns p s else '-' :: replaceRuns p s

def extensionPattern (ext : Str) : Bool :=
  1 ≤ ext.length && ext.length ≤ 12 && ext.all (fun c => 'a' ≤ c && c ≤ 'z' || isDigit c)

/-- The general category Cf. -/
def isFormat (c : Char) : Bool :=
  [(0xAD, 0xAD), (0x600, 0x605), (0x61C, 0x61C), (0x6DD, 0x6DD), (0x70F, 0x70F), (0x890, 0x891), (0x8E2, 0x8E2),
    (0x180E, 0x180E), (0x200B, 0x200F), (0x202A, 0x202E), (0x2060, 0x2064), (0x2066, 0x206F), (0xFEFF, 0xFEFF),
    (0xFFF9, 0xFFFB), (0x110BD, 0x110BD), (0x110CD, 0x110CD), (0x13430, 0x1343F), (0x1BCA0, 0x1BCA3),
    (0x1D173, 0x1D17A), (0xE0001, 0xE0001), (0xE0020, 0xE007F)].any (fun r => r.1 ≤ c.toNat && c.toNat ≤ r.2)

def splitName (filename : Str) : Except NamingError (Str × Str) := do
  require (filename ≠ [] && trimSpace filename ≠ []) .empty
  require (!(containsAny filename "/\\\x00" || contains filename ".." || filename = "." || filename = "..")) .path
  let filename := trimSpace filename
  let base ← present (beforeLast '.' filename) .noExtension
  require (base ≠ []) .emptyBase
  let ext := filename.drop (base.length + 1)
  require (ext ≠ []) .emptyExt
  pure (base, ext)

def normalizeExt (L : Lowering) (ext : Str) : Except NamingError Str :=
  let ext := toLower L (trimSpace (transliterate ext))
  if extensionPattern ext then .ok ext else .error .invalidExt

def normalizeBase (base : Str) : Except NamingError Str :=
  let base := trimSpace base
  if base = [] then .error .emptyBase
  else
    let base := replaceAll (transliterate base) '.' '-'
    let base := replaceRuns (fun c => !isSafe c) (replaceRuns isWhitespace base)
    let base := trim '-' (replaceRuns (· = '-') base)
    if base = [] then .error .emptyAfter
    else if contains base ".." || containsAny base "/\\" then .error .path
    else .ok base

def targetName (L : Lowering) (source : Str) : Except NamingError Str := do
  let (base, ext) ← splitName source
  let base ← normalizeBase base
  let ext ← normalizeExt L ext
  pure (base ++ '.' :: ext)

def normalizePart (part : Str) : Except NamingError Str :=
  if part = [] || byteLen part > 512 || contains part ".." || hasPrefix part "." then .error .path
  else normalizeBase part

def targetPath (L : Lowering) (original relative : Str) : Except NamingError Str := do
  let name ← targetName L original
  if relative = [] then pure name
  else do
    require (!(byteLen relative > 4096 || containsAny relative "\\:\x00")) .path
    require (relative.all (fun r => !(isControl r || isFormat r))) .path
    require (!((split relative).length > 32 || lastSegment relative ≠ original)) .path
    let parts ← (split relative).dropLast.mapM normalizePart
    pure (join (parts ++ [name]))

example : targetPath .ascii "Opinia Łódź.PDF" "Oferta 1/Opinia Łódź.PDF" = .ok "Oferta-1/Opinia-Lodz.pdf".toList := by
  decide

/-- A rune that no rule about names objects to. -/
def Harmless (c : Char) : Prop :=
  c ∉ ("/\\:\x00" : Str) ∧ isSpace c = false ∧ isWhitespace c = false ∧ isControl c = false ∧ isFormat c = false ∧
    isControlRune c = false ∧ isReservedRune c = false ∧ polish.lookup c = none ∧ c.utf8Size = 1

variable {s : Str} {c : Char} {p : Char → Bool}

lemma harmless_ascii : ∀ n < 128, isSafe (Char.ofNat n) = true ∨ Char.ofNat n = '.' → Harmless (Char.ofNat n) := by
  simp only [Harmless]
  decide

lemma harmless_of_safe (h : isSafe c = true ∨ c = '.') : Harmless c := by
  have hc : c.toNat < 128 := by
    simp only [isSafe, isDigit, Bool.or_eq_true, Bool.and_eq_true, decide_eq_true_eq, Char.le_def,
      UInt32.le_iff_toNat_le] at h
    rcases h with ((((h | h) | h) | rfl) | rfl) | rfl
    · exact h.2.trans_lt (by decide)
    · exact h.2.trans_lt (by decide)
    · exact h.2.trans_lt (by decide)
    · decide
    · decide
    · decide
  have hn := harmless_ascii c.toNat hc
  rw [Char.ofNat_toNat] at hn
  exact hn h

lemma trimmed_of_forall (h : ∀ c ∈ s, p c = false) : (s.dropWhile p).rdropWhile p = s := by
  have hd : s.dropWhile p = s := List.dropWhile_eq_self_iff.mpr (fun hl => by simp [h _ (List.getElem_mem hl)])
  rw [hd, List.rdropWhile_eq_self_iff]
  exact fun hl => by simp [h _ (List.getLast_mem hl)]

lemma trimSpace_harmless (h : ∀ c ∈ s, Harmless c) : trimSpace s = s := trimmed_of_forall (fun c hc => (h c hc).2.1)

lemma transliterate_harmless (h : ∀ c ∈ s, Harmless c) : transliterate s = s := by
  refine (List.map_congr_left (fun c hc => ?_)).trans s.map_id
  obtain ⟨_, _, _, _, _, _, _, hp, _⟩ := h c hc
  rw [hp]
  rfl

lemma byteLen_eq_length (h : ∀ c ∈ s, c.utf8Size = 1) : byteLen s = s.length := by
  rw [byteLen, List.map_congr_left (g := fun _ => 1) h]
  simp

lemma length_le_byteLen (s : Str) : s.length ≤ byteLen s := by
  induction s with
  | nil => exact le_rfl
  | cons c s ih =>
    have hc := c.utf8Size_pos
    rw [byteLen, List.map_cons, List.sum_cons, List.length_cons, ← byteLen]
    omega

lemma mem_replaceRuns (h : c ∈ replaceRuns p s) : c = '-' ∨ c ∈ s ∧ p c = false := by
  induction s with
  | nil => cases h
  | cons d s ih =>
    have hrest : c ∈ replaceRuns p s → c = '-' ∨ c ∈ d :: s ∧ p c = false := fun h =>
      (ih h).imp_right (fun hc => ⟨List.mem_cons_of_mem d hc.1, hc.2⟩)
    rw [replaceRuns] at h
    split_ifs at h with hd
    · rcases List.mem_cons.mp h with rfl | h
      · exact .inr ⟨List.mem_cons_self, by simpa using hd⟩
      · exact hrest h
    · exact hrest h
    · rcases List.mem_cons.mp h with rfl | h
      · exact .inl rfl
      · exact hrest h

lemma length_replaceRuns (p : Char → Bool) (s : Str) : (replaceRuns p s).length ≤ s.length := by
  induction s with
  | nil => exact le_rfl
  | cons d s ih =>
    rw [replaceRuns, List.length_cons]
    split_ifs
    · exact Nat.succ_le_succ ih
    · omega
    · exact Nat.succ_le_succ ih

lemma replaceRuns_eq (h : ∀ c ∈ s, p c = false) : replaceRuns p s = s := by
  induction s with
  | nil => rfl
  | cons d s ih =>
    rw [replaceRuns, h d List.mem_cons_self, ih (fun c hc => h c (List.mem_cons_of_mem d hc))]
    rfl

def Single (s : Str) : Prop := s.IsChain (fun c d => c = '-' → d ≠ '-')

lemma any_hyphen {o : Option Char} : o.any (· = '-') = true ↔ '-' ∈ o := by cases o <;> simp [eq_comm]

lemma head_hyphens (s : Str) : '-' ∈ (replaceRuns (· = '-') s).head? ↔ '-' ∈ s.head? := by
  induction s with
  | nil => exact Iff.rfl
  | cons d s ih =>
    rw [replaceRuns]
    split_ifs with hd hn
    · simp
    · rw [ih]
      simp_all [any_hyphen]
    · simp_all

lemma single_hyphens (s : Str) : Single (replaceRuns (· = '-') s) := by
  induction s with
  | nil => exact .nil
  | cons d s ih =>
    rw [replaceRuns]
    split_ifs with hd hn
    · exact List.isChain_cons.mpr ⟨fun y _ hd' => by simp [hd'] at hd, ih⟩
    · exact ih
    · refine List.isChain_cons.mpr ⟨?_, ih⟩
      rintro y hy - rfl
      exact hn (any_hyphen.mpr ((head_hyphens s).mp hy))

lemma replaceRuns_single (h : Single s) : replaceRuns (· = '-') s = s := by
  induction s with
  | nil => rfl
  | cons d s ih =>
    obtain ⟨hd, hs⟩ := List.isChain_cons.mp h
    rw [replaceRuns, ih hs]
    split_ifs with hc hn
    · rfl
    · exact (hd '-' (any_hyphen.mp hn) (by simpa using hc) rfl).elim
    · simp_all

structure SafeBase (b : Str) : Prop where
  nonempty : b ≠ []
  safe : ∀ c ∈ b, isSafe c = true
  single : Single b
  trimmed : trim '-' b = b

/-- The names the policy produces. -/
structure Target (L : Lowering) (b e : Str) : Prop where
  base : SafeBase b
  extension : extensionPattern e = true
  lower : toLower L e = e

variable {L : Lowering} {b b' e name : Str}

lemma infix_trim (c : Char) (s : Str) : trim c s <:+: s :=
  (List.rdropWhile_prefix _ _).isInfix.trans (List.dropWhile_suffix _).isInfix

lemma length_trimSpace (s : Str) : (trimSpace s).length ≤ s.length :=
  (List.rdropWhile_prefix _ _).length_le.trans (List.dropWhile_suffix _).length_le

lemma infix_of_contains {sub : Str} (h : contains s sub = true) : sub <:+: s := by
  induction s with
  | nil =>
    by_cases hs : sub = []
    · exact hs ▸ List.infix_rfl
    · simp [contains, cut, hs] at h
  | cons d s ih =>
    rw [contains, cut] at h
    split at h
    · rename_i hp
      exact (hasPrefix_iff.mp hp).isInfix
    · rw [Option.isSome_map] at h
      exact (ih h).trans (List.suffix_cons d s).isInfix

lemma contains_dots (h : s.count '.' ≤ 1) : contains s ".." = false := by
  by_contra hc
  have hcount := (infix_of_contains (Bool.not_eq_false _ ▸ hc)).sublist.count_le '.'
  exact absurd (hcount.trans h) (by decide)

lemma Harmless.size (h : Harmless c) : c.utf8Size = 1 := by
  obtain ⟨_, _, _, _, _, _, _, _, hs⟩ := h
  exact hs

lemma SafeBase.harmless (h : SafeBase b) : ∀ c ∈ b, Harmless c := fun c hc => harmless_of_safe (.inl (h.safe c hc))

lemma dot_notMem (h : ∀ c ∈ s, isSafe c = true) : '.' ∉ s := fun hd => absurd (h _ hd) (by decide)

lemma SafeBase.dots (h : SafeBase b) : b.count '.' ≤ 1 := by
  rw [List.count_eq_zero_of_not_mem (dot_notMem h.safe)]
  exact Nat.zero_le 1

lemma separators_notMem (h : ∀ c ∈ s, Harmless c) {chars : Str} (hc : chars ⊆ ("/\\:\x00" : Str)) :
    containsAny s chars = false :=
  containsAny_eq_false.mpr (fun c hs hm => (h c hs).1 (hc hm))

lemma normalizeBase_ok (h : normalizeBase b = .ok b') : SafeBase b' ∧ b'.length ≤ b.length := by
  rw [normalizeBase] at h
  dsimp only at h
  split_ifs at h with _ hne
  cases h
  refine ⟨⟨hne, fun c hc => ?_, List.IsChain.infix (single_hyphens _) (infix_trim _ _), trim_idem _ _⟩, ?_⟩
  · rcases mem_replaceRuns ((infix_trim _ _).subset hc) with rfl | ⟨hc, _⟩
    · decide
    · rcases mem_replaceRuns hc with rfl | ⟨_, hs⟩
      · decide
      · simpa using hs
  · refine (infix_trim _ _).length_le.trans ((length_replaceRuns _ _).trans ((length_replaceRuns _ _).trans
      ((length_replaceRuns _ _).trans ?_)))
    simp only [replaceAll, transliterate, List.length_map]
    exact length_trimSpace b

lemma SafeBase.normalizeBase_eq (h : SafeBase b) : normalizeBase b = .ok b := by
  have hdots : replaceAll b '.' '-' = b := by
    refine (List.map_congr_left (fun c hc => if_neg ?_)).trans b.map_id
    rintro rfl
    exact dot_notMem h.safe hc
  have hspace : replaceRuns isWhitespace b = b := replaceRuns_eq (fun c hc => (h.harmless c hc).2.2.1)
  have hsafe : replaceRuns (fun c => !isSafe c) b = b := replaceRuns_eq (fun c hc => by simp [h.safe c hc])
  simp only [normalizeBase, trimSpace_harmless h.harmless, transliterate_harmless h.harmless, hdots, hspace, hsafe,
    replaceRuns_single h.single, h.trimmed, if_neg h.nonempty]
  rw [contains_dots h.dots, separators_notMem h.harmless (by decide)]
  rfl

lemma extension_safe (h : extensionPattern e = true) : e ≠ [] ∧ ∀ c ∈ e, isSafe c = true := by
  simp only [extensionPattern, Bool.and_eq_true, List.all_eq_true, decide_eq_true_eq] at h
  refine ⟨fun he => by simp [he] at h, fun c hc => ?_⟩
  have hl := h.2 c hc
  rw [isSafe, Bool.or_assoc ('A' ≤ c && c ≤ 'Z' : Bool), hl]
  simp

lemma targetName_ok (h : targetName L s = .ok name) : ∃ b e, name = b ++ '.' :: e ∧ Target L b e := by
  obtain ⟨⟨base, ext⟩, hs, b, hb, e, he, h⟩ := bind₃_ok.mp h
  cases h
  rw [normalizeExt] at he
  split_ifs at he with hx
  cases he
  exact ⟨b, _, rfl, (normalizeBase_ok hb).1, hx, toLower_idem _ _⟩

namespace Target

variable (h : Target L b e)
include h

lemma harmless : ∀ c ∈ b ++ '.' :: e, Harmless c := by
  intro c hc
  rcases List.mem_append.mp hc with hc | hc
  · exact h.base.harmless c hc
  · rcases List.mem_cons.mp hc with rfl | hc
    · exact harmless_of_safe (.inr rfl)
    · exact harmless_of_safe (.inl ((extension_safe h.extension).2 c hc))

lemma targetName_eq : targetName L (b ++ '.' :: e) = .ok (b ++ '.' :: e) := by
  obtain ⟨hne, hsafe⟩ := extension_safe h.extension
  have hdot : (b ++ '.' :: e).count '.' ≤ 1 := by
    simp [List.count_eq_zero_of_not_mem (dot_notMem h.base.safe), List.count_eq_zero_of_not_mem (dot_notMem hsafe)]
  have hlast : beforeLast '.' (b ++ '.' :: e) = some b := beforeLast_eq_some.mpr ⟨e, dot_notMem hsafe, rfl⟩
  have hlen : 1 < (b ++ '.' :: e).length := by
    have := List.length_pos_iff.mpr hne
    simp only [List.length_append, List.length_cons]
    omega
  have hsplit : splitName (b ++ '.' :: e) = .ok (b, e) := by
    refine bind_ok.mpr ⟨(), require_ok.mpr ?_, bind_ok.mpr ⟨(), require_ok.mpr ?_, ?_⟩⟩
    · simp [trimSpace_harmless h.harmless]
    · rw [separators_notMem h.harmless (by decide), contains_dots hdot]
      have hone : b ++ '.' :: e ≠ "." := fun he => by simp [he] at hlen
      have htwo : b ++ '.' :: e ≠ ".." := fun he => by simp [he] at hdot
      simp only [hone, htwo, decide_false, Bool.or_false, Bool.not_false]
    · rw [trimSpace_harmless h.harmless]
      refine bind_ok.mpr ⟨b, present_eq_ok.mpr hlast, bind_ok.mpr ⟨(), require_ok.mpr (by simp [h.base.nonempty]), ?_⟩⟩
      have hdrop : (b ++ '.' :: e).drop (b.length + 1) = e := by simp [List.drop_append]
      rw [hdrop]
      exact bind_ok.mpr ⟨(), require_ok.mpr (by simp [hne]), rfl⟩
  have hext : normalizeExt L e = .ok e := by
    have hh : ∀ c ∈ e, Harmless c := fun c hc => harmless_of_safe (.inl (hsafe c hc))
    rw [normalizeExt, transliterate_harmless hh, trimSpace_harmless hh, h.lower]
    exact if_pos h.extension
  exact bind_ok.mpr ⟨(b, e), hsplit, bind_ok.mpr ⟨b, h.base.normalizeBase_eq, bind_ok.mpr ⟨e, hext, rfl⟩⟩⟩

end Target

section

variable {parts : List Str} {original relative result seg : Str}

structure PathTarget (L : Lowering) (result : Str) (parts : List Str) (b e : Str) : Prop where
  name : Target L b e
  segments : split result = parts ++ [b ++ '.' :: e]
  count : parts.length < 32
  directories : ∀ p ∈ parts, SafeBase p ∧ byteLen p ≤ 512

lemma normalizePart_ok (h : normalizePart b = .ok b') : SafeBase b' ∧ byteLen b' ≤ 512 := by
  rw [normalizePart] at h
  split_ifs at h with hb
  obtain ⟨hsafe, hlen⟩ := normalizeBase_ok h
  simp only [Bool.or_eq_true, decide_eq_true_eq, not_or, not_lt] at hb
  refine ⟨hsafe, ?_⟩
  rw [byteLen_eq_length (fun c hc => (hsafe.harmless c hc).size)]
  exact hlen.trans ((length_le_byteLen b).trans hb.1.1.2)

lemma SafeBase.normalizePart_eq (h : SafeBase b) (hb : byteLen b ≤ 512) : normalizePart b = .ok b := by
  have hdot : hasPrefix b "." = false := by
    by_contra hd
    exact dot_notMem h.safe ((hasPrefix_iff.mp (Bool.not_eq_false _ ▸ hd)).subset (by simp))
  rw [normalizePart, contains_dots h.dots, hdot, h.normalizeBase_eq]
  simp [h.nonempty, hb]

lemma harmless_segments (hp : ∀ p ∈ parts, SafeBase p) (ht : Target L b e) (hs : seg ∈ parts ++ [b ++ '.' :: e]) :
    ∀ c ∈ seg, Harmless c := by
  rcases List.mem_append.mp hs with hs | hs
  · exact (hp seg hs).harmless
  · cases List.mem_singleton.mp hs
    exact ht.harmless

namespace PathTarget

variable (h : PathTarget L result parts b e)
include h

lemma harmless (hs : seg ∈ split result) : ∀ c ∈ seg, Harmless c :=
  harmless_segments (fun p hp => (h.directories p hp).1) h.name (h.segments ▸ hs)

lemma ne_nil : result ≠ [] := by
  rintro rfl
  have hmem : b ++ '.' :: e ∈ split [] := h.segments ▸ List.mem_append_right _ List.mem_cons_self
  simp at hmem

lemma mem_result (hc : c ∈ result) : c = '/' ∨ Harmless c :=
  (mem_split_of_mem hc).imp_right (fun ⟨_, hs, hc⟩ => h.harmless hs c hc)

lemma last_safe (hs : seg ∈ split result) : isSafe (seg.getLastD '.') = true := by
  rw [h.segments] at hs
  rcases List.mem_append.mp hs with hs | hs
  · have hp := (h.directories seg hs).1
    rw [List.getLastD_eq_getLast?, List.getLast?_eq_some_getLast hp.nonempty]
    exact hp.safe _ (List.getLast_mem _)
  · cases List.mem_singleton.mp hs
    obtain ⟨hne, hsafe⟩ := extension_safe h.name.extension
    have hcons : (b ++ '.' :: e).getLast? = some (e.getLast hne) := by
      rw [List.getLast?_append_of_ne_nil _ (by simp), List.getLast?_cons, List.getLast?_eq_some_getLast hne]
      rfl
    rw [List.getLastD_eq_getLast?, hcons]
    exact hsafe _ (List.getLast_mem hne)

lemma targetPath_eq (hb : byteLen result ≤ 4096) : targetPath L (lastSegment result) result = .ok result := by
  have hlast : lastSegment result = b ++ '.' :: e := by simp [lastSegment, h.segments]
  have hparts : parts.mapM normalizePart = .ok parts :=
    (mapM_eq_ok_map (g := id) (fun p hp => (h.directories p hp).1.normalizePart_eq (h.directories p hp).2)).trans
      (by rw [List.map_id])
  rw [targetPath, hlast]
  refine bind_ok.mpr ⟨_, h.name.targetName_eq, ?_⟩
  rw [if_neg h.ne_nil]
  refine bind_ok.mpr ⟨(), require_ok.mpr ?_, bind_ok.mpr ⟨(), require_ok.mpr ?_, bind_ok.mpr ⟨(), require_ok.mpr ?_, ?_⟩⟩⟩
  · have hany : containsAny result "\\:\x00" = false := by
      refine containsAny_eq_false.mpr (fun c hc hm => ?_)
      rcases h.mem_result hc with rfl | hc
      · exact absurd hm (by decide)
      · exact hc.1 (List.mem_cons_of_mem _ hm)
    rw [hany, Bool.or_false, Bool.not_eq_true', decide_eq_false_iff_not]
    exact not_lt.mpr hb
  · refine List.all_eq_true.mpr (fun c hc => ?_)
    rcases h.mem_result hc with rfl | ⟨_, _, _, hcontrol, hformat, _⟩
    · decide
    · simp [hcontrol, hformat]
  · have := h.count
    simp [h.segments, hlast]
    omega
  · rw [h.segments, List.dropLast_concat]
    refine bind_ok.mpr ⟨parts, hparts, ?_⟩
    rw [← h.segments, join_split]
    rfl

end PathTarget

lemma targetPath_ok (h : targetPath L original relative = .ok result) : ∃ parts b e, PathTarget L result parts b e := by
  obtain ⟨name, hname, h⟩ := bind_ok.mp h
  obtain ⟨b, e, rfl, ht⟩ := targetName_ok hname
  have hsplit : ∀ parts, (∀ p ∈ parts, SafeBase p) → split (join (parts ++ [b ++ '.' :: e])) = parts ++ [b ++ '.' :: e] :=
    fun parts hp => split_join (fun seg hs hc => (harmless_segments hp ht hs _ hc).1 (by decide)) (by simp)
  split_ifs at h
  · cases h
    exact ⟨[], b, e, ht, by simpa [join] using hsplit [] (by simp), by simp, by simp⟩
  · obtain ⟨_, _, _, _, h⟩ := bind₂_ok.mp h
    obtain ⟨_, hcount, parts, hparts, h⟩ := bind₂_ok.mp h
    cases h
    have hall : ∀ p ∈ parts, SafeBase p ∧ byteLen p ≤ 512 := by
      intro p hp
      obtain ⟨q, _, hq⟩ := (mem_of_mapM_eq_ok hparts).mp hp
      exact normalizePart_ok hq
    refine ⟨parts, b, e, ht, hsplit parts (fun p hp => (hall p hp).1), ?_, hall⟩
    have hlen := congrArg List.length (map_of_mapM_eq_ok (g := fun _ => ()) (fun _ _ _ => rfl) hparts)
    have := List.length_pos_iff.mpr (split_ne_nil relative)
    simp [require_ok] at hcount hlen
    omega

lemma relative_bounded (h : targetPath L original relative = .ok result) (hr : relative ≠ []) : byteLen relative ≤ 4096 := by
  obtain ⟨_, _, h⟩ := bind_ok.mp h
  rw [if_neg hr] at h
  obtain ⟨_, hlimit, _⟩ := bind_ok.mp h
  simp only [require_ok, Bool.not_eq_true', Bool.or_eq_false_iff, decide_eq_false_iff_not, not_lt] at hlimit
  exact hlimit.1

lemma segmentProblem_harmless (h : ∀ c ∈ seg, Harmless c) (hl : isSafe (seg.getLastD '.') = true)
    (hr : isReservedDeviceName seg = false) : segmentProblem seg = none := by
  have hne : seg ≠ [] := by
    rintro rfl
    cases hl
  have hrunes : runeProblem seg = none := runeProblem_eq_none.mpr (fun c hc => by
    obtain ⟨hs, _, _, _, _, hcontrol, hrune, _⟩ := h c hc
    exact ⟨fun he => hs (by simp [he]), fun he => hs (by simp [he]), hcontrol, hrune⟩)
  rw [segmentProblem, if_neg hne, hrunes]
  have hdot : seg.getLastD '.' ≠ '.' := fun he => absurd (he ▸ hl) (by decide)
  have hspace : seg.getLastD '.' ≠ ' ' := fun he => absurd (he ▸ hl) (by decide)
  simp only [hdot, hspace, hr, decide_false, Bool.or_self, Bool.false_eq_true, if_false]

end

/-- What an upload may be called in the repository, reserved device names apart. -/
def Acceptable (result : Str) : Prop :=
  (∀ seg ∈ split result, seg ≠ "." ∧ seg ≠ ".." ∧ (isReservedDeviceName seg = false → segmentProblem seg = none)) ∧
    '\\' ∉ result ∧ hasPrefix result "/" = false

theorem target_names_acceptable (L : Lowering) :
    (∀ source name, targetName L source = .ok name → Acceptable name ∧ targetName L name = .ok name) ∧
    ∀ original relative result, targetPath L original relative = .ok result → Acceptable result ∧
      (targetPath L (lastSegment result) result = .ok result ↔ byteLen result ≤ 4096) := by
  have hpath : ∀ original relative result, targetPath L original relative = .ok result → Acceptable result ∧
      (targetPath L (lastSegment result) result = .ok result ↔ byteLen result ≤ 4096) := by
    intro original relative result h
    obtain ⟨parts, b, e, ht⟩ := targetPath_ok h
    refine ⟨⟨fun seg hs => ?_, fun hc => ?_, ?_⟩, fun hi => relative_bounded hi ht.ne_nil, ht.targetPath_eq⟩
    · have hl := ht.last_safe hs
      refine ⟨?_, ?_, segmentProblem_harmless (ht.harmless hs) hl⟩
      · rintro rfl
        cases hl
      · rintro rfl
        cases hl
    · rcases ht.mem_result hc with hc | hc
      · cases hc
      · exact hc.1 (by decide)
    · by_contra hp
      obtain ⟨rest, rfl⟩ := hasPrefix_iff.mp (Bool.not_eq_false _ ▸ hp)
      have hmem : [] ∈ split ("/" ++ rest) := split_slash rest ▸ List.mem_cons_self
      cases ht.last_safe hmem
  refine ⟨fun source name h => ?_, hpath⟩
  obtain ⟨b, e, rfl, ht⟩ := targetName_ok h
  exact ⟨(hpath source [] _ (bind_ok.mpr ⟨_, h, rfl⟩)).1, ht.targetName_eq⟩

theorem target_names_acceptable_opinia :
    Acceptable "Oferta-1/Opinia-Lodz.pdf" ∧ targetPath .ascii "Opinia-Lodz.pdf" "Oferta-1/Opinia-Lodz.pdf" =
      .ok "Oferta-1/Opinia-Lodz.pdf".toList := by
  obtain ⟨ha, hi⟩ := (target_names_acceptable .ascii).2 "Opinia Łódź.PDF" "Oferta 1/Opinia Łódź.PDF" _ rfl
  exact ⟨ha, hi.mpr (by decide)⟩

def longBase : Str := List.replicate 4093 'a'

lemma longBase_target : Target .ascii longBase "pdf" := by
  have ha : ∀ c ∈ longBase, c = 'a' := fun c hc => (List.mem_replicate.mp hc).2
  refine ⟨⟨List.ne_nil_of_mem (a := 'a') (List.mem_replicate.mpr ⟨by decide, rfl⟩), fun c hc => ?_, ?_, ?_⟩,
    by decide, by decide⟩
  · rw [ha c hc]
    decide
  · exact List.isChain_replicate_of_rel _ (by decide)
  · exact trimmed_of_forall (fun c hc => by rw [ha c hc]; decide)

/-- A device name stays one, and a name of more than 4096 bytes is accepted alone but not as a path. -/
theorem device_name_and_long_name : targetName .ascii "CON.txt" = .ok "CON.txt".toList ∧
    segmentProblem "CON.txt" = some { kind := .reservedDevice } ∧
    targetPath .ascii (longBase ++ '.' :: "pdf".toList) "" = .ok (longBase ++ '.' :: "pdf".toList) ∧
    targetPath .ascii (longBase ++ '.' :: "pdf".toList) (longBase ++ '.' :: "pdf".toList) ≠
      .ok (longBase ++ '.' :: "pdf".toList) := by
  refine ⟨by decide, by decide, bind_ok.mpr ⟨_, longBase_target.targetName_eq, rfl⟩, fun h => ?_⟩
  have hlen := relative_bounded h (by simp)
  rw [byteLen_eq_length (fun c hc => (longBase_target.harmless c hc).size), List.length_append, longBase,
    List.length_replicate] at hlen
  exact absurd hlen (by decide)

end FileES.Naming
