import FileES.Whale.Worker

/-! What the workers keep true of the shared files, and what the holder of a generation's lock may rely on. -/

namespace FileES.Whale

open Go QueueRecord List Option
open Function (update)

variable (s : Store) (g : Str)

def Store.terminal : Prop := ∃ r, s.journal g = some r ∧ r.state.terminal = true

def QueueRecord.members (q : QueueRecord) : List Str := q.holder :: q.waiting

def Store.queued : Prop := ∃ k q, s.queue k = some q ∧ g ∈ q.members

def Store.holds (k : Str × Str) : Prop := ∃ q, s.queue k = some q ∧ q.holder = g

def Store.engaged : Prop := s.terminal g ∨ ∃ k, s.holds g k

def Store.carries (path : Str) (n : ℤ) : Prop := (s.repository path).property n = some (some g)

def Matches (env : Env) (i : Identity) (payload : Option (List UInt8)) : Prop :=
  ∃ b, payload = some b ∧ (b.length : ℤ) = i.expectedSize ∧ env.sha256 b = i.sha256

def Record.repositoryPath (env : Env) (r : Record) : Str := env.repositoryPath r.identity.logicalRepoID

variable (r : Record)

abbrev Record.key : Str := r.identity.generationID

abbrev Record.based (base : ℤ) : Record := { r with commitBaseRevision := base, commitBaseKnown := true }

abbrev Record.advanced (count : ℤ) : Record := { r with bytesHave := r.bytesHave + count }

abbrev Record.published (n : ℤ) : Record := { r with revision := n, state := .published }

def Tiles : ℤ → List Window → Prop
  | _, [] => True
  | offset, w :: ws => w.offset = offset ∧ Tiles (offset + w.bytes.length) ws

def joined (ws : List Window) : List UInt8 := ws.flatMap Window.bytes

structure Later (r' : Record) : Prop where
  identity : r'.identity = r.identity
  bytes : r.bytesHave ≤ r'.bytesHave
  terminal : r.state.terminal = true → r' = r

variable {ws : List Window} {w : Window}

lemma tiles_append {offset : ℤ} :
    Tiles offset (ws ++ [w]) ↔ Tiles offset ws ∧ w.offset = offset + (joined ws).length := by
  induction ws generalizing offset with
  | nil => simp [Tiles, joined]
  | cons v ws ih =>
    have hlen : offset + (v.bytes.length : ℤ) + ((joined ws).length : ℤ) = offset + ((joined (v :: ws)).length : ℤ) := by
      simp [joined]
      omega
    rw [cons_append, Tiles, Tiles, ih, hlen]
    exact ⟨fun h => ⟨⟨h.1, h.2.1⟩, h.2.2⟩, fun h => ⟨h.1.1, h.1.2, h.2⟩⟩

lemma joined_append : joined (ws ++ [w]) = joined ws ++ w.bytes := by simp [joined]

lemma Later.refl (r : Record) : Later r r := ⟨rfl, le_rfl, fun _ => rfl⟩

lemma Later.trans {r₁ r₂ r₃ : Record} (h : Later r₁ r₂) (h' : Later r₂ r₃) : Later r₁ r₃ := by
  refine ⟨h'.identity.trans h.identity, h.bytes.trans h'.bytes, fun ht => ?_⟩
  have he := h.terminal ht
  subst he
  exact h'.terminal ht

structure Same (strict : Prop) (g : Str) (s s' : Store) : Prop where
  journal : s'.journal g = s.journal g
  payload : s'.payload g = s.payload g
  copied : s'.copied g = s.copied g
  recorded : s'.recorded g = s.recorded g
  carries : ∀ path n, s'.carries g path n → s.carries g path n
  holds : ∀ k, s.holds g k → s'.holds g k
  queued : strict → s.terminal g → s'.queued g → s.queued g

structure Rely (strict : Prop) (pid : ℕ) (s s' : Store) : Prop where
  journal : ∀ g r, s.journal g = some r → ∃ r', s'.journal g = some r' ∧ Later r r'
  locks : ∀ g, s'.window g = some pid ↔ s.window g = some pid
  mine : ∀ g, s.window g = some pid → Same strict g s s'
  revisions : ∀ path, (s.repository path).revisions <+: (s'.repository path).revisions
  recorded : ∀ g, s.recorded g <+: s'.recorded g
  engaged : strict → ∀ g, s.engaged g → s'.engaged g

def Idle (pid : ℕ) (s : Store) : Prop := ∀ g, s.window g ≠ some pid

variable {strict : Prop} {pid : ℕ} {g : Str} {s s₁ s₂ s₃ s' : Store}

lemma Store.terminal_of_journal (h : s'.journal g = s.journal g) : s'.terminal g ↔ s.terminal g := by
  rw [Store.terminal, Store.terminal, h]

lemma Same.refl (s : Store) : Same strict g s s := ⟨rfl, rfl, rfl, rfl, fun _ _ h => h, fun _ h => h, fun _ _ h => h⟩

lemma Same.trans (h : Same strict g s₁ s₂) (h' : Same strict g s₂ s₃) : Same strict g s₁ s₃ := by
  refine ⟨h'.journal.trans h.journal, h'.payload.trans h.payload, h'.copied.trans h.copied,
    h'.recorded.trans h.recorded, fun path n hc => h.carries path n (h'.carries path n hc),
    fun k hk => h'.holds k (h.holds k hk), fun hs ht hq => ?_⟩
  exact h.queued hs ht (h'.queued hs ((Store.terminal_of_journal h.journal).mpr ht) hq)

lemma Rely.refl (s : Store) : Rely strict pid s s :=
  ⟨fun _ r h => ⟨r, h, Later.refl r⟩, fun _ => Iff.rfl, fun _ _ => Same.refl s, fun _ => prefix_refl _,
    fun _ => prefix_refl _, fun _ _ h => h⟩

lemma Rely.trans (h : Rely strict pid s₁ s₂) (h' : Rely strict pid s₂ s₃) : Rely strict pid s₁ s₃ := by
  refine ⟨fun g r hr => ?_, fun g => (h'.locks g).trans (h.locks g), fun g hg => ?_,
    fun path => (h.revisions path).trans (h'.revisions path), fun g => (h.recorded g).trans (h'.recorded g),
    fun hs g hg => h'.engaged hs g (h.engaged hs g hg)⟩
  · obtain ⟨r₂, hr₂, hl⟩ := h.journal g r hr
    obtain ⟨r₃, hr₃, hl'⟩ := h'.journal g r₂ hr₂
    exact ⟨r₃, hr₃, hl.trans hl'⟩
  · exact (h.mine g hg).trans (h'.mine g ((h.locks g).mpr hg))

lemma Rely.idle (h : Rely strict pid s s') (hi : Idle pid s) : Idle pid s' := fun g hg => hi g ((h.locks g).mp hg)

structure Uploads (env : Env) (s : Store) : Prop where
  valid : ∀ g r, s.journal g = some r → validateRecord r = .ok () ∧ r.identity.generationID = g ∧ r.direction = .put
  absent : ∀ g, s.journal g = none → s.recorded g = [] ∧ s.window g = none
  tiles : ∀ g, Tiles 0 (s.recorded g)
  counted : ∀ g r, s.journal g = some r → r.bytesHave = (joined (s.recorded g)).length ∧
    (s.content g).take r.bytesHave.toNat = joined (s.recorded g)
  checked : ∀ g r, s.journal g = some r → r.state = .committing ∨ r.state = .published →
    Matches env r.identity (s.payload g)

def Noted (env : Env) (s : Store) (r : Record) : Prop :=
  r.commitBaseRevision ≤ (s.repository (r.repositoryPath env)).revisions.length

structure Publications (env : Env) (s : Store) : Prop where
  carried : ∀ path g n, s.carries g path n → ∃ r, s.journal g = some r ∧ path = r.repositoryPath env ∧
    r.commitBaseKnown = true ∧ r.commitBaseRevision < n ∧ (r.state = .committing ∨ r.state = .published)
  single : ∀ path g n m, s.carries g path n → s.carries g path m → n = m
  published : ∀ g r, s.journal g = some r → r.state = .published → s.carries g (r.repositoryPath env) r.revision
  put : ∀ path v g, v ∈ (s.repository path).revisions → v.generation = some g → ∃ r b, s.journal g = some r ∧
    v.put = some (r.identity.storagePath, b) ∧ Matches env r.identity (some b)
  base : ∀ g r, s.journal g = some r → r.commitBaseKnown = true → Noted env s r
  unset : ∀ g r, s.journal g = some r → r.state ≠ .published → r.revision = 0

structure Queues (strict : Prop) (s : Store) : Prop where
  nodup : ∀ k q, s.queue k = some q → q.members.Nodup
  known : ∀ k q g, s.queue k = some q → g ∈ q.members → ∃ r, s.journal g = some r ∧ r.identity.path = k
  engaged : strict → ∀ g r, s.journal g = some r → 0 < r.bytesHave → s.engaged g
  tidy : strict → ∀ g, s.terminal g → s.queued g → s.window g ≠ none

structure Inv (env : Env) (strict : Prop) (s : Store) : Prop where
  uploads : Uploads env s
  publications : Publications env s
  queues : Queues strict s

variable (env : Env) (strict : Prop) (pid : ℕ)

def Owns (g : Str) (r : Record) (s : Store) : Prop := s.window g = some pid ∧ s.journal g = some r

structure Follows (s : Store) (current next : Record) : Prop where
  live : current.state.terminal = false
  checked : checkAdvance current next = .ok ()
  valid : validateRecord next = .ok ()
  counts : current.bytesHave < next.bytesHave → next.state = .receiving ∧ ∃ w,
    s.copied next.identity.generationID = some w ∧ w.offset = current.bytesHave ∧
    next.bytesHave = current.bytesHave + w.bytes.length ∧
    (s.content next.identity.generationID).take next.bytesHave.toNat =
      (s.content next.identity.generationID).take current.bytesHave.toNat ++ w.bytes
  committing : next.state = .committing → Matches env next.identity (s.payload next.identity.generationID)
  publishes : next.state = .published → current.state = .committing ∧
    s.carries next.identity.generationID (next.repositoryPath env) next.revision
  stays : current.state = .committing → next.state = .committing ∨ next.state = .published
  base : next.commitBaseKnown = true → Noted env s next
  unset : next.state ≠ .published → next.revision = current.revision
  engaged : strict → 0 < next.bytesHave → s.engaged next.identity.generationID

def Ready (path g : Str) (s : Store) : Prop := ∃ r, Owns pid g r s ∧ r.state = .committing ∧
  r.commitBaseKnown = true ∧ path = r.repositoryPath env ∧ ∀ n, ¬ s.carries g path n

def Receiving (g : Str) (size : ℤ) (s : Store) : Prop := ∃ r, Owns pid g r s ∧ r.state = .receiving ∧
  r.bytesHave = size

def Proper : Call → Store → Prop
  | .createRecord r, _ => validateRecord r = .ok () ∧ r.direction = .put ∧ r.state = .receiving ∧ r.bytesHave = 0 ∧
      r.commitBaseKnown = false ∧ r.revision = 0
  | .writeRecord r, s => ∃ current, Owns pid r.identity.generationID current s ∧ Follows env strict s current r
  | .claim i, s => ∃ r, s.journal i.generationID = some r ∧ r.identity = i
  | .release i, s => ∃ r, Owns pid i.generationID r s ∧ r.identity = i ∧ r.state.terminal = true
  | .lock _, s => Idle pid s
  | .unlock g, s => s.window g = some pid ∧ (strict → s.terminal g → ¬ s.queued g)
  | .openPayload g, s => ∃ size, Receiving pid g size s
  | .truncate g size, s => Receiving pid g size s
  | .copy g offset _, s => Receiving pid g offset s ∧ (s.content g).length = offset.toNat
  | .beginPut path g, s => Ready env pid path g s
  | .commitPut path _ i _, s => Ready env pid path i.generationID s ∧ ∃ r, s.journal i.generationID = some r ∧ r.identity = i
  | _, _ => True

/-- A strict run: what is over does not queue again, and its end and its release do not fail once in place. -/
def Allowed : Call → Store → Fate → Prop
  | .claim i, s, _ => strict → ¬ s.terminal i.generationID
  | .writeRecord r, _, w => strict → r.state.terminal = true → w ≠ .unsynced
  | .release i, s, w => strict → w.landed = true ∨ ¬ s.queued i.generationID
  | _, _, _ => True

/-- A process that has ended a generation in a strict run does not die before the release. -/
def MayDie (s : Store) : Prop := strict → ∀ g, s.window g = some pid → s.terminal g → ¬ s.queued g

variable {path : Str} {n : ℤ}

lemma carries_iff : s.carries g path n ↔
    1 ≤ n ∧ ∃ v, (s.repository path).revisions[n.toNat - 1]? = some v ∧ v.generation = some g := by
  rw [Store.carries, Repository.property]
  by_cases hn : 1 ≤ n
  · simp [hn]
  · simp [hn]

lemma carries_congr (h : (s'.repository path).revisions = (s.repository path).revisions) :
    s'.carries g path n ↔ s.carries g path n := by
  rw [carries_iff, carries_iff, h]

lemma carries_mono (h : (s.repository path).revisions <+: (s'.repository path).revisions)
    (hc : s.carries g path n) : s'.carries g path n := by
  obtain ⟨hn, v, hv, hg⟩ := carries_iff.mp hc
  obtain ⟨rest, hrest⟩ := h
  obtain ⟨hlt, _⟩ := List.getElem?_eq_some_iff.mp hv
  exact carries_iff.mpr ⟨hn, v, by rw [← hrest, getElem?_append_left hlt, hv], hg⟩

lemma carries_append {v : Revision} (h : (s'.repository path).revisions = (s.repository path).revisions ++ [v])
    (hc : s'.carries g path n) :
    s.carries g path n ∨ (n = (s.repository path).revisions.length + 1 ∧ v.generation = some g) := by
  obtain ⟨hn, v', hv, hg⟩ := carries_iff.mp hc
  rw [h] at hv
  by_cases hlt : n.toNat - 1 < (s.repository path).revisions.length
  · rw [getElem?_append_left hlt] at hv
    exact .inl (carries_iff.mpr ⟨hn, v', hv, hg⟩)
  · obtain ⟨hlt', _⟩ := List.getElem?_eq_some_iff.mp hv
    rw [length_append, length_singleton] at hlt'
    have heq : n.toNat - 1 = (s.repository path).revisions.length := by omega
    rw [heq, getElem?_concat_length, some.injEq] at hv
    subst hv
    exact .inr ⟨by omega, hg⟩

lemma repository_onRepository (f : Repository → Repository) (path' : Str) :
    (s.onRepository path f).repository path' = if path' = path then f (s.repository path) else s.repository path' := by
  rw [Store.onRepository]
  by_cases h : path' = path
  · subst h
    simp
  · simp [h]

lemma revisions_onRepository {f : Repository → Repository} (h : ∀ r, (f r).revisions = r.revisions) (path' : Str) :
    ((s.onRepository path f).repository path').revisions = (s.repository path').revisions := by
  rw [repository_onRepository]
  split
  · rename_i he
    rw [h, he]
  · rfl

variable {h : Str} {q : QueueRecord}

lemma members_claimed (oq : Option QueueRecord) (hg : h ∈ (claimed g oq).2.members) :
    h = g ∨ ∃ q, oq = some q ∧ h ∈ q.members := by
  cases oq with
  | none =>
    left
    simpa [claimed, members] using hg
  | some q =>
    rw [claimed] at hg
    split at hg
    · exact .inr ⟨q, rfl, hg⟩
    · split at hg
      · exact .inr ⟨q, rfl, hg⟩
      · simp only [members, mem_cons, mem_append, not_mem_nil, or_false] at hg
        rcases hg with hg | hg | hg
        · exact .inr ⟨q, rfl, by simp [members, hg]⟩
        · exact .inr ⟨q, rfl, by simp [members, hg]⟩
        · exact .inl hg

lemma nodup_claimed (oq : Option QueueRecord) (hn : ∀ q, oq = some q → q.members.Nodup) :
    (claimed g oq).2.members.Nodup := by
  cases oq with
  | none => simp [claimed, members]
  | some q =>
    have hq := hn q rfl
    rw [claimed]
    split
    · exact hq
    · rename_i hne
      split
      · exact hq
      · rename_i hfind
        have hnot : g ∉ q.waiting := fun hmem => by
          have := findIdx?_eq_none_iff.mp hfind g hmem
          simp at this
        simp only [members, nodup_cons] at hq ⊢
        refine ⟨?_, ?_⟩
        · simp only [mem_append, mem_singleton, not_or]
          exact ⟨hq.1, fun he => hne he⟩
        · exact nodup_append.mpr ⟨hq.2, nodup_singleton g, fun a ha b hb he => hnot (by
            rw [mem_singleton] at hb
            exact hb ▸ he ▸ ha)⟩

lemma holder_claimed (q : QueueRecord) : (claimed g (some q)).2.holder = q.holder := by
  rw [claimed]
  split
  · rfl
  · split <;> rfl

variable {oq oq' : Option QueueRecord}

lemma holder_of_claimed_zero (hz : (claimed g oq).1 = 0) : (claimed g oq).2.holder = g := by
  cases oq with
  | none => rfl
  | some q =>
    rw [claimed] at hz ⊢
    split at hz
    · rename_i he
      rw [if_pos he]
      exact he
    · split at hz <;> simp at hz

lemma released_some (hr : released g oq = .ok oq') (hq : oq' = some q) :
    ∃ p, oq = some p ∧ (p.members = g :: q.members ∨ q = p ∧ g ∉ p.members) := by
  cases oq with
  | none =>
    cases hr
    cases hq
  | some p =>
    refine ⟨p, rfl, ?_⟩
    rw [released] at hr
    split at hr
    · rename_i he
      split at hr
      · cases hr
        cases hq
      · rename_i next rest hw
        cases hr
        cases hq
        exact .inl (by rw [members, he, hw]; rfl)
    · rename_i hne
      split at hr
      · cases hr
      · rename_i hnot
        cases hr
        cases hq
        exact .inr ⟨rfl, not_mem_cons_of_ne_of_not_mem (Ne.symm hne) hnot⟩

lemma members_released (hr : released g oq = .ok oq') (hq : oq' = some q) (hm : h ∈ q.members) :
    ∃ p, oq = some p ∧ h ∈ p.members := by
  obtain ⟨p, hp, he | ⟨rfl, _⟩⟩ := released_some hr hq
  · exact ⟨p, hp, he ▸ mem_cons_of_mem _ hm⟩
  · exact ⟨q, hp, hm⟩

lemma nodup_released (hn : ∀ q, oq = some q → q.members.Nodup) (hr : released g oq = .ok oq') (hq : oq' = some q) :
    q.members.Nodup ∧ g ∉ q.members := by
  obtain ⟨p, hp, he | ⟨rfl, hnot⟩⟩ := released_some hr hq
  · have hnodup := hn p hp
    rw [he, nodup_cons] at hnodup
    exact hnodup.symm
  · exact ⟨hn q hp, hnot⟩

lemma holder_released (hr : released g (some q) = .ok oq') (hne : q.holder ≠ g) : oq' = some q := by
  rw [released, if_neg hne] at hr
  split at hr
  · cases hr
  · cases hr
    rfl

lemma released_holder (he : q.holder = g) : ∃ oq', released g (some q) = .ok oq' := by
  rw [released, if_pos he]
  split
  · exact ⟨none, rfl⟩
  · exact ⟨_, rfl⟩

end FileES.Whale
