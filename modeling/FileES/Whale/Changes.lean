import FileES.Whale.Rules

/-! Every proper call keeps the invariant, and leaves to the others what they rely on. -/

namespace FileES.Whale

open Go Lib.Fallible List Option
open Function (update update_self update_of_ne)

variable {env : Env} {strict : Prop} {pid q : ℕ} {g g' path : Str} {s s' : Store}

variable {f : Str → Option ℕ}

lemma Rely.window (hf : ∀ g, f g = some q ↔ s.window g = some q) : Rely strict q s { s with window := f } :=
  { (Rely.refl s : Rely strict q s s) with
    locks := hf
    mine := fun g _ => { (Same.refl s : Same strict g s s) with } }

lemma Inv.window (h : Inv env strict s) (hf : ∀ g, s.journal g = none → f g = none)
    (ht : strict → ∀ g, s.terminal g → s.queued g → f g ≠ none) : Inv env strict { s with window := f } :=
  ⟨{ h.uploads with absent := fun g hg => ⟨(h.uploads.absent g hg).1, hf g hg⟩ },
    { h.publications with },
    { h.queues with tidy := ht }⟩

lemma Inv.lock (h : Inv env strict s) (hg : (s.journal g).isNone = false) :
    Inv env strict { s with window := update s.window g (some pid) } := by
  refine h.window (fun g' hg' => ?_) (fun hs g' ht hq => ?_)
  · have hne : g' ≠ g := by
      rintro rfl
      rw [hg'] at hg
      cases hg
    rw [update_of_ne hne]
    exact (h.uploads.absent g' hg').2
  · by_cases he : g' = g
    · subst he
      simp
    · rw [update_of_ne he]
      exact h.queues.tidy hs g' ht hq

lemma Inv.unlock (h : Inv env strict s) (hg : strict → s.terminal g → ¬ s.queued g) :
    Inv env strict { s with window := update s.window g none } := by
  refine h.window (fun g' hg' => ?_) (fun hs g' ht hq => ?_)
  · by_cases he : g' = g
    · subst he
      simp
    · rw [update_of_ne he]
      exact (h.uploads.absent g' hg').2
  · have hne : g' ≠ g := by
      rintro rfl
      exact hg hs ht hq
    rw [update_of_ne hne]
    exact h.queues.tidy hs g' ht hq

lemma Rely.lock (hq : q ≠ pid) (hg : s.window g = none) :
    Rely strict q s { s with window := update s.window g (some pid) } := by
  refine Rely.window (fun g' => ?_)
  by_cases he : g' = g
  · subst he
    simp [hg, Ne.symm hq]
  · rw [update_of_ne he]

lemma Rely.unlock (hq : q ≠ pid) (hg : s.window g = some pid) :
    Rely strict q s { s with window := update s.window g none } := by
  refine Rely.window (fun g' => ?_)
  by_cases he : g' = g
  · subst he
    simp [hg, Ne.symm hq]
  · rw [update_of_ne he]

lemma Inv.die (h : Inv env strict s) (hd : MayDie strict pid s) : Inv env strict (die pid s) := by
  refine h.window (fun g hg => ?_) (fun hs g ht hq => ?_)
  · rw [(h.uploads.absent g hg).2]
    simp
  · have hw : s.window g ≠ some pid := fun hw => hd hs g hw ht hq
    rw [if_neg hw]
    exact h.queues.tidy hs g ht hq

lemma Rely.die (hq : q ≠ pid) : Rely strict q s (die pid s) := by
  refine Rely.window (fun g => ?_)
  by_cases he : s.window g = some pid
  · simp [he, Ne.symm hq]
  · rw [if_neg he]

lemma idle_die : Idle pid (die pid s) := by
  intro g hg
  have hg' : (if s.window g = some pid then none else s.window g) = some pid := hg
  split at hg'
  · cases hg'
  · rename_i hne
    exact hne hg'

variable {content : List UInt8} {copied : Str → Option Window}

lemma Inv.payload {r : Record} (h : Inv env strict s) (hr : s.journal g = some r)
    (hstate : r.state = .receiving) (hc : content.take r.bytesHave.toNat = (s.content g).take r.bytesHave.toNat) :
    Inv env strict { s with payload := update s.payload g (some content), copied := copied } := by
  refine ⟨{ h.uploads with counted := fun g' r' hr' => ?_, checked := fun g' r' hr' hs => ?_ },
    { h.publications with },
    { h.queues with }⟩
  · have hold := h.uploads.counted g' r' hr'
    by_cases he : g' = g
    · subst he
      obtain rfl := mem_unique hr hr'
      refine ⟨hold.1, ?_⟩
      rw [← hold.2, ← hc]
      simp [Store.content]
    · refine ⟨hold.1, ?_⟩
      rw [← hold.2]
      simp [Store.content, update_of_ne he]
  · have hne : g' ≠ g := by
      rintro rfl
      obtain rfl := mem_unique hr hr'
      rw [hstate] at hs
      rcases hs with hs | hs <;> cases hs
    have hold := h.uploads.checked g' r' hr' hs
    have hp : (update s.payload g (some content)) g' = s.payload g' := update_of_ne hne _ _
    change Matches env r'.identity (update s.payload g (some content) g')
    rw [hp]
    exact hold

lemma Rely.payload (hq : q ≠ pid) (hg : s.window g = some pid) (hc : ∀ g', g' ≠ g → copied g' = s.copied g') :
    Rely strict q s { s with payload := update s.payload g (some content), copied := copied } := by
  refine { (Rely.refl s : Rely strict q s s) with mine := fun g' hg' => ?_ }
  have hne : g' ≠ g := by
    rintro rfl
    exact hq (mem_unique hg' hg)
  exact { (Same.refl s : Same strict g' s s) with payload := update_of_ne hne _ _, copied := hc g' hne }

lemma take_overwrite {bytes : List UInt8} {n : ℕ} (hn : n ≤ content.length) :
    (overwrite content n bytes).take n = content.take n := by
  rw [overwrite, append_assoc, take_append_of_le_length (by simp [hn]), take_take, Nat.min_self]

abbrev Store.requeue (s : Store) (i : Identity) (oq : Option QueueRecord) : Store :=
  { s with queue := update s.queue i.path oq }

variable {k : Str × Str} {i : Identity} {oq : Option QueueRecord}

lemma update_queue (hk : k = i.path) : (s.requeue i oq).queue k = oq := by
  subst hk
  exact update_self _ _ _

lemma update_queue_of_ne (hk : k ≠ i.path) : (s.requeue i oq).queue k = s.queue k := update_of_ne hk _ _

lemma Inv.queue {r : Record} (h : Inv env strict s) (hr : s.journal i.generationID = some r)
    (hi : r.identity = i) (hn : ∀ q, oq = some q → q.members.Nodup)
    (hm : ∀ q g, oq = some q → g ∈ q.members → g = i.generationID ∨ ∃ p, s.queue i.path = some p ∧ g ∈ p.members)
    (ht : strict → s.terminal i.generationID → s.window i.generationID ≠ none)
    (hh : strict → ∀ g, s.engaged g → (s.requeue i oq).engaged g) :
    Inv env strict (s.requeue i oq) := by
  refine ⟨{ h.uploads with },
    { h.publications with },
    ⟨fun k q hk => ?_, fun k q g hk hg => ?_, fun hs g r hr hb => hh hs g (h.queues.engaged hs g r hr hb),
      fun hs g hg hq => ?_⟩⟩
  · by_cases he : k = i.path
    · rw [update_queue he] at hk
      exact hn q hk
    · rw [update_queue_of_ne he] at hk
      exact h.queues.nodup k q hk
  · by_cases he : k = i.path
    · rw [update_queue he] at hk
      rcases hm q g hk hg with rfl | ⟨p, hp, hgp⟩
      · exact ⟨r, hr, by rw [hi, he]⟩
      · exact he ▸ h.queues.known i.path p g hp hgp
    · rw [update_queue_of_ne he] at hk
      exact h.queues.known k q g hk hg
  · obtain ⟨k, q, hk, hgq⟩ := hq
    by_cases he : k = i.path
    · rw [update_queue he] at hk
      rcases hm q g hk hgq with rfl | ⟨p, hp, hgp⟩
      · exact ht hs hg
      · exact h.queues.tidy hs g hg ⟨i.path, p, hp, hgp⟩
    · rw [update_queue_of_ne he] at hk
      exact h.queues.tidy hs g hg ⟨k, q, hk, hgq⟩

lemma holds_queue (hh : ∀ p, s.queue i.path = some p → p.holder = g → ∃ q, oq = some q ∧ q.holder = g)
    (hk : s.holds g k) : (s.requeue i oq).holds g k := by
  obtain ⟨p, hp, hg⟩ := hk
  by_cases he : k = i.path
  · subst he
    obtain ⟨q, hq, hqg⟩ := hh p hp hg
    exact ⟨q, by rw [update_queue rfl, hq], hqg⟩
  · exact ⟨p, by rw [update_queue_of_ne he, hp], hg⟩

lemma queued_queue (hm : ∀ q, oq = some q → g ∈ q.members → ∃ p, s.queue i.path = some p ∧ g ∈ p.members)
    (hq : (s.requeue i oq).queued g) : s.queued g := by
  obtain ⟨k, q, hk, hg⟩ := hq
  by_cases he : k = i.path
  · rw [update_queue he] at hk
    obtain ⟨p, hp, hgp⟩ := hm q hk hg
    exact ⟨i.path, p, hp, hgp⟩
  · rw [update_queue_of_ne he] at hk
    exact ⟨k, q, hk, hg⟩

lemma Rely.queue (hh : ∀ g k, s.window g = some q → s.holds g k → (s.requeue i oq).holds g k)
    (hm : strict → ∀ g, s.window g = some q → s.terminal g → (s.requeue i oq).queued g → s.queued g)
    (he : strict → ∀ g, s.engaged g → (s.requeue i oq).engaged g) :
    Rely strict q s (s.requeue i oq) :=
  { (Rely.refl s : Rely strict q s s) with
    mine := fun g hg => { (Same.refl s : Same strict g s s) with holds := fun k hk => hh g k hg hk, queued := fun hs => hm hs g hg }
    engaged := he }

lemma holds_claim (hk : s.holds g k) :
    (s.requeue i (some (claimed i.generationID (s.queue i.path)).2)).holds g k := by
  refine holds_queue (fun p hp hg => ⟨_, rfl, ?_⟩) hk
  rw [hp, holder_claimed]
  exact hg

lemma engaged_claim (hg : s.engaged g) :
    (s.requeue i (some (claimed i.generationID (s.queue i.path)).2)).engaged g := by
  rcases hg with ht | ⟨k, hk⟩
  · exact .inl ht
  · exact .inr ⟨k, holds_claim hk⟩

lemma claimed_member {q : QueueRecord} (hq : some (claimed i.generationID (s.queue i.path)).2 = some q)
    (hg : g ∈ q.members) : g = i.generationID ∨ ∃ p, s.queue i.path = some p ∧ g ∈ p.members := by
  cases hq
  exact members_claimed _ hg

lemma Inv.claim (h : Inv env strict s) (hp : Proper env strict pid (.claim i) s)
    (ha : strict → ¬ s.terminal i.generationID) :
    Inv env strict (s.requeue i (some (claimed i.generationID (s.queue i.path)).2)) := by
  obtain ⟨r, hr, hi⟩ := hp
  refine h.queue hr hi (fun q hq => ?_) (fun q g hq hg => claimed_member hq hg) (fun hs ht => absurd ht (ha hs))
    (fun _ g hg => engaged_claim hg)
  cases hq
  exact nodup_claimed _ (fun q hq => h.queues.nodup i.path q hq)

lemma Rely.claim (ha : strict → ¬ s.terminal i.generationID) :
    Rely strict q s (s.requeue i (some (claimed i.generationID (s.queue i.path)).2)) := by
  refine Rely.queue (fun g k _ hk => holds_claim hk) (fun hs g _ ht hq => queued_queue (fun q hq hg => ?_) hq)
    (fun _ g hg => engaged_claim hg)
  rcases claimed_member hq hg with rfl | hp
  · exact absurd ht (ha hs)
  · exact hp

lemma holds_release (hr : released i.generationID (s.queue i.path) = .ok oq) (hne : g ≠ i.generationID)
    (hk : s.holds g k) : (s.requeue i oq).holds g k := by
  refine holds_queue (fun p hp hg => ⟨p, ?_, hg⟩) hk
  rw [hp] at hr
  exact holder_released hr (fun he => hne (hg.symm.trans he))

lemma engaged_release (ht : s.terminal i.generationID) (hr : released i.generationID (s.queue i.path) = .ok oq)
    (hg : s.engaged g) : (s.requeue i oq).engaged g := by
  by_cases he : g = i.generationID
  · subst he
    exact .inl ht
  · rcases hg with hterm | ⟨k, hk⟩
    · exact .inl hterm
    · exact .inr ⟨k, holds_release hr he hk⟩

lemma Inv.release (h : Inv env strict s) (hp : Proper env strict pid (.release i) s)
    (hr : released i.generationID (s.queue i.path) = .ok oq) : Inv env strict (s.requeue i oq) := by
  obtain ⟨r, ⟨hw, hj⟩, hi, hterm⟩ := hp
  refine h.queue hj hi (fun q hq => (nodup_released (fun q hq => h.queues.nodup i.path q hq) hr hq).1)
    (fun q g hq hg => .inr (members_released hr hq hg)) (fun _ _ he => ?_) (fun _ g hg => engaged_release ⟨r, hj, hterm⟩ hr hg)
  rw [hw] at he
  cases he

lemma Rely.release (hq : q ≠ pid) (hp : Proper env strict pid (.release i) s)
    (hr : released i.generationID (s.queue i.path) = .ok oq) : Rely strict q s (s.requeue i oq) := by
  obtain ⟨r, ⟨hw, hj⟩, _, hterm⟩ := hp
  refine Rely.queue (fun g k hg hk => holds_release hr ?_ hk)
    (fun _ g _ _ hq => queued_queue (fun q hq hg => members_released hr hq hg) hq)
    (fun _ g hg => engaged_release ⟨r, hj, hterm⟩ hr hg)
  rintro rfl
  exact hq (mem_unique hg hw)

variable {f : Repository → Repository} {v : Revision}

lemma Noted.mono {r : Record} (hpre : (s.repository (r.repositoryPath env)).revisions <+: (s'.repository (r.repositoryPath env)).revisions)
    (h : Noted env s r) : Noted env s' r := by
  have hlen := hpre.length_le
  have hbase : r.commitBaseRevision ≤ (s.repository (r.repositoryPath env)).revisions.length := h
  rw [Noted]
  omega

section

variable (h : Inv env strict s) (hpre : ∀ path', (s.repository path').revisions <+: ((s.onRepository path f).repository path').revisions)
include h hpre

lemma Inv.onRepository
    (hcarried : ∀ path' g n, (s.onRepository path f).carries g path' n → ∃ r, s.journal g = some r ∧
      path' = r.repositoryPath env ∧ r.commitBaseKnown = true ∧ r.commitBaseRevision < n ∧
      (r.state = .committing ∨ r.state = .published))
    (hsingle : ∀ path' g n m, (s.onRepository path f).carries g path' n → (s.onRepository path f).carries g path' m → n = m)
    (hput : ∀ path' v g, v ∈ ((s.onRepository path f).repository path').revisions → v.generation = some g →
      v ∈ (s.repository path').revisions ∨ ∃ r b, s.journal g = some r ∧ v.put = some (r.identity.storagePath, b) ∧
        Matches env r.identity (some b)) : Inv env strict (s.onRepository path f) := by
  refine ⟨{ h.uploads with },
    ⟨hcarried, hsingle, fun g r hr hs => carries_mono (hpre _) (h.publications.published g r hr hs), fun path' v g hv hg => ?_,
      fun g r hr hb => (h.publications.base g r hr hb).mono (hpre _), h.publications.unset⟩,
    { h.queues with }⟩
  rcases hput path' v g hv hg with hold | hnew
  · exact h.publications.put path' v g hold hg
  · exact hnew

lemma Inv.others (hc : ∀ path' g n, (s.onRepository path f).carries g path' n → s.carries g path' n)
    (hput : ∀ path' v g, v ∈ ((s.onRepository path f).repository path').revisions → v.generation = some g →
      v ∈ (s.repository path').revisions) : Inv env strict (s.onRepository path f) :=
  h.onRepository hpre (fun path' g n hn => h.publications.carried path' g n (hc path' g n hn))
    (fun path' g n m hn hm => h.publications.single path' g n m (hc path' g n hn) (hc path' g m hm))
    (fun path' v g hv hg => .inl (hput path' v g hv hg))

end

lemma Rely.onRepository (hpre : ∀ path', (s.repository path').revisions <+: ((s.onRepository path f).repository path').revisions)
    (hc : ∀ g path' n, s.window g = some q → (s.onRepository path f).carries g path' n → s.carries g path' n) :
    Rely strict q s (s.onRepository path f) :=
  { (Rely.refl s : Rely strict q s s) with
    mine := fun g hg => { (Same.refl s : Same strict g s s) with carries := fun path' n => hc g path' n hg }
    revisions := hpre }

lemma Inv.sameRevisions (h : Inv env strict s) (hf : ∀ r, (f r).revisions = r.revisions) :
    Inv env strict (s.onRepository path f) := by
  have hrev : ∀ path', ((s.onRepository path f).repository path').revisions = (s.repository path').revisions :=
    revisions_onRepository hf
  refine h.others (fun path' => by rw [hrev]) (fun path' g n => (carries_congr (hrev path')).mp) (fun path' v g hv _ => ?_)
  rw [hrev] at hv
  exact hv

lemma Rely.sameRevisions (hf : ∀ r, (f r).revisions = r.revisions) : Rely strict q s (s.onRepository path f) := by
  have hrev : ∀ path', ((s.onRepository path f).repository path').revisions = (s.repository path').revisions :=
    revisions_onRepository hf
  exact Rely.onRepository (fun path' => by rw [hrev]) (fun g path' n _ => (carries_congr (hrev path')).mp)

section

variable (hf : ∀ r, (f r).revisions = r.revisions ++ [v]) (path' : Str)
include hf path'

lemma revisions_append : ((s.onRepository path f).repository path').revisions =
      if path' = path then (s.repository path').revisions ++ [v] else (s.repository path').revisions := by
  rw [repository_onRepository]
  split
  · rename_i he
    rw [hf, he]
  · rfl

lemma prefix_append : (s.repository path').revisions <+: ((s.onRepository path f).repository path').revisions := by
  rw [revisions_append hf]
  split
  · exact List.prefix_append _ _
  · exact prefix_refl _

end

variable {path' : Str} {n : ℤ}

section

variable (hf : ∀ r, (f r).revisions = r.revisions ++ [v])
include hf

lemma mem_append {v' : Revision}
    (hv : v' ∈ ((s.onRepository path f).repository path').revisions) : v' ∈ (s.repository path').revisions ∨ v' = v := by
  rw [revisions_append hf] at hv
  split at hv
  · simpa using hv
  · exact .inl hv

lemma carries_onRepository (hn : (s.onRepository path f).carries g path' n) : s.carries g path' n ∨
      (path' = path ∧ n = (s.repository path).revisions.length + 1 ∧ v.generation = some g) := by
  have happ : ((s.onRepository path f).repository path').revisions =
      if path' = path then (s.repository path').revisions ++ [v] else (s.repository path').revisions := revisions_append hf path'
  by_cases he : path' = path
  · subst he
    rw [if_pos rfl] at happ
    rcases carries_append happ hn with h | ⟨hn', hv⟩
    · exact .inl h
    · exact .inr ⟨rfl, hn', hv⟩
  · rw [if_neg he] at happ
    exact .inl ((carries_congr happ).mp hn)

lemma carries_other (hv : v.generation = none)
    (hn : (s.onRepository path f).carries g path' n) : s.carries g path' n := by
  rcases carries_onRepository hf hn with hn | ⟨_, _, hg⟩
  · exact hn
  · rw [hv] at hg
    cases hg

end

lemma Inv.commitOther (h : Inv env strict s) (hf : ∀ r, (f r).revisions = r.revisions ++ [v])
    (hv : v.generation = none) : Inv env strict (s.onRepository path f) := by
  refine h.others (prefix_append hf) (fun path' g n => carries_other hf hv) (fun path' v' g hv' hg => ?_)
  rcases mem_append hf hv' with hold | rfl
  · exact hold
  · rw [hv] at hg
    cases hg

lemma Rely.commitOther (hf : ∀ r, (f r).revisions = r.revisions ++ [v]) (hv : v.generation = none) :
    Rely strict q s (s.onRepository path f) :=
  Rely.onRepository (prefix_append hf) (fun _ _ _ _ => carries_other hf hv)

variable {t : ℕ} {mkdirs : List Str}

def putRevision (s : Store) (i : Identity) : Revision := ⟨some i.generationID, some (i.storagePath, s.content i.generationID)⟩

lemma revisions_put (r : Repository) :
    (Repository.commit t (putRevision s i) mkdirs r).revisions = r.revisions ++ [putRevision s i] := rfl

lemma carries_commitPut (hn : (s.commitPut path t i mkdirs).carries g path' n) :
    s.carries g path' n ∨ (path' = path ∧ n = (s.repository path).revisions.length + 1 ∧ g = i.generationID) := by
  rcases carries_onRepository revisions_put hn with hold | ⟨hpath, hlen, hg⟩
  · exact .inl hold
  · exact .inr ⟨hpath, hlen, (some.inj hg).symm⟩

lemma Inv.commitPut (h : Inv env strict s) (hp : Proper env strict pid (.commitPut path t i mkdirs) s) :
    Inv env strict (s.commitPut path t i mkdirs) := by
  obtain ⟨⟨r, ⟨_, hr⟩, hstate, hbase, hpath, hnone⟩, r', hr', hi⟩ := hp
  obtain rfl := mem_unique hr hr'
  refine h.onRepository (prefix_append revisions_put) (fun path' g n hn => ?_) (fun path' g n m hn hm => ?_)
    (fun path' v g hv hg => ?_)
  · rcases carries_commitPut hn with hold | ⟨rfl, hlen, rfl⟩
    · exact h.publications.carried path' g n hold
    · have hnoted : r.commitBaseRevision ≤ (s.repository (r.repositoryPath env)).revisions.length :=
        h.publications.base _ r hr hbase
      rw [← hpath] at hnoted
      exact ⟨r, hr, hpath, hbase, by omega, .inl hstate⟩
  · rcases carries_commitPut hn with hold | ⟨rfl, hlen, rfl⟩
    · rcases carries_commitPut hm with hold' | ⟨rfl, _, rfl⟩
      · exact h.publications.single path' g n m hold hold'
      · exact absurd hold (hnone n)
    · rcases carries_commitPut hm with hold' | ⟨_, hlen', _⟩
      · exact absurd hold' (hnone m)
      · rw [hlen, hlen']
  · rcases mem_append revisions_put hv with hold | rfl
    · exact .inl hold
    · obtain rfl : i.generationID = g := some.inj hg
      obtain ⟨b, hb, hlen, hsha⟩ := h.uploads.checked _ r hr (.inl hstate)
      refine .inr ⟨r, b, hr, ?_, b, rfl, hlen, hsha⟩
      rw [hi, putRevision, Store.content, hb, getD_some]

lemma Rely.commitPut (hq : q ≠ pid) (hp : Proper env strict pid (.commitPut path t i mkdirs) s) :
    Rely strict q s (s.commitPut path t i mkdirs) := by
  obtain ⟨⟨r, ⟨hw, _⟩, _⟩, _⟩ := hp
  refine Rely.onRepository (prefix_append revisions_put) (fun g path' n hg hn => ?_)
  rcases carries_commitPut hn with hold | ⟨_, _, rfl⟩
  · exact hold
  · exact absurd (mem_unique hg hw) hq

variable {r r' : Record}

lemma checkAdvance_eq_ok (h : checkAdvance r r' = .ok ()) : r.identity = r'.identity ∧ r.direction = r'.direction ∧
    (r.commitBaseKnown = true → r'.commitBaseKnown = true ∧ r'.commitBaseRevision = r.commitBaseRevision) ∧
    r.bytesHave ≤ r'.bytesHave ∧ canTransition r'.direction r.state r'.state = true := by
  simp only [checkAdvance, bind_ok, require_ok, exists_const, Bool.and_eq_true, decide_eq_true_eq] at h
  obtain ⟨⟨⟨hi, hd⟩, _⟩, _, hbase, hbytes, htrans⟩ := h
  refine ⟨hi, hd, fun hk => ?_, hbytes, htrans⟩
  simpa [hk] using hbase

lemma journal_write (g : Str) : (s.write r).journal g = if g = r.key then some r else s.journal g := by
  rw [Store.write]
  by_cases he : g = r.key
  · simp [he]
  · simp [he]

lemma recorded_write (g : Str) : (s.write r).recorded g =
    if g = r.key then s.recorded g ++ s.counted r else s.recorded g := by
  rw [Store.write]
  by_cases he : g = r.key
  · simp [he]
  · simp [he]

lemma journal_write_self : (s.write r).journal r.key = some r := by rw [journal_write, if_pos rfl]

lemma journal_write_of_ne (h : g ≠ r.key) : (s.write r).journal g = s.journal g := by rw [journal_write, if_neg h]

lemma at_write {P : Str → Record → Prop} (hself : P r.key r)
    (hother : ∀ g r', g ≠ r.key → s.journal g = some r' → P g r') (g : Str) (r' : Record)
    (hr' : (s.write r).journal g = some r') : P g r' := by
  by_cases he : g = r.key
  · subst he
    rw [journal_write_self, some.injEq] at hr'
    exact hr' ▸ hself
  · rw [journal_write_of_ne he] at hr'
    exact hother g r' he hr'

structure Written (env : Env) (strict : Prop) (s : Store) (r : Record) : Prop where
  later : ∀ r₀, s.journal r.identity.generationID = some r₀ → Later r₀ r
  valid : validateRecord r = .ok () ∧ r.direction = .put
  tiles : Tiles 0 (s.recorded r.identity.generationID ++ s.counted r)
  counted : r.bytesHave = (joined (s.recorded r.identity.generationID ++ s.counted r)).length ∧
    (s.content r.identity.generationID).take r.bytesHave.toNat = joined (s.recorded r.identity.generationID ++ s.counted r)
  checked : r.state = .committing ∨ r.state = .published → Matches env r.identity (s.payload r.identity.generationID)
  carried : ∀ path n, s.carries r.identity.generationID path n → path = r.repositoryPath env ∧ r.commitBaseKnown = true ∧
    r.commitBaseRevision < n ∧ (r.state = .committing ∨ r.state = .published)
  published : r.state = .published → s.carries r.identity.generationID (r.repositoryPath env) r.revision
  base : r.commitBaseKnown = true → Noted env s r
  unset : r.state ≠ .published → r.revision = 0
  engaged : strict → 0 < r.bytesHave → s.engaged r.identity.generationID
  tidy : strict → r.state.terminal = true → s.queued r.identity.generationID → s.window r.identity.generationID ≠ none

namespace Written

section

variable (h : Written env strict s r)
include h

lemma terminal (ht : s.terminal g) : (s.write r).terminal g := by
  obtain ⟨r₀, hr₀, hterm⟩ := ht
  by_cases he : g = r.key
  · subst he
    have heq := (h.later r₀ hr₀).terminal hterm
    exact ⟨r, journal_write_self, heq ▸ hterm⟩
  · exact ⟨r₀, by rw [journal_write_of_ne he, hr₀], hterm⟩

lemma stays_engaged (hg : s.engaged g) : (s.write r).engaged g := by
  rcases hg with ht | hk
  · exact .inl (h.terminal ht)
  · exact .inr hk

lemma uploads (hu : Uploads env s) : Uploads env (s.write r) := by
  have hrec : ∀ g, g ≠ r.key → (s.write r).recorded g = s.recorded g := fun g hg => by
    rw [recorded_write, if_neg hg]
  have hself : (s.write r).recorded r.key = s.recorded r.key ++ s.counted r := by rw [recorded_write, if_pos rfl]
  refine ⟨at_write ⟨h.valid.1, rfl, h.valid.2⟩ (fun g r' _ => hu.valid g r'), fun g hg => ?_, fun g => ?_,
    at_write ?_ (fun g r' hg hr' => ?_), at_write h.checked (fun g r' _ => hu.checked g r')⟩
  · by_cases he : g = r.key
    · subst he
      rw [journal_write_self] at hg
      cases hg
    · rw [journal_write_of_ne he] at hg
      rw [hrec g he]
      exact hu.absent g hg
  · by_cases he : g = r.key
    · subst he
      rw [hself]
      exact h.tiles
    · rw [hrec g he]
      exact hu.tiles g
  · rw [hself]
    exact h.counted
  · rw [hrec g hg]
    exact hu.counted g r' hr'

lemma publications (hp : Publications env s) : Publications env (s.write r) := by
  refine ⟨fun path g n hn => ?_, hp.single, at_write h.published (fun g r' _ => hp.published g r'),
    fun path v g hv hg => ?_, at_write h.base (fun g r' _ => hp.base g r'), at_write h.unset (fun g r' _ => hp.unset g r')⟩
  · by_cases he : g = r.key
    · subst he
      exact ⟨r, journal_write_self, h.carried path n hn⟩
    · rw [journal_write_of_ne he]
      exact hp.carried path g n hn
  · obtain ⟨r₀, b, hr₀, hput, hm⟩ := hp.put path v g hv hg
    by_cases he : g = r.key
    · subst he
      have hi := (h.later r₀ hr₀).identity
      exact ⟨r, b, journal_write_self, by rw [hi]; exact hput, by rw [hi]; exact hm⟩
    · exact ⟨r₀, b, by rw [journal_write_of_ne he, hr₀], hput, hm⟩

lemma queues (hq : Queues strict s) : Queues strict (s.write r) := by
  refine ⟨hq.nodup, fun k q g hk hg => ?_,
    fun hs => at_write (fun hb => h.stays_engaged (h.engaged hs hb)) (fun g r' _ hr' hb => ?_), fun hs g ht hg => ?_⟩
  · obtain ⟨r₀, hr₀, hi⟩ := hq.known k q g hk hg
    by_cases he : g = r.key
    · subst he
      exact ⟨r, journal_write_self, by rw [(h.later r₀ hr₀).identity]; exact hi⟩
    · exact ⟨r₀, by rw [journal_write_of_ne he, hr₀], hi⟩
  · exact h.stays_engaged (hq.engaged hs g r' hr' hb)
  · obtain ⟨r', hr', hterm⟩ := ht
    by_cases he : g = r.key
    · subst he
      rw [journal_write_self, some.injEq] at hr'
      exact h.tidy hs (hr' ▸ hterm) hg
    · rw [journal_write_of_ne he] at hr'
      exact hq.tidy hs g ⟨r', hr', hterm⟩ hg

lemma inv (hi : Inv env strict s) : Inv env strict (s.write r) :=
  ⟨h.uploads hi.uploads, h.publications hi.publications, h.queues hi.queues⟩

lemma rely (hw : s.window r.key ≠ some q) : Rely strict q s (s.write r) := by
  refine ⟨fun g r₀ hr₀ => ?_, fun _ => Iff.rfl, fun g hg => ?_, fun _ => prefix_refl _, fun g => ?_,
    fun _ g hg => h.stays_engaged hg⟩
  · by_cases he : g = r.key
    · subst he
      exact ⟨r, journal_write_self, h.later r₀ hr₀⟩
    · exact ⟨r₀, by rw [journal_write_of_ne he, hr₀], Later.refl r₀⟩
  · have hne : g ≠ r.key := by
      rintro rfl
      exact hw hg
    exact { (Same.refl s : Same strict g s s) with journal := journal_write_of_ne hne, recorded := by rw [recorded_write, if_neg hne] }
  · rw [recorded_write]
    split
    · exact List.prefix_append _ _
    · exact prefix_refl _

end

end Written

lemma written_create (h : Inv env strict s) (hp : Proper env strict pid (.createRecord r) s)
    (hnone : s.journal r.key = none) : Written env strict s r := by
  obtain ⟨hv, hd, hstate, hbytes, hbase, hrevision⟩ := hp
  have hcounted : s.recorded r.key ++ s.counted r = [] := by
    rw [(h.uploads.absent _ hnone).1, Store.counted, hnone]
    rfl
  refine ⟨fun r₀ hr₀ => ?_, ⟨hv, hd⟩, ?_, ?_, fun hs => ?_, fun path n hn => ?_, fun hs => ?_, fun hb => ?_,
    fun _ => hrevision, fun _ hb => ?_, fun _ ht => ?_⟩
  · rw [hnone] at hr₀
    cases hr₀
  · rw [hcounted]
    trivial
  · rw [hcounted, hbytes]
    simp [joined]
  · rw [hstate] at hs
    rcases hs with hs | hs <;> cases hs
  · obtain ⟨r₀, hr₀, _⟩ := h.publications.carried path _ n hn
    rw [hnone] at hr₀
    cases hr₀
  · rw [hstate] at hs
    cases hs
  · rw [hbase] at hb
    cases hb
  · omega
  · rw [hstate] at ht
    cases ht

variable {current : Record}

lemma counted_of_lt {w : Window} (hr : s.journal r.key = some current)
    (hw : s.copied r.key = some w) (hlt : current.bytesHave < r.bytesHave) : s.counted r = [w] := by
  rw [Store.counted, hr, hw]
  exact if_pos hlt

lemma counted_of_eq (hr : s.journal r.key = some current)
    (heq : r.bytesHave = current.bytesHave) : s.counted r = [] := by
  rw [Store.counted, hr, heq]
  split
  · rename_i hc _
    cases hc
    exact if_neg (lt_irrefl _)
  · rfl

lemma counted_write (h : Inv env strict s) (hr : s.journal r.key = some current)
    (hf : Follows env strict s current r) (hle : current.bytesHave ≤ r.bytesHave) :
    Tiles 0 (s.recorded r.key ++ s.counted r) ∧ r.bytesHave = (joined (s.recorded r.key ++ s.counted r)).length ∧
      (s.content r.key).take r.bytesHave.toNat = joined (s.recorded r.key ++ s.counted r) := by
  obtain ⟨hlen, htake⟩ := h.uploads.counted _ current hr
  rcases hle.lt_or_eq with hlt | heq
  · obtain ⟨_, w, hw, hoffset, hbytes, hcontent⟩ := hf.counts hlt
    rw [counted_of_lt hr hw hlt, joined_append, tiles_append]
    refine ⟨⟨h.uploads.tiles _, ?_⟩, ?_, ?_⟩
    · omega
    · rw [length_append]
      omega
    · rw [hcontent, htake]
  · rw [counted_of_eq hr heq.symm, append_nil, ← heq]
    exact ⟨h.uploads.tiles _, hlen, htake⟩

lemma written_write (h : Inv env strict s) (hp : Proper env strict pid (.writeRecord r) s) : Written env strict s r := by
  obtain ⟨current, ⟨hw, hr⟩, hf⟩ := hp
  obtain ⟨hi, hd, hbase, hbytes, htrans⟩ := checkAdvance_eq_ok hf.checked
  obtain ⟨htiles, hcounted⟩ := counted_write h hr hf hbytes
  have hlater : Later current r := ⟨hi.symm, hbytes, fun ht => by rw [hf.live] at ht; cases ht⟩
  refine ⟨fun r₀ hr₀ => ?_, ⟨hf.valid, hd ▸ (h.uploads.valid _ current hr).2.2⟩, htiles, hcounted, fun hs => ?_,
    fun path n hn => ?_, fun hs => (hf.publishes hs).2, hf.base, fun hs => ?_, hf.engaged, fun _ _ _ hnone => ?_⟩
  · obtain rfl := mem_unique hr hr₀
    exact hlater
  · rcases hs with hs | hs
    · exact hf.committing hs
    · have hm := h.uploads.checked _ current hr (.inl (hf.publishes hs).1)
      rw [hi] at hm
      exact hm
  · obtain ⟨r₀, hr₀, hpath, hk, hlt, hs⟩ := h.publications.carried path _ n hn
    obtain rfl := mem_unique hr hr₀
    obtain ⟨hk', heq⟩ := hbase hk
    refine ⟨by rw [Record.repositoryPath, ← hi]; exact hpath, hk', by omega, ?_⟩
    rcases hs with hs | hs
    · exact hf.stays hs
    · have hlive := hf.live
      rw [hs] at hlive
      cases hlive
  · rw [hf.unset hs]
    refine h.publications.unset _ current hr (fun hp => ?_)
    have hlive := hf.live
    rw [hp] at hlive
    cases hlive
  · rw [hw] at hnone
    cases hnone

variable {w : Fate}

lemma answer_createRecord {reply : Created} (hw : answer pid env (.createRecord r) s w = some (s', reply)) :
    (s' = s ∧ reply ≠ .made) ∨ (s.journal r.key = none ∧ s' = s.write r) := by
  by_cases hsome : (s.journal r.key).isSome = true
  · left
    cases w <;> simp only [answer, hsome, if_true] at hw <;> cases hw <;> exact ⟨rfl, fun h => by cases h⟩
  · have hnone : s.journal r.key = none := by simpa using hsome
    cases w with
    | done =>
      simp only [answer, hsome] at hw
      cases hw
      exact .inr ⟨hnone, rfl⟩
    | unsynced =>
      simp only [answer, hsome] at hw
      cases hw
      exact .inr ⟨hnone, rfl⟩
    | _ =>
      simp only [answer, hsome] at hw
      cases hw
      exact .inl ⟨rfl, fun h => by cases h⟩

abbrev Kept (env : Env) (strict : Prop) (pid : ℕ) (s s' : Store) : Prop :=
  Inv env strict s' ∧ ∀ q, q ≠ pid → Rely strict q s s'

section

variable (h : Inv env strict s)
include h

lemma kept : Kept env strict pid s s := ⟨h, fun _ _ => Rely.refl s⟩

lemma createRecord_keeps (hp : Proper env strict pid (.createRecord r) s)
    (hnone : s.journal r.key = none) : Kept env strict pid s (s.write r) := by
  have hw := written_create h hp hnone
  refine ⟨hw.inv h, fun q _ => hw.rely ?_⟩
  rw [(h.uploads.absent _ hnone).2]
  exact fun he => by cases he

lemma writeRecord_keeps (hp : Proper env strict pid (.writeRecord r) s) : Kept env strict pid s (s.write r) := by
  refine ⟨(written_write h hp).inv h, fun q hq => (written_write h hp).rely ?_⟩
  obtain ⟨current, ⟨hw, _⟩, _⟩ := hp
  rw [hw]
  exact fun he => hq (some.inj he).symm

lemma payload_keeps {size : ℤ}
    (hp : Receiving pid g size s) (hc : content.take size.toNat = (s.content g).take size.toNat)
    (hcopied : ∀ g', g' ≠ g → copied g' = s.copied g') :
    Kept env strict pid s { s with payload := update s.payload g (some content), copied := copied } := by
  obtain ⟨r, ⟨hw, hr⟩, hstate, rfl⟩ := hp
  exact ⟨h.payload hr hstate hc, fun q hq => Rely.payload hq hw hcopied⟩

end

lemma answer_keeps (c : Call) (s' : Store) (reply : Reply c) (h : Inv env strict s)
    (hp : Proper env strict pid c s) (ha : Allowed strict c s w) (hw : answer pid env c s w = some (s', reply)) :
    Kept env strict pid s s' := by
  cases c with
  | resolve client repo => cases w <;> cases hw <;> exact kept h
  | createRecord r =>
    rcases answer_createRecord hw with ⟨rfl, _⟩ | ⟨hnone, rfl⟩
    · exact kept h
    · exact createRecord_keeps h hp hnone
  | writeRecord r =>
    rw [answer] at hw
    cases hw
    split
    · exact writeRecord_keeps h hp
    · exact kept h
  | claim i =>
    rw [answer, Store.saveQueue] at hw
    cases hw
    split
    · exact ⟨h.claim hp ha, fun q _ => Rely.claim ha⟩
    · exact kept h
  | release i =>
    rw [answer] at hw
    split at hw
    · cases hw
      exact kept h
    · rename_i oq hr
      rw [Store.saveQueue] at hw
      cases hw
      split
      · exact ⟨h.release hp hr, fun q hq => Rely.release hq hp hr⟩
      · exact kept h
  | reserve g size => cases w <;> cases hw <;> exact kept h
  | lock g =>
    rw [answer] at hw
    split at hw
    · cases hw
      exact kept h
    · rename_i hn
      split at hw
      · cases hw
      · rename_i hfree
        cases hw
        have hj : (s.journal g).isNone = false := by
          by_contra hne
          exact hn (by simp [Bool.eq_true_of_not_eq_false hne])
        have hnone : s.window g = none := by simpa using hfree
        exact ⟨h.lock hj, fun q hq => Rely.lock hq hnone⟩
  | unlock g =>
    rw [answer] at hw
    cases hw
    exact ⟨h.unlock hp.2, fun q hq => Rely.unlock hq hp.1⟩
  | openPayload g =>
    rw [answer] at hw
    obtain ⟨size, hp⟩ := hp
    split at hw
    · cases hw
      exact payload_keeps h hp rfl (fun _ _ => rfl)
    · cases hw
      exact kept h
  | truncate g size =>
    rw [answer] at hw
    cases hw
    split
    · exact payload_keeps h hp (by rw [take_take, Nat.min_self]) (fun _ _ => rfl)
    · exact kept h
  | copy g offset bytes =>
    obtain ⟨hr, hlen⟩ := hp
    cases w with
    | done =>
      cases hw
      exact payload_keeps h hr (take_overwrite hlen.ge) (fun g' hg' => update_of_ne hg' _ _)
    | cut n =>
      cases hw
      exact payload_keeps h hr (take_overwrite hlen.ge) (fun _ _ => rfl)
    | _ =>
      cases hw
      exact kept h
  | removeTransaction path t =>
    rw [answer] at hw
    cases hw
    split
    · exact ⟨h.sameRevisions (fun _ => rfl), fun q _ => Rely.sameRevisions (fun _ => rfl)⟩
    · exact kept h
  | beginPut path g =>
    rw [answer] at hw
    split at hw
    · cases hw
      exact ⟨h.sameRevisions (fun _ => rfl), fun q _ => Rely.sameRevisions (fun _ => rfl)⟩
    · cases hw
      exact kept h
  | commitPut path t i mkdirs =>
    rw [answer] at hw
    split at hw
    · cases hw
      exact ⟨h.commitPut hp, fun q hq => Rely.commitPut hq hp⟩
    · cases hw
      exact kept h
  | _ =>
    cases hw
    exact kept h

lemma outside_keeps (e : Outside) (h : Inv env strict s) :
    Inv env strict (outside e s) ∧ ∀ q, Rely strict q s (outside e s) := by
  cases e with
  | tick =>
    refine ⟨⟨{ h.uploads with }, { h.publications with }, { h.queues with }⟩, fun q => ?_⟩
    exact { (Rely.refl s : Rely strict q s s) with mine := fun g _ => { (Same.refl s : Same strict g s s) with } }
  | begin path => exact ⟨h.sameRevisions (fun _ => rfl), fun q => Rely.sameRevisions (fun _ => rfl)⟩
  | commit path t mkdirs =>
    rw [outside]
    split
    · exact ⟨h.commitOther (v := ⟨none, none⟩) (fun _ => rfl) rfl, fun q => Rely.commitOther (v := ⟨none, none⟩) (fun _ => rfl) rfl⟩
    · exact ⟨h, fun q => Rely.refl s⟩

end FileES.Whale
