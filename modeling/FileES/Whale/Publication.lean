import FileES.Whale.Conduct

/-! A generation is published at most once, and a repeated commit finds its revision. -/

namespace FileES.Whale

open Go Lib.Fallible Lib.Processes Lib.Runs List Option
open Function (update update_self update_of_ne)

variable {env : Env} {pid : ℕ} {g client path : Str} {s s' : Store} {r : Record} {i : Identity} {n : ℤ}

def alone {α : Type} (env : Env) (pid : ℕ) (t : Prog α) (s : Store) : Option (Store × Except WhaleError α) :=
  t.solo (world env) pid .done s

variable {α β : Type} {t : Prog α} {a : Except WhaleError α} {strict : Prop}

lemma alone_bind {f : α → Prog β} {a : α} (h : alone env pid t s = some (s', .ok a)) :
    alone env pid (t >>= f) s = alone env pid (f a) s' := solo_bind h

lemma alone_ask {c : Call} {reply : Reply c} (h : answer pid env c s .done = some (s', reply)) :
    alone env pid (Task.ask c) s = some (s', .ok reply) := solo_ask h

lemma alone_check {x : Except Str Unit} (h : x = .ok ()) : alone env pid (check x) s = some (s, .ok ()) := by
  rw [h]
  rfl

lemma alone_require {c : Bool} {e : WhaleError} (h : c = true) :
    alone env pid (Task.ofExcept (require c e)) s = some (s, .ok ()) := by
  rw [h]
  rfl

lemma canonical_of_validate (h : i.validate = .ok ()) : canonicalUUID i.generationID = true := by
  obtain ⟨_, _, _, _, _, h, _⟩ := bind₃_ok.mp h
  exact require_ok.mp h

lemma identity_of_validateRecord (h : validateRecord r = .ok ()) : r.identity.validate = .ok () := by
  obtain ⟨_, h, _⟩ := bind_ok.mp h
  exact h

section

variable (hv : validateRecord r = .ok ()) (hj : s.journal r.key = some r)
include hv hj

lemma alone_load :
    alone env pid (load r.key) s = some (s, .ok (some r)) := by
  rw [load, alone_bind (alone_require (canonical_of_validate (identity_of_validateRecord hv)))]
  have hread : answer pid env (.readRecord r.key) s .done = some (s, some (some r)) := by
    rw [← hj]
    rfl
  rw [alone_bind (alone_ask hread)]
  have hexpect : alone env pid (expect (some (some r))) s = some (s, .ok (some r)) := rfl
  rw [alone_bind hexpect]
  dsimp only
  rw [alone_bind (alone_check hv), alone_bind (alone_require (by simp))]
  rfl

lemma alone_requireRecord
    (hd : r.direction = .put) : alone env pid (requireRecord r.identity) s = some (s, .ok r) := by
  rw [requireRecord, alone_bind (alone_check (identity_of_validateRecord hv)), alone_bind (alone_load hv hj)]
  have hpresent : alone env pid (Task.ofExcept (present (some r))) s = some (s, .ok r) := rfl
  rw [alone_bind hpresent, checkIdentity, if_pos ⟨rfl, hd⟩]
  rfl

end

lemma alone_authorize {repo : Str} :
    alone env pid (authorize client repo true) s = some (s, .ok (env.repositoryPath repo)) := by
  have hask : answer pid env (.resolve client repo) s .done =
      some (s, some ⟨env.repositoryPath repo, "rw"⟩) := rfl
  rw [authorize, alone_bind (alone_ask hask)]
  simp
  rfl

lemma alone_save {next : Record} (hg : next.key = r.key) (hv : validateRecord r = .ok ())
    (hj : s.journal r.key = some r) (hcheck : checkAdvance r next = .ok ())
    (hvalid : validateRecord next = .ok ()) : alone env pid (save next) s = some (s.write next, .ok ()) := by
  rw [save, show next.identity.generationID = r.key from hg, alone_bind (alone_load hv hj)]
  have hpresent : alone env pid (Task.ofExcept (present (some r))) s = some (s, .ok r) := rfl
  rw [alone_bind hpresent, hcheck]
  have hchecked : alone env pid (Task.ofExcept (.ok ())) s = some (s, .ok ()) := rfl
  rw [alone_bind hchecked, alone_bind (alone_check hvalid)]
  have hwrite : answer pid env (.writeRecord next) s .done = some (s.write next, true) := rfl
  rw [alone_bind (alone_ask hwrite)]
  rfl

lemma alone_bind_pure {b : β} (h : alone env pid t s = some (s', a)) : alone env pid (do
      let _ ← t
      pure b) s = some (s', a.map (fun _ => b)) := by
  cases a with
  | ok a =>
    rw [alone_bind h]
    rfl
  | error e => exact solo_bind_error h

structure Unchanged (s s' : Store) : Prop where
  journal : s'.journal = s.journal
  repository : s'.repository = s.repository

def Unblocked (s : Store) (i : Identity) : Prop := ∀ q, s.queue i.path = some q → i.generationID ∉ q.waiting

lemma alone_cleanup : ∃ s' a, alone env pid (cleanup i) s = some (s', a) ∧ Unchanged s s' ∧ (Unblocked s i → a = .ok ()) := by
  have hunreserve : answer pid env (.unreserve i.generationID) s .done = some (s, true) := rfl
  have hsettle : ∀ s, alone env pid (settle true) s = some (s, .ok ()) := fun _ => rfl
  cases hr : released i.generationID (s.queue i.path) with
  | ok oq =>
    have hrelease : answer pid env (.release i) s .done = some ({ s with queue := update s.queue i.path oq }, .ok ()) := by
      rw [answer, hr]
      rfl
    refine ⟨{ s with queue := update s.queue i.path oq }, .ok (), ?_, ⟨rfl, rfl⟩, fun _ => rfl⟩
    rw [cleanup, alone_bind (alone_ask hunreserve), alone_bind (alone_ask hrelease), alone_bind (hsettle _)]
    rfl
  | error e =>
    have hrelease : answer pid env (.release i) s .done = some (s, .error e) := by
      rw [answer, hr]
    refine ⟨s, .error e, ?_, ⟨rfl, rfl⟩, fun hfree => ?_⟩
    · rw [cleanup, alone_bind (alone_ask hunreserve), alone_bind (alone_ask hrelease), alone_bind (hsettle _)]
      rfl
    · cases hq : s.queue i.path with
      | none =>
        rw [hq] at hr
        cases hr
      | some q =>
        rw [hq, released] at hr
        split at hr
        · split at hr <;> cases hr
        · rw [if_neg (hfree q hq)] at hr
          cases hr

lemma alone_findIn {v : Option Str} (hp : (s.repository path).property n = some v) :
    alone env pid (findIn path g n) s = some (s, .ok (if v = some g then some n else none)) := by
  have hread : answer pid env (.revisionProperty path n) s .done = some (s, some v) := by
    rw [← hp]
    rfl
  have hexpect : alone env pid (expect (some v)) s = some (s, .ok v) := rfl
  rw [findIn, alone_bind (alone_ask hread), alone_bind hexpect]
  rfl

lemma property_of_le (hpos : 1 ≤ n) (hle : n ≤ (s.repository path).revisions.length) :
    ∃ v, (s.repository path).property n = some v := by
  have hlt : n.toNat - 1 < (s.repository path).revisions.length := by omega
  refine ⟨((s.repository path).revisions[n.toNat - 1]).generation, ?_⟩
  rw [Repository.property, if_pos hpos, getElem?_eq_getElem hlt, map_some]

lemma alone_findGeneration {first : ℤ} (hc : s.carries g path n) (hfirst : first ≤ n) (hpos : 1 ≤ first)
    (hsingle : ∀ m, s.carries g path m → m = n) :
    alone env pid (findGeneration path first g) s = some (s, .ok (some n)) := by
  have hyoungest : answer pid env (.youngest path) s .done = some (s, some ((s.repository path).revisions.length : ℤ)) := rfl
  have hexpect : ∀ m : ℤ, alone env pid (expect (some m)) s = some (s, .ok m) := fun _ => rfl
  rw [findGeneration, alone_bind (alone_ask hyoungest), alone_bind (hexpect _)]
  refine solo_search (b := n) (mem_revisionsFrom.mpr ⟨hfirst, carries_le_length hc⟩) ?_ (fun m hm hne => ?_)
  · have hfound : alone env pid (findIn path g n) s = some (s, .ok (if some g = some g then some n else none)) := alone_findIn hc
    rw [if_pos rfl] at hfound
    exact hfound
  · obtain ⟨hlow, hhigh⟩ := mem_revisionsFrom.mp hm
    obtain ⟨v, hv⟩ := property_of_le (hpos.trans hlow) hhigh
    have hmiss : alone env pid (findIn path g m) s = some (s, .ok (if v = some g then some m else none)) := alone_findIn hv
    rw [if_neg (fun he => hne (hsingle m (hv.trans (by rw [he]))))] at hmiss
    exact hmiss

structure Carried (env : Env) (s : Store) (r : Record) (n : ℤ) : Prop where
  journal : s.journal r.identity.generationID = some r
  valid : validateRecord r = .ok ()
  direction : r.direction = .put
  known : r.commitBaseKnown = true
  above : r.commitBaseRevision < n
  carries : s.carries r.identity.generationID (r.repositoryPath env) n
  single : ∀ m, s.carries r.identity.generationID (r.repositoryPath env) m → m = n

lemma Inv.carried (hi : Inv env strict s) (hc : s.carries g path n) : ∃ r, r.key = g ∧
    path = r.repositoryPath env ∧ Carried env s r n ∧
    ((r.state = .committing ∧ r.revision = 0) ∨ (r.state = .published ∧ r.revision = n)) := by
  obtain ⟨r, hr, rfl, hk, hlt, hs⟩ := hi.publications.carried path g n hc
  obtain ⟨hv, rfl, hd⟩ := hi.uploads.valid g r hr
  have hsingle : ∀ m, s.carries r.key (r.repositoryPath env) m → m = n :=
    fun m hm => hi.publications.single _ _ m n hm hc
  refine ⟨r, rfl, rfl, ⟨hr, hv, hd, hk, hlt, hc, hsingle⟩, ?_⟩
  rcases hs with hs | hs
  · exact .inl ⟨hs, hi.publications.unset _ r hr (by rw [hs]; exact fun h => by cases h)⟩
  · exact .inr ⟨hs, hsingle _ (hi.publications.published _ r hr hs)⟩

lemma base_nonneg (hv : validateRecord r = .ok ()) : 0 ≤ r.commitBaseRevision := by
  simp only [validateRecord, bind_ok, require_ok, exists_const, Bool.not_eq_true', Bool.or_eq_false_iff,
    decide_eq_false_iff_not] at hv
  omega

lemma checkAdvance_publish (hs : r.state = .committing) (hd : r.direction = .put) (hrev : r.revision = 0)
    (hn : 0 ≤ n) : checkAdvance r (r.published n) = .ok () := by
  simp only [checkAdvance, bind_ok, require_ok, exists_const]
  refine ⟨by simp, by simp [hrev, hn], by simp, by simp, ?_⟩
  rw [hs, hd]
  rfl

lemma validateRecord_publish (hv : validateRecord r = .ok ()) (hs : r.state = .committing)
    (hd : r.direction = .put) (hk : r.commitBaseKnown = true) (hn : r.commitBaseRevision < n) :
    validateRecord (r.published n) = .ok () := by
  have hbase := base_nonneg hv
  simp only [validateRecord, bind_ok, require_ok, exists_const] at hv ⊢
  obtain ⟨_, hid, _, hoffset, _, hall, _⟩ := hv
  refine ⟨(), hid, (), hoffset, by rw [hd]; rfl, ?_, ?_⟩
  · simpa [hs, hd, needsAllBytes] using hall
  · have hpos : n ≠ 0 := by omega
    simp [hk, hpos]
    omega

structure Found.Again (env : Env) (g : Str) (n : ℤ) (s s' : Store) : Prop where
  record : ∃ r, s'.journal g = some r ∧ r.state = .published ∧ r.revision = n
  repository : s'.repository = s.repository

lemma alone_publish (h : Carried env s r n) (hs : r.state = .committing) (hrev : r.revision = 0) :
    ∃ s' a, alone env pid (publish env (r.repositoryPath env) r) s = some (s', a) ∧
      Found.Again env r.key n s s' ∧ (Unblocked s r.identity → ∃ b, a = .ok b ∧ b.revision = n) := by
  have hbase := base_nonneg h.valid
  have hn : 0 ≤ n := hbase.trans h.above.le
  have hreserve : alone env pid (reserve r.key r.identity.expectedSize) s = some (s, .ok ()) := rfl
  have hcommittable : alone env pid (committable env r) s = some (s, .ok r) := by
    rw [committable, if_neg (by rw [hs]; decide)]
    rfl
  have hrecord : alone env pid (recordBase (r.repositoryPath env) r) s = some (s, .ok r) := by
    rw [recordBase, if_pos h.known]
    rfl
  have hfind : alone env pid (findOrCommit (r.repositoryPath env) r) s = some (s, .ok n) := by
    rw [findOrCommit, alone_bind (alone_findGeneration h.carries h.above (by omega) h.single)]
    rfl
  have hpublish : alone env pid (publishWhale (r.repositoryPath env) r) s = some (s, .ok (r, n)) := by
    rw [publishWhale, alone_bind (alone_require (by simpa using hs)), alone_bind hrecord, alone_bind hfind]
    rfl
  have hsave : alone env pid (save (r.published n)) s =
      some (s.write (r.published n), .ok ()) :=
    alone_save (r := r) rfl h.valid h.journal (checkAdvance_publish hs h.direction hrev hn)
      (validateRecord_publish h.valid hs h.direction h.known h.above)
  obtain ⟨s', a, hclean, hsame, hfree⟩ : ∃ s' a, alone env pid (cleanup r.identity)
      (s.write (r.published n)) = some (s', a) ∧
      Unchanged (s.write (r.published n)) s' ∧
      (Unblocked (s.write (r.published n)) r.identity → a = .ok ()) := alone_cleanup
  have hagain : Found.Again env r.key n s s' := by
    refine ⟨⟨r.published n, ?_, rfl, rfl⟩, hsame.repository⟩
    rw [hsame.journal]
    exact journal_write_self
  have hcommitting : decide (r.state = .committing) = true := by simpa using hs
  refine ⟨s', a.map (fun _ => result (r.published n)), ?_, hagain, fun hunblocked => ?_⟩
  · rw [publish, alone_bind hreserve, alone_bind (alone_load h.valid h.journal), alone_bind hcommittable,
      alone_bind (alone_require hcommitting), alone_bind hpublish]
    exact (alone_bind hsave).trans (alone_bind_pure hclean)
  · rw [hfree hunblocked]
    exact ⟨_, rfl, rfl⟩

lemma alone_commitLocked (h : Carried env s r n)
    (hs : (r.state = .committing ∧ r.revision = 0) ∨ (r.state = .published ∧ r.revision = n)) :
    ∃ s' a, alone env pid (commitLocked env client r.identity) s = some (s', a) ∧
      Found.Again env r.key n s s' ∧ (Unblocked s r.identity → ∃ b, a = .ok b ∧ b.revision = n) := by
  rw [commitLocked, alone_bind alone_authorize, alone_bind (alone_requireRecord h.valid h.journal h.direction)]
  rcases hs with ⟨hs, hrev⟩ | ⟨hs, hrev⟩
  · rw [if_neg (by rw [hs]; decide), if_neg (by rw [hs]; decide)]
    exact alone_publish h hs hrev
  · rw [if_pos hs]
    obtain ⟨s', a, hclean, hsame, hfree⟩ : ∃ s' a, alone env pid (cleanup r.identity) s = some (s', a) ∧ Unchanged s s' ∧
      (Unblocked s r.identity → a = .ok ()) := alone_cleanup
    refine ⟨s', a.map (fun _ => result r), alone_bind_pure hclean, ⟨⟨r, ?_, hs, hrev⟩, hsame.repository⟩, fun hunblocked => ?_⟩
    · rw [hsame.journal]
      exact h.journal
    · rw [hfree hunblocked]
      exact ⟨_, rfl, hrev⟩

lemma alone_withFileLock {body : Prog α} (hj : (s.journal g).isSome = true) (hw : s.window g = none)
    (hbody : alone env pid body { s with window := update s.window g (some pid) } = some (s', a)) :
    alone env pid (withFileLock g body) s = some ({ s' with window := update s'.window g none }, a) := by
  have hlock : answer pid env (.lock g) s .done = some ({ s with window := update s.window g (some pid) }, true) := by
    rw [answer, hw]
    simp [isSome_iff_ne_none.mp hj, Fate.ok]
  have hsettle : ∀ s, alone env pid (settle true) s = some (s, .ok ()) := fun _ => rfl
  have hattempt : alone env pid body.attempt { s with window := update s.window g (some pid) } = some (s', .ok a) :=
    solo_attempt hbody
  have hunlock : answer pid env (.unlock g) s' .done = some ({ s' with window := update s'.window g none }, ()) := rfl
  rw [withFileLock, alone_bind (alone_ask hlock), alone_bind (hsettle _), alone_bind hattempt, alone_bind (alone_ask hunlock)]
  cases a <;> rfl

lemma alone_commit (hi : Inv env strict s) (hc : s.carries g path n) (hw : s.window g = none) :
    ∃ r s' a, s.journal g = some r ∧ alone env pid (commit env client r.identity) s = some (s', a) ∧
      Found.Again env g n s s' ∧ (Unblocked s r.identity → ∃ b, a = .ok b ∧ b.revision = n) := by
  obtain ⟨r, rfl, rfl, hcarried, hs⟩ := hi.carried hc
  have hlocked : Carried env { s with window := update s.window r.key (some pid) } r n :=
    { hcarried with }
  obtain ⟨s', a, hbody, hagain, hfree⟩ : ∃ s' a, alone env pid (commitLocked env client r.identity)
      { s with window := update s.window r.key (some pid) } = some (s', a) ∧
      Found.Again env r.key n { s with window := update s.window r.key (some pid) } s' ∧
      (Unblocked { s with window := update s.window r.key (some pid) } r.identity →
        ∃ b, a = .ok b ∧ b.revision = n) := alone_commitLocked hlocked hs
  refine ⟨r, { s' with window := update s'.window r.key none }, a, hcarried.journal, ?_,
    ⟨hagain.record, hagain.repository⟩, hfree⟩
  rw [commit, alone_bind (alone_check (identity_of_validateRecord hcarried.valid))]
  exact alone_withFileLock (by rw [hcarried.journal]; rfl) hw hbody

def retry (client : Str) (i : Identity) (pid calls : ℕ) : List Happening :=
  .start (.commit client i) :: List.replicate calls (.advance pid .done)

/-- One revision at most carries a generation, named by its record and by every reply; a commit that is asked for
again finds it. -/
structure PublishedOnce (env : Env) (c : System) : Prop where
  single : ∀ g path path' n m, c.shared.carries g path n → c.shared.carries g path' m → path = path' ∧ n = m
  record : ∀ g r, c.shared.journal g = some r → r.state = .published → c.shared.carries g (r.repositoryPath env) r.revision
  reply : ∀ pid client i a, c.requests[pid]? = some (.commit client i) → c.task pid = some (.ret (.ok a)) →
    c.shared.carries i.generationID (env.repositoryPath i.logicalRepoID) a.revision
  put : ∀ pid path t i mkdirs next, c.task pid = some (.call (.commitPut path t i mkdirs) next) →
    ∀ path' n, ¬ c.shared.carries i.generationID path' n
  again : ∀ g path n client, c.shared.carries g path n → c.shared.window g = none → ∃ r calls c' a,
    c.shared.journal g = some r ∧ c' = run (exec env) c (retry client r.identity c.requests.length calls) ∧
    c'.task c.requests.length = some (.ret a) ∧ Found.Again env g n c.shared c'.shared ∧
    (Unblocked c.shared r.identity → ∃ b, a = .ok b ∧ b.revision = n)

lemma publishedOnce_of_sound {c : System} (h : Sound (rules env False) (Answers env) c) : PublishedOnce env c := by
  have hi : Inv env False c.shared := h.inv
  have hsame : ∀ g path path' n m, c.shared.carries g path n → c.shared.carries g path' m → path = path' ∧ n = m := by
    intro g path path' n m hn hm
    obtain ⟨r, hr, rfl, _⟩ := hi.publications.carried path g n hn
    obtain ⟨r', hr', rfl, _⟩ := hi.publications.carried path' g m hm
    obtain rfl := mem_unique hr hr'
    exact ⟨rfl, hi.publications.single _ g n m hn hm⟩
  refine ⟨hsame, hi.publications.published, fun pid client i a hr ht => ?_, fun pid path t i mkdirs next ht path' n hc => ?_,
    fun g path n client hc hw => ?_⟩
  · obtain ⟨request, hreq, _, hq⟩ := h.of_ret ht
    rw [hr] at hreq
    cases hreq
    exact hq
  · obtain ⟨⟨r, ⟨_, hr⟩, _, _, hpath, hnone⟩, _⟩ := h.proper ht
    obtain ⟨r', hr', rfl, _⟩ := hi.publications.carried path' _ n hc
    obtain rfl := mem_unique hr hr'
    rw [← hpath] at hc
    exact hnone n hc
  · obtain ⟨r, s', a, hj, halone, hagain, hfree⟩ : ∃ r s' a, c.shared.journal g = some r ∧
        alone env c.requests.length (commit env client r.identity) c.shared = some (s', a) ∧
        Found.Again env g n c.shared s' ∧ (Unblocked c.shared r.identity → ∃ b, a = .ok b ∧ b.revision = n) :=
      alone_commit hi hc hw
    obtain ⟨calls, task', hret, hrun⟩ : ∃ calls task', task' c.requests.length = some (.ret a) ∧
        run (exec env) ⟨c.shared, c.requests ++ [.commit client r.identity],
          update c.task c.requests.length (some (program env (.commit client r.identity)))⟩
          (replicate calls (.advance c.requests.length .done)) =
        ⟨s', c.requests ++ [.commit client r.identity], task'⟩ := run_solo halone _ _ (update_self _ _ _)
    refine ⟨r, calls, ⟨s', c.requests ++ [.commit client r.identity], task'⟩, a, hj, ?_, hret, hagain, hfree⟩
    rw [← hrun]
    rfl

theorem publication_exactly_once (env : Env) (s : Store) (h : s.Initial) (es : List Happening) :
    Along (exec env) (PublishedOnce env) (fresh s) es :=
  fun pre _ => publishedOnce_of_sound (sound_run h pre)

def matchingEnv : Env := ⟨fun _ => List.replicate 64 '0', id⟩

def published : List Happening := uploading 21 ++ retry [] sampleIdentity 1 20

theorem publication_exactly_once_sample :
    (run (exec matchingEnv) (fresh sampleStore) published).shared.carries sampleGeneration sampleRepo 1 ∧
      Along (exec matchingEnv) (PublishedOnce matchingEnv) (fresh sampleStore) published := by
  refine ⟨?_, publication_exactly_once matchingEnv sampleStore sampleStore_initial published⟩
  have hrun : ((run (exec matchingEnv) (fresh sampleStore) published).shared.repository sampleRepo).property 1 =
      some (some sampleGeneration) := by decide +kernel
  exact hrun

end FileES.Whale
