import FileES.Whale.Changes

/-! Every request keeps to the rules, whatever the other processes do meanwhile. -/

namespace FileES.Whale

open Go Lib.Fallible Lib.Processes Store List Option
open Function (update update_self update_of_ne)

def rules (env : Env) (strict : Prop) : Contract (world env) where
  inv := Inv env strict
  rely := Rely strict
  idle := Idle
  proper pid c s := Proper env strict pid c s
  allowed _ c s w := Allowed strict c s w
  mayDie pid s := MayDie strict pid s
  mayHappen _ _ := True
  rely_refl _ s := Rely.refl s
  rely_trans _ _ _ _ h h' := h.trans h'
  rely_idle _ _ _ h hi := h.idle hi
  answer_keeps _ c _ _ s' reply h hp ha hw := answer_keeps c s' reply h hp ha hw
  die_keeps _ _ h hd := ⟨h.die hd, idle_die, fun _ hq => Rely.die hq⟩
  outside_keeps e _ h _ := outside_keeps e h

variable {env : Env} {strict : Prop} {pid : ℕ} {g : Str} {s s' : Store}

section

variable (strict : Prop) (pid : ℕ) (g : Str) (r : Record) (F : Store → Prop) (s : Store)

def Working : Prop :=
  s.window g = some pid ∧ ∀ g', s.window g' = some pid → g' = g

def Mine : Prop := Working pid g s ∧ F s

class Lasting (strict : Prop) (pid : ℕ) (g : Str) (F : Store → Prop) : Prop where
  keep : ∀ s s', Rely strict pid s s' → Same strict g s s' → F s → F s'

def Has : Prop := s.journal g = some r ∧ F s

def Tidy : Prop := strict → s.terminal g → ¬ s.queued g

abbrev Held : Store → Prop := Mine pid r.key (Has r.key r F)

abbrev Calm : Store → Prop := Mine pid g (Tidy strict g)

abbrev Failed (_ : WhaleError) : Store → Prop := Calm strict pid r.key

abbrev Engaged : Prop := strict → s.engaged g

def Known (i : Identity) (s : Store) : Prop := ∃ r, s.journal i.generationID = some r ∧ r.identity = i

end

variable {F G : Store → Prop} {r : Record} {i : Identity}

lemma Working.rely (h : Working pid g s) (hr : Rely strict pid s s') : Working pid g s' :=
  ⟨(hr.locks g).mpr h.1, fun g' hg' => h.2 g' ((hr.locks g').mp hg')⟩

lemma Working.unlocked (h : Working pid g s) : Idle pid { s with window := update s.window g none } := by
  intro g' hg'
  by_cases he : g' = g
  · subst he
    have hnone : (update s.window g' none) g' = some pid := hg'
    rw [update_self] at hnone
    cases hnone
  · exact he (h.2 g' ((update_of_ne he none s.window).symm.trans hg'))

instance [h : Lasting strict pid g F] : Lasts (rules env strict) pid (Mine pid g F) :=
  ⟨fun s s' hr _ hs => ⟨hs.1.rely hr, h.keep s s' hr (Rely.mine hr g hs.1.1) hs.2⟩⟩

instance [hF : Lasting strict pid g F] [hG : Lasting strict pid g G] : Lasting strict pid g (fun s => F s ∧ G s) :=
  ⟨fun s s' hr hm h => ⟨hF.keep s s' hr hm h.1, hG.keep s s' hr hm h.2⟩⟩

instance {p : Prop} [hF : Lasting strict pid g F] : Lasting strict pid g (fun s => p → F s) :=
  ⟨fun s s' hr hm h hp => hF.keep s s' hr hm (h hp)⟩

instance {γ : Type} {F : γ → Store → Prop} [hF : ∀ x, Lasting strict pid g (F x)] : Lasting strict pid g (fun s => ∀ x, F x s) :=
  ⟨fun s s' hr hm h x => (hF x).keep s s' hr hm (h x)⟩

instance (p : Prop) : Lasting strict pid g (fun _ => p) := ⟨fun _ _ _ _ h => h⟩

instance : Lasting strict pid g (Tidy strict g) := by
  refine ⟨fun s s' _ hm h hs ht hq => ?_⟩
  have ht' : s.terminal g := (terminal_of_journal hm.journal).mp ht
  exact h hs ht' (hm.queued hs ht' hq)

instance [hF : Lasting strict pid g F] : Lasting strict pid g (Has g r F) :=
  ⟨fun s s' hr hm h => ⟨hm.journal.trans h.1, hF.keep s s' hr hm h.2⟩⟩

instance : Lasting strict pid g (Engaged strict g) := ⟨fun _ _ hr _ h hs => hr.engaged hs g (h hs)⟩

instance : Lasts (rules env strict) pid (Engaged strict g) := ⟨fun _ _ hr _ h hs => Rely.engaged hr hs g (h hs)⟩

instance {path : Str} {n : ℤ} : Lasting strict pid g (fun s => s.carries g path n) :=
  ⟨fun _ _ hr _ h => carries_mono (hr.revisions path) h⟩

instance : Lasts (rules env strict) pid (Idle pid) := ⟨fun _ _ hr _ h => Rely.idle hr h⟩

instance : Lasts (rules env strict) pid (Known i) := by
  refine ⟨?_⟩
  rintro s s' hr _ ⟨r, hj, hi⟩
  obtain ⟨r', hj', hl⟩ := Rely.journal hr _ r hj
  exact ⟨r', hj', hl.identity.trans hi⟩

lemma tidy_of_live (hl : r.state.terminal = false) (hj : s.journal g = some r) : Tidy strict g s := by
  rintro _ ⟨r', hr', ht⟩
  obtain rfl := mem_unique hj hr'
  rw [hl] at ht
  cases ht

lemma Mine.fails (hl : r.state.terminal = false) (h : Mine pid g (Has g r F) s) : Calm strict pid g s :=
  ⟨h.1, tidy_of_live hl h.2.1⟩

lemma fails (hl : r.state.terminal = false) (_ : WhaleError) (s : Store) (_ : Inv env strict s)
    (h : Mine pid g (Has g r F) s) : Calm strict pid g s := h.fails hl

variable {α β : Type} {P : Store → Prop} {Q : α → Store → Prop} {S : WhaleError → Store → Prop} {o : Option α} {size : ℤ}
  {b : Bool}

abbrev Acts (env : Env) (strict : Prop) (pid : ℕ) (P : Store → Prop) (t : Prog α) (Q : α → Store → Prop)
    (S : WhaleError → Store → Prop) : Prop := Does (rules env strict) pid P t Q S

variable {K : Record → Store → Prop} {r' : Record}

lemma check_eq_ok {x : Except Str Unit} {u : Unit} (h : x.mapError WhaleError.text = .ok u) : x = .ok () := by
  cases x with
  | ok _ => rfl
  | error e => cases h

section

variable [Lasts (rules env strict) pid P]

lemma does_settle {Q : Store → Prop}
    (hS : b = false → ∀ e s, Inv env strict s → P s → S e s) (h : b = true → ∀ s, Inv env strict s → P s → Q s) :
    Acts env strict pid P (settle b) (fun _ => Q) S := by
  cases b with
  | true => exact .pure (h rfl)
  | false => exact .fail (fun s hi hs => hS rfl _ s hi hs)

def Quiet (c : Call) : Prop :=
  (∀ env strict pid s, Proper env strict pid c s) ∧
    ∀ env pid s w s' r, answer pid env c s w = some (s', r) → s' = s

lemma does_quiet {c : Call}
    (hc : Quiet c := by exact ⟨fun _ _ _ _ => trivial, fun _ _ _ w _ _ hw => by cases w <;> cases hw <;> rfl⟩) :
    Acts env strict pid P (Task.ask c : Prog (Reply c)) (fun _ => P) S := by
  refine .ask (fun s _ _ => hc.1 env strict pid s) (fun s w s' r _ hs _ hw => ?_)
  obtain rfl := hc.2 env pid s w s' r hw
  exact hs

variable (hS : ∀ e s, Inv env strict s → P s → S e s)
include hS

lemma does_expect (h : ∀ a s, o = some a → Inv env strict s → P s → Q a s) : Acts env strict pid P (expect o) Q S := by
  cases o with
  | some a => exact .pure (fun s hi hs => h a s rfl hi hs)
  | none => exact .fail (fun s hi hs => hS _ s hi hs)

lemma does_expectAny : Acts env strict pid P (expect o) (fun _ => P) S := does_expect hS (fun _ _ _ _ hs => hs)

lemma does_reserve : Acts env strict pid P (reserve g size) (fun _ => P) S := by
  refine .bind does_quiet (fun r => ?_)
  cases r with
  | granted => exact .done
  | short _ _ => exact .fail (fun s => hS _ s)
  | failed => exact .fail (fun s => hS _ s)

lemma does_load [∀ r, Lasts (rules env strict) pid (K r)]
    (h : ∀ r s, Inv env strict s → P s → s.journal g = some r → K r s) :
    Acts env strict pid P (load g) (fun o s => P s ∧ ∀ r, o = some r → K r s) S := by
  refine .except hS (fun _ _ => ?_)
  refine .bind (Q := fun o s => P s ∧ ∀ r, o = some (some r) → K r s)
    (.ask (fun _ _ _ => trivial) (fun s w s' o hi hs _ hw => ?_)) (fun o => ?_)
  · cases hw
    refine ⟨hs, fun r hr => ?_⟩
    split at hr
    · exact h r s hi hs (some.inj hr)
    · cases hr
  · refine .bind (Q := fun o s => P s ∧ ∀ r, o = some r → K r s)
      (does_expect (fun e s hi hs => hS e s hi hs.1) (fun o' s ho hi hs => ?_)) (fun o' => ?_)
    · exact ⟨hs.1, fun r hr => hs.2 r (ho.trans (by rw [hr]))⟩
    · cases o' with
      | none => exact .pure (fun _ _ hs => hs)
      | some r =>
        refine .except (fun e s hi hs => hS e s hi hs.1) (fun _ _ => ?_)
        refine .except (fun e s hi hs => hS e s hi hs.1) (fun _ _ => ?_)
        exact .pure (fun _ _ hs => hs)

lemma does_loadOnly : Acts env strict pid P (load g) (fun _ => P) S :=
  (does_load (K := fun _ _ => True) hS (fun _ _ _ _ _ => trivial)).post (fun _ _ _ hs => hs.1)

end

lemma does_expecting {t : Prog (Option α)} {K : α → Store → Prop} {f : α → Prog β} {Q : β → Store → Prop}
    [∀ a, Lasting strict pid r.key (K a)] (hlive : r.state.terminal = false)
    (h : Acts env strict pid P t (fun o => Held pid r (fun s => ∀ a, o = some a → K a s)) (Failed strict pid r))
    (hf : ∀ a, Acts env strict pid (Held pid r (K a)) (f a) Q (Failed strict pid r)) :
    Acts env strict pid P (do f (← expect (← t))) Q (Failed strict pid r) := by
  refine .bind h (fun o => .bind (Q := fun a => Held pid r (K a)) (does_expect (fails hlive) (fun a s ho _ hs => ?_)) hf)
  exact ⟨hs.1, hs.2.1, hs.2.2 a ho⟩

lemma does_save (current next : Record) {Q : Store → Prop} [Lasting strict pid g F] [Lasts (rules env strict) pid Q] (hg : next.key = g)
    (hlive : current.state.terminal = false)
    (hf : ∀ s, Inv env strict s → Mine pid g (Has g current F) s → checkAdvance current next = .ok () →
      validateRecord next = .ok () → Follows env strict s current next)
    (hw : ∀ s, Inv env strict s → Mine pid g (Has g current F) s → Follows env strict s current next → Q (s.write next)) :
    Acts env strict pid (Mine pid g (Has g current F)) (save next) (fun _ => Q) (fun _ => Calm strict pid g) := by
  subst hg
  refine .bind (Q := fun o s => Mine pid next.key (Has next.key current F) s ∧
    ∀ r, o = some r → r = current)
    (does_load (fails hlive) (fun r s _ hs hr => mem_unique hr hs.2.1)) (fun o => ?_)
  refine .given (fun ho => ?_)
  refine .except (fails hlive) (fun r hr => ?_)
  obtain rfl : r = current := by
    cases o with
    | none => cases hr
    | some r' =>
      cases hr
      exact ho _ rfl
  refine .except (fails hlive) (fun _ hcheck => ?_)
  refine .except (fails hlive) (fun _ hvalid => ?_)
  have hvalid' := check_eq_ok hvalid
  refine .bind (Q := fun b s => (b = true → Q s) ∧ (b = false → Calm strict pid next.key s)) (.ask (fun s hi hs => ⟨r, ⟨hs.1.1, hs.2.1⟩, hf s hi hs hcheck hvalid'⟩)
    (fun s w s' b hi hs ha hans => ?_))
    (fun b => does_settle (fun hb _ s _ hs => hs.2 hb) (fun hb s _ hs => hs.1 hb))
  have hfollows := hf s hi hs hcheck hvalid'
  cases hans
  refine ⟨fun hok => ?_, fun hok => ?_⟩
  · cases w with
    | done => exact hw s hi hs hfollows
    | _ => cases hok
  · cases w with
    | done => cases hok
    | unsynced =>
      refine ⟨hs.1, fun hstrict ht _ => ?_⟩
      obtain ⟨r', hr', hterm⟩ := ht
      obtain rfl := mem_unique journal_write_self hr'
      exact ha hstrict hterm rfl
    | _ => exact hs.fails hlive

lemma checkIdentity_eq_ok {d : Direction} (h : checkIdentity i d r = .ok r') :
    r' = r ∧ r.identity = i ∧ r.direction = d := by
  rw [checkIdentity] at h
  split at h
  · rename_i hid
    cases h
    exact ⟨rfl, hid⟩
  · cases h

lemma does_loadKnown : Acts env strict pid (Idle pid) (load i.generationID)
    (fun o s => Idle pid s ∧ ∀ r, o = some r → r.identity = i → Known i s) (fun _ => Idle pid) :=
  does_load (fun _ _ _ hs => hs)
    (fun r _ _ _ hr hi => ⟨r, hr, hi⟩)

lemma does_checkIdentity : Acts env strict pid
    (fun s => Idle pid s ∧ ∀ r', some r = some r' → r'.identity = i → Known i s)
    (Task.ofExcept (checkIdentity i .put r) : Prog Record) (fun _ s => Idle pid s ∧ Known i s) (fun _ => Idle pid) := by
  refine .ofExcept
    (fun r' s hr' _ hs => ?_) (fun _ s _ hs => hs.1)
  exact ⟨hs.1, hs.2 r rfl (checkIdentity_eq_ok hr').2.1⟩

lemma does_adoptCreated : Acts env strict pid (Idle pid) (adoptCreated i .put)
    (fun _ s => Idle pid s ∧ Known i s) (fun _ => Idle pid) := by
  refine .bind (.attempt does_loadKnown) (fun a => ?_)
  match a with
  | .ok (some r) => exact does_checkIdentity
  | .ok none => exact .fail (fun _ _ hs => hs.1)
  | .error e => exact .fail (P := Idle pid) (fun _ _ hs => hs)

lemma does_createNew : Acts env strict pid (Idle pid) (createNew i .put)
    (fun _ s => Idle pid s ∧ Known i s) (fun _ => Idle pid) := by
  refine .bind does_quiet (fun now => ?_)
  refine .except (fun _ _ _ hs => hs) (fun _ hvalid => ?_)
  refine .bind (Q := fun c s => Idle pid s ∧ (c = .made → Known i s)) (.ask (fun s _ _ => ⟨check_eq_ok hvalid, rfl, rfl, rfl, rfl, rfl⟩)
    (fun s w s' c _ hs _ hans => ?_)) (fun c => ?_)
  · have hans' : answer pid env (.createRecord ⟨i, .put, initialState .put, 0, 0, false, 0, now⟩) s w = some (s', c) := hans
    rcases answer_createRecord hans' with ⟨rfl, hc⟩ | ⟨_, rfl⟩
    · exact ⟨hs, fun hmade => absurd hmade hc⟩
    · exact ⟨hs, fun _ => ⟨_, journal_write_self, rfl⟩⟩
  · cases c with
    | made => exact .pure (fun s _ hs => ⟨hs.1, hs.2 rfl⟩)
    | failed => exact .fail (fun s _ hs => hs.1)
    | notRenamed => exact does_adoptCreated.pre (fun s _ hs => hs.1)

lemma does_create : Acts env strict pid (Idle pid) (create i .put)
    (fun _ s => Idle pid s ∧ Known i s) (fun _ => Idle pid) := by
  refine .except (fun _ _ _ hs => hs) (fun _ _ => ?_)
  refine .bind does_loadKnown (fun o => ?_)
  cases o with
  | some r => exact does_checkIdentity
  | none => exact does_createNew.pre (fun s _ hs => hs.1)

lemma does_requireRecord [Lasting strict pid i.generationID F]
    (hS : ∀ e s, Inv env strict s → Mine pid i.generationID F s → S e s) :
    Acts env strict pid (Mine pid i.generationID F) (requireRecord i)
      (fun r s => Mine pid i.generationID (Has i.generationID r F) s ∧ r.identity = i) S := by
  refine .except hS (fun _ _ => ?_)
  refine .bind (does_load (K := fun r => Mine pid i.generationID (Has i.generationID r F)) hS
    (fun r s _ hs hr => ⟨hs.1, hr, hs.2⟩)) (fun o => ?_)
  refine .except (fun e s hi hs => hS e s hi hs.1) (fun r hr => ?_)
  refine .ofExcept (fun r' s hr' _ hs => ?_) (fun e s hi hs => hS e s hi hs.1)
  obtain ⟨rfl, hid, _⟩ := checkIdentity_eq_ok hr'
  refine ⟨hs.2 r' ?_, hid⟩
  cases o with
  | none => cases hr
  | some _ =>
    cases hr
    rfl

lemma answer_lock {w : Fate} (h : (world env).answer pid (.lock g) s w = some (s', b)) :
    (s' = s ∧ b = false) ∨
      (s.window g = none ∧ s' = { s with window := update s.window g (some pid) } ∧ b = true) := by
  change answer pid env (.lock g) s w = some (s', b) at h
  rw [answer] at h
  split at h
  · cases h
    exact .inl ⟨rfl, rfl⟩
  · split at h
    · cases h
    · rename_i hfree
      cases h
      exact .inr ⟨by simpa using hfree, rfl, rfl⟩

lemma does_withFileLock {body : Prog α} [Lasts (rules env strict) pid F] [∀ a, Lasts (rules env strict) pid (Q a)]
    (hunlock : ∀ a s, Q a s → Q a { s with window := update s.window g none })
    (hlock : ∀ s, F s → F { s with window := update s.window g (some pid) })
    (hbody : Acts env strict pid (fun s => Calm strict pid g s ∧ F s) body
      (fun a s => Calm strict pid g s ∧ Q a s) (fun _ => Calm strict pid g)) :
    Acts env strict pid (fun s => Idle pid s ∧ F s) (withFileLock g body)
      (fun a s => Idle pid s ∧ Q a s) (fun _ => Idle pid) := by
  refine .bind (Q := fun b s => (b = false → Idle pid s) ∧ (b = true → Calm strict pid g s ∧ F s))
    (.ask (fun s _ hs => hs.1)
      (fun s w s' b hi hs _ hans => ?_)) (fun b => ?_)
  · rcases answer_lock hans with ⟨rfl, rfl⟩ | ⟨hfree, rfl, rfl⟩
    · exact ⟨fun _ => hs.1, nofun⟩
    · refine ⟨nofun, fun _ => ⟨⟨⟨update_self _ _ _, fun g' hg' => ?_⟩, fun hstrict ht hq => ?_⟩, hlock s hs.2⟩⟩
      · by_contra hne
        exact hs.1 g' ((update_of_ne hne (some pid) s.window).symm.trans hg')
      · exact hi.queues.tidy hstrict g ht hq hfree
  · refine .seq (does_settle (Q := fun s => Calm strict pid g s ∧ F s) (fun hb _ s _ hs => hs.1 hb)
      (fun hb s _ hs => hs.2 hb)) ?_
    refine .bind (.attempt hbody) (fun a => ?_)
    cases a with
    | ok a =>
      refine .seq (Q := fun s => Idle pid s ∧ Q a s)
        (.ask (fun s _ hs => ⟨hs.1.1.1, hs.1.2⟩)
          (fun s w s' _ _ hs _ hans => ?_)) (.pure (fun _ _ hs => hs))
      cases hans
      exact ⟨hs.1.1.unlocked, hunlock a s hs.2⟩
    | error e =>
      refine .seq (Q := Idle pid)
        (.ask (P := Calm strict pid g) (fun s _ hs => ⟨hs.1.1, hs.2⟩)
          (fun s w s' _ _ hs _ hans => ?_)) (.fail (fun _ _ hs => hs))
      cases hans
      exact hs.1.unlocked

lemma holds_path (hi : Inv env strict s) (hj : s.journal g = some r) (hlive : r.state.terminal = false)
    (he : s.engaged g) : s.holds g r.identity.path := by
  rcases he with ⟨r', hr', ht⟩ | ⟨k, q, hq, hg⟩
  · obtain rfl := mem_unique hj hr'
    rw [hlive] at ht
    cases ht
  · obtain ⟨r', hr', hk⟩ := hi.queues.known k q g hq (by rw [← hg]; exact mem_cons_self)
    obtain rfl := mem_unique hj hr'
    exact hk ▸ ⟨q, hq, hg⟩

def Leaving (strict : Prop) (r : Record) (s : Store) : Prop :=
  s.journal r.identity.generationID = some r ∧
    (strict → s.holds r.identity.generationID r.identity.path ∨ ¬ s.queued r.identity.generationID)

lemma lasting_leaving (ht : r.state.terminal = true) : Lasting strict pid r.key (Leaving strict r) := by
  refine ⟨fun s s' _ hm h => ⟨hm.journal.trans h.1, fun hs => ?_⟩⟩
  rcases h.2 hs with hk | hq
  · exact .inl (hm.holds _ hk)
  · exact .inr (fun hq' => hq (hm.queued hs ⟨r, h.1, ht⟩ hq'))

lemma not_queued_released {oq : Option QueueRecord} (hi : Inv env strict s) (hj : s.journal r.key = some r)
    (hr : released r.key (s.queue r.identity.path) = .ok oq) :
    ¬ (s.requeue r.identity oq).queued r.key := by
  rintro ⟨k, q, hk, hg⟩
  by_cases he : k = r.identity.path
  · rw [update_queue he] at hk
    exact (nodup_released (fun q hq => hi.queues.nodup _ q hq) hr hk).2 hg
  · rw [update_queue_of_ne he] at hk
    obtain ⟨r', hr', hpath⟩ := hi.queues.known k q _ hk hg
    obtain rfl := mem_unique hj hr'
    exact he hpath.symm

lemma does_release (ht : r.state.terminal = true) :
    Acts env strict pid (Mine pid r.key (Leaving strict r))
      (Task.ask (Call.release r.identity) : Prog (Except WhaleError Unit))
      (fun _ => Held pid r (Tidy strict r.key)) S := by
  have : Lasting strict pid r.key (Leaving strict r) := lasting_leaving ht
  refine .ask (fun s _ hs => ⟨r, ⟨hs.1.1, hs.2.1⟩, rfl, ht⟩) (fun s w s' reply hi hs ha hans => ?_)
  change answer pid env (.release r.identity) s w = some (s', reply) at hans
  rw [answer] at hans
  split at hans
  · rename_i e he
    cases hans
    refine ⟨hs.1, hs.2.1, fun hstrict _ => ?_⟩
    rcases hs.2.2 hstrict with ⟨q, hq, hg⟩ | hnot
    · obtain ⟨oq, hoq⟩ := released_holder hg
      rw [hq, hoq] at he
      cases he
    · exact hnot
  · rename_i oq hr
    rw [saveQueue] at hans
    cases hans
    split
    · exact ⟨hs.1, hs.2.1, fun _ _ => not_queued_released hi hs.2.1 hr⟩
    · rename_i hnot
      refine ⟨hs.1, hs.2.1, fun hstrict _ => ?_⟩
      rcases ha hstrict with hlanded | hq
      · exact absurd hlanded hnot
      · exact hq

lemma Mine.tidy (h : Mine pid g (Has g r (Tidy strict g)) s) : Calm strict pid g s := ⟨h.1, h.2.2⟩

lemma does_cleanup (ht : r.state.terminal = true) :
    Acts env strict pid (Mine pid r.key (Leaving strict r)) (cleanup r.identity)
      (fun _ => Held pid r (Tidy strict r.key))
      (Failed strict pid r) := by
  have : Lasting strict pid r.key (Leaving strict r) := lasting_leaving ht
  refine .bind does_quiet (fun reservation => ?_)
  refine .bind (does_release ht) (fun queue => ?_)
  refine .seq (does_settle (fun _ _ _ _ hs => hs.tidy) (fun _ _ _ hs => hs)) ?_
  exact .ofExcept (fun _ _ _ _ hs => hs) (fun _ _ _ hs => hs.tidy)

variable {payload bytes : List UInt8} {offset count : ℤ}

def Copied (pid : ℕ) (g : Str) (offset : ℤ) (bytes : List UInt8) (s : Store) : Prop :=
  s.copied g = some ⟨pid, offset, bytes⟩ ∧
    (s.content g).take (offset.toNat + bytes.length) = (s.content g).take offset.toNat ++ bytes

lemma Same.content (h : Same strict g s s') : s'.content g = s.content g := by
  rw [Store.content, Store.content, h.payload]

instance : Lasting strict pid g (Copied pid g offset bytes) := by
  refine ⟨fun s s' _ hm h => ?_⟩
  rw [Copied, hm.copied, hm.content]
  exact h

instance {n : ℕ} : Lasting strict pid g (fun s => (s.content g).length = n) :=
  ⟨fun s s' _ hm h => (congrArg length hm.content).trans h⟩

instance {n : ℤ} : Lasting strict pid g (fun s => ((s.content g).length : ℤ) = n) :=
  ⟨fun s s' _ hm h => (congrArg (fun c => (c.length : ℤ)) hm.content).trans h⟩

@[simp] lemma content_writePayload {content : List UInt8} : (s.writePayload g content).content g = content := by
  rw [Store.content, Store.writePayload]
  simp

lemma copied_copy (hlen : (s.content g).length = offset.toNat) : Copied pid g offset bytes (s.copy pid g offset bytes) := by
  have hcontent : (s.copy pid g offset bytes).content g = s.content g ++ bytes := by
    rw [content, copy, writePayload]
    simp [overwrite, ← hlen]
  refine ⟨update_self _ _ _, ?_⟩
  rw [hcontent, ← hlen, take_append_of_le_length le_rfl, take_length, ← length_append, take_length]

lemma live_of_receiving (h : r.state = .receiving) : r.state.terminal = false := by
  rw [h]
  rfl

lemma Mine.receiving (hstate : r.state = .receiving) (h : Mine pid g (Has g r F) s) :
    Receiving pid g r.bytesHave s :=
  ⟨r, ⟨h.1.1, h.2.1⟩, hstate, rfl⟩

section

variable (hstate : r.state = .receiving)
include hstate

lemma does_openPayload :
    Acts env strict pid (Mine pid g (Has g r (Engaged strict g))) (Task.ask (Call.openPayload g) : Prog (Option ℤ))
      (fun o => Mine pid g (Has g r (fun s => Engaged strict g s ∧ ∀ n, o = some n → ((s.content g).length : ℤ) = n))) S := by
  refine .ask (fun s _ hs => ⟨_, hs.receiving hstate⟩) (fun s w s' o _ hs _ hans => ?_)
  change answer pid env (.openPayload g) s w = some (s', o) at hans
  rw [answer] at hans
  split at hans
  · cases hans
    refine ⟨hs.1, hs.2.1, hs.2.2, fun n hn => ?_⟩
    rw [content_writePayload]
    exact some.inj hn
  · cases hans
    exact ⟨hs.1, hs.2.1, hs.2.2, fun n hn => by cases hn⟩

lemma does_clip (hle : r.bytesHave ≤ size) :
    Acts env strict pid
      (Mine pid g (Has g r (fun s => Engaged strict g s ∧ ((s.content g).length : ℤ) = size)))
      (Task.onlyIf (r.bytesHave < size) (do settle (← Task.ask (Call.truncate g r.bytesHave))))
      (fun _ => Mine pid g (Has g r (fun s => Engaged strict g s ∧ (s.content g).length = r.bytesHave.toNat)))
      (fun _ => Calm strict pid g) := by
  refine .onlyIf (fun _ => ?_) (fun hb s _ hs => ?_)
  · refine .bind (Q := fun b => Mine pid g (Has g r (fun s => Engaged strict g s ∧
        (b = true → (s.content g).length = r.bytesHave.toNat)))) (.ask (fun s _ hs => hs.receiving hstate) (fun s w s' b _ hs _ hans => ?_))
      (fun b => does_settle (fun _ => fails (live_of_receiving hstate))
        (fun hb s _ hs => ⟨hs.1, hs.2.1, hs.2.2.1, hs.2.2.2 hb⟩))
    cases hans
    split
    · refine ⟨hs.1, hs.2.1, hs.2.2.1, fun _ => ?_⟩
      have hlen : ((s.content g).length : ℤ) = size := hs.2.2.2
      rw [content_writePayload, length_take]
      omega
    · rename_i hok
      exact ⟨hs.1, hs.2.1, hs.2.2.1, fun hb => absurd hb hok⟩
  · have hlen : ((s.content g).length : ℤ) = size := hs.2.2.2
    have hge : ¬ r.bytesHave < size := by simpa using hb
    exact ⟨hs.1, hs.2.1, hs.2.2.1, by omega⟩

lemma does_copy : Acts env strict pid
      (Mine pid g (Has g r (fun s => Engaged strict g s ∧ (s.content g).length = r.bytesHave.toNat)))
      (Task.ask (Call.copy g r.bytesHave bytes) : Prog Bool)
      (fun b => Mine pid g (Has g r (fun s => Engaged strict g s ∧ (b = true → Copied pid g r.bytesHave bytes s)))) S := by
  refine .ask (fun s _ hs => ⟨hs.receiving hstate, hs.2.2.2⟩) (fun s w s' b _ hs _ hans => ?_)
  cases w with
  | done =>
    cases hans
    exact ⟨hs.1, hs.2.1, hs.2.2.1, fun _ => copied_copy hs.2.2.2⟩
  | _ =>
    cases hans
    exact ⟨hs.1, hs.2.1, hs.2.2.1, nofun⟩

lemma does_appendWindow :
    Acts env strict pid (Mine pid g (Has g r (Engaged strict g))) (appendWindow g r.bytesHave count payload)
      (fun _ s => Mine pid g (Has g r (fun s => Engaged strict g s ∧ Copied pid g r.bytesHave (payload.take count.toNat) s)) s ∧
        count ≤ payload.length)
      (fun _ => Calm strict pid g) := by
  have hlive := live_of_receiving hstate
  refine .bind (does_openPayload hstate) (fun o => ?_)
  refine .bind (Q := fun n => Mine pid g (Has g r (fun s => Engaged strict g s ∧ ((s.content g).length : ℤ) = n)))
    (does_expect (fails hlive)
      (fun n s ho _ hs => ⟨hs.1, hs.2.1, hs.2.2.1, hs.2.2.2 n ho⟩)) (fun size => ?_)
  refine .except (fails hlive) (fun _ hle => ?_)
  rw [require_ok, decide_eq_true_eq] at hle
  refine .seq (does_clip hstate hle) ?_
  refine .bind (does_copy hstate) (fun b => ?_)
  refine .seq (Q := Mine pid g (Has g r (fun s => Engaged strict g s ∧
      Copied pid g r.bytesHave (payload.take count.toNat) s)))
    (does_settle (fun _ => fails hlive)
      (fun hb s _ hs => ⟨hs.1, hs.2.1, hs.2.2.1, hs.2.2.2 hb⟩)) ?_
  refine .except (fails hlive) (fun _ hcount => ?_)
  rw [require_ok, decide_eq_true_eq] at hcount
  refine .bind does_quiet (fun b => ?_)
  exact does_settle (fun _ => fails hlive) (fun _ s _ hs => ⟨hs, hcount⟩)

end

variable {st : State}

lemma follows_state (hi : Inv env strict s) (hj : s.journal r.key = some r)
    (hr : r.state = .receiving ∨ r.state = .validating) (hst : st ≠ .published)
    (hm : st = .committing → Matches env r.identity (s.payload r.key))
    (hcheck : checkAdvance r { r with state := st } = .ok ()) (hvalid : validateRecord { r with state := st } = .ok ()) :
    Follows env strict s r { r with state := st } := by
  refine ⟨?_, hcheck, hvalid, fun hlt => absurd hlt (lt_irrefl _), hm, fun hp => absurd hp hst, fun hc => ?_,
    fun hb => hi.publications.base _ r hj hb, fun _ => rfl, fun hs hb => hi.queues.engaged hs _ r hj hb⟩
  · rcases hr with hr | hr <;> rw [hr] <;> rfl
  · rcases hr with hr | hr <;> rw [hr] at hc <;> cases hc

lemma live_of_validating (hr : r.state = .receiving ∨ r.state = .validating) : r.state.terminal = false := by
  rcases hr with hr | hr <;> rw [hr] <;> rfl

abbrev Owned (pid : ℕ) (r : Record) : Store → Prop :=
  Mine pid r.identity.generationID (Has r.identity.generationID r (fun _ => True))

lemma owned_write (h : Owned pid r s) : Owned pid { r with state := st } (s.write { r with state := st }) :=
  ⟨h.1, journal_write_self, trivial⟩

lemma does_beginValidation (hr : r.state = .receiving ∨ r.state = .validating) :
    Acts env strict pid (Owned pid r) (beginValidation r)
      (fun r' s => Owned pid { r with state := .validating } s ∧ r' = { r with state := .validating })
      (Failed strict pid r) := by
  rw [beginValidation]
  split
  · refine .seq (does_save r _ rfl (live_of_validating hr) (fun s hi hs => ?_)
      (fun s _ hs _ => owned_write hs)) (.pure (fun s _ hs => ⟨hs, rfl⟩))
    exact follows_state hi hs.2.1 hr nofun nofun
  · rename_i hne
    have hv : r.state = .validating := hr.resolve_left hne
    have heq : { r with state := .validating } = r := by rw [← hv]
    rw [heq]
    exact .pure (fun s _ hs => ⟨hs, rfl⟩)

instance {content : Option (List UInt8)} : Lasting strict pid g (fun s => s.payload g = content) :=
  ⟨fun s s' _ hm h => hm.payload.trans h⟩

lemma does_readPayload :
    Acts env strict pid (Owned pid r) (Task.ask (Call.readPayload r.key) : Prog (Option (List UInt8)))
      (fun o => Mine pid r.key (Has r.key r
        (fun s => ∀ c, o = some c → s.payload r.key = some c))) S := by
  refine .ask (fun _ _ _ => trivial) (fun s w s' o _ hs _ hans => ?_)
  cases hans
  refine ⟨hs.1, hs.2.1, fun c hc => ?_⟩
  split at hc
  · exact hc
  · cases hc

lemma does_reject (hr : r.state = .validating) (hb : 0 < r.bytesHave) :
    Acts env strict pid (Owned pid r)
      (do
        save { r with state := .rejected }
        let _ ← Task.ask (Call.unreserve r.key)
        let _ ← Task.ask (Call.release r.identity)
        Task.fail .digestMismatch : Prog Record)
      (fun _ _ => False) (Failed strict pid r) := by
  have hlive := live_of_validating (.inr hr)
  have : Lasting strict pid r.key (Leaving strict { r with state := .rejected }) :=
    lasting_leaving (r := { r with state := .rejected }) rfl
  refine .seq (Q := Mine pid r.key (Leaving strict { r with state := .rejected }))
    (does_save r _ rfl hlive (fun s hi hs => ?_) (fun s hi hs _ => ?_)) ?_
  · exact follows_state hi hs.2.1 (.inr hr) nofun nofun
  · refine ⟨hs.1, journal_write_self, fun hstrict => .inl ?_⟩
    have hholds : s.holds r.key r.identity.path :=
      holds_path hi hs.2.1 hlive (hi.queues.engaged hstrict _ r hs.2.1 hb)
    exact hholds
  · refine .seq does_quiet ?_
    refine .seq (does_release (r := { r with state := .rejected }) rfl) ?_
    exact .fail (fun s _ hs => hs.tidy)

lemma does_prepareCommit (hr : r.state = .receiving ∨ r.state = .validating) (hb : 0 < r.bytesHave) :
    Acts env strict pid (Owned pid r) (prepareCommit env r)
      (fun r' s => Owned pid { r with state := .committing } s ∧ r' = { r with state := .committing })
      (Failed strict pid r) := by
  refine .bind (does_beginValidation hr) (fun r' => ?_)
  refine .given (fun hr' => ?_)
  subst hr'
  refine does_expecting (r := { r with state := .validating }) rfl does_readPayload (fun content => ?_)
  split
  · refine .conseq (does_reject (r := { r with state := .validating }) rfl hb) (fun s _ hs => ⟨hs.1, hs.2.1, trivial⟩)
      (fun _ _ _ hq => hq.elim)
  · rename_i hmatch
    simp only [not_or, not_not] at hmatch
    refine .seq (does_save { r with state := .validating } _ rfl rfl (fun s hi hs => ?_)
      (fun s _ hs _ => ⟨hs.1, journal_write_self, trivial⟩)) (.pure (fun s _ hs => ⟨hs, rfl⟩))
    exact follows_state hi hs.2.1 (.inr rfl) nofun (fun _ => ⟨content, hs.2.2, hmatch.1, hmatch.2⟩)

variable {path : Str}

abbrev Found (pid : ℕ) (r : Record) (path : Str) (n : ℤ) : Store → Prop :=
  Mine pid r.identity.generationID (Has r.identity.generationID r (fun s => s.carries r.identity.generationID path n))

abbrev Absent (pid : ℕ) (r : Record) (path : Str) : Store → Prop :=
  Mine pid r.identity.generationID (Has r.identity.generationID r (fun s => ∀ n, ¬ s.carries r.identity.generationID path n))

instance {n : ℤ} : Lasting strict pid g (fun s => ¬ s.carries g path n) :=
  ⟨fun _ _ _ hm h hn => h (hm.carries path n hn)⟩

lemma live_of_committing (hr : r.state = .committing) : r.state.terminal = false := by
  rw [hr]
  rfl

lemma does_youngest {K : ℤ → Store → Prop} [∀ n, Lasting strict pid r.key (K n)]
    (hK : ∀ s, K (s.repository path).revisions.length s) :
    Acts env strict pid (Owned pid r) (Task.ask (Call.youngest path) : Prog (Option ℤ))
      (fun o => Held pid r (fun s => ∀ n, o = some n → K n s)) S := by
  refine .ask (fun _ _ _ => trivial) (fun s w s' o _ hs _ hans => ?_)
  cases hans
  refine ⟨hs.1, hs.2.1, fun n hn => ?_⟩
  split at hn
  · exact some.inj hn ▸ hK s
  · cases hn

instance {n : ℤ} : Lasting strict pid g (fun s => n ≤ (s.repository path).revisions.length) := by
  refine ⟨fun s s' hr _ h => ?_⟩
  have hlen := (hr.revisions path).length_le
  omega

lemma follows_base {base : ℤ} (hi : Inv env strict s) (hj : s.journal r.key = some r)
    (hr : r.state = .committing) (hb : base ≤ (s.repository (r.repositoryPath env)).revisions.length)
    (hcheck : checkAdvance r (r.based base) = .ok ())
    (hvalid : validateRecord (r.based base) = .ok ()) :
    Follows env strict s r (r.based base) := by
  refine ⟨live_of_committing hr, hcheck, hvalid, fun hlt => absurd hlt (lt_irrefl _),
    fun _ => hi.uploads.checked _ r hj (.inl hr), fun hp => ?_, fun _ => .inl hr, fun _ => hb, fun _ => rfl,
    fun hs hb => hi.queues.engaged hs _ r hj hb⟩
  have hp' : r.state = .published := hp
  rw [hr] at hp'
  cases hp'

structure Based (r r' : Record) : Prop where
  identity : r'.identity = r.identity
  state : r'.state = .committing
  known : r'.commitBaseKnown = true

lemma failed_congr {e : WhaleError} (hid : r'.identity = r.identity)
    (h : Failed strict pid r' e s) : Failed strict pid r e s := by
  change Calm strict pid r.key s
  rw [Record.key, ← hid]
  exact h

lemma does_recordBase (hr : r.state = .committing) (hpath : path = r.repositoryPath env) :
    Acts env strict pid (Owned pid r) (recordBase path r) (fun r' s => Owned pid r' s ∧ Based r r') (Failed strict pid r) := by
  rw [recordBase]
  split
  · rename_i hk
    exact .pure (fun s _ hs => ⟨hs, rfl, hr, hk⟩)
  · have hlive := live_of_committing hr
    refine does_expecting hlive (does_youngest (K := fun n s => n ≤ (s.repository path).revisions.length)
      (fun _ => le_rfl)) (fun base => ?_)
    refine .seq (Q := Owned pid (r.based base))
      (does_save r _ rfl hlive (fun s hi hs => ?_) (fun s _ hs _ => ⟨hs.1, journal_write_self, trivial⟩)) (.pure (fun s _ hs => ⟨hs, rfl, hr, rfl⟩))
    exact follows_base hi hs.2.1 hr (hpath ▸ hs.2.2)

variable {last n : ℤ} {done : List ℤ}

lemma mem_revisionsFrom {first : ℤ} : n ∈ revisionsFrom first last ↔ first ≤ n ∧ n ≤ last := by
  rw [revisionsFrom, List.mem_map]
  refine ⟨fun ⟨i, hi, hn⟩ => ?_, fun ⟨hfirst, hlast⟩ => ⟨(n - first).toNat, ?_, ?_⟩⟩
  · rw [mem_range] at hi
    omega
  · rw [mem_range]
    omega
  · omega

def Searching (g path : Str) (last : ℤ) (done : List ℤ) (s : Store) : Prop :=
  (∀ n, s.carries g path n → n ≤ last) ∧ ∀ n ∈ done, ¬ s.carries g path n

instance : Lasting strict pid g (Searching g path last done) :=
  ⟨fun _ _ _ hm h => ⟨fun n hn => h.1 n (hm.carries path n hn), fun n hd hn => h.2 n hd (hm.carries path n hn)⟩⟩

instance {v : Prop} : Lasting strict pid g (fun s => s.carries g path n ↔ v) :=
  ⟨fun s s' hr hm h => ⟨fun hc => h.mp (hm.carries path n hc), fun hv => carries_mono (hr.revisions path) (h.mpr hv)⟩⟩

lemma carries_le_length (h : s.carries g path n) : n ≤ (s.repository path).revisions.length := by
  obtain ⟨_, v, hv, _⟩ := carries_iff.mp h
  obtain ⟨hlt, _⟩ := List.getElem?_eq_some_iff.mp hv
  omega

lemma does_findIn (hlive : r.state.terminal = false) : Acts env strict pid
      (Held pid r (Searching r.key path last done))
      (findIn path r.key n)
      (Finding (Found pid r path) (Mine pid r.key (Has r.key r
        (Searching r.key path last (done ++ [n]))))) (Failed strict pid r) := by
  refine does_expecting (K := fun v s => Searching r.key path last done s ∧ (s.carries r.key path n ↔ v = some r.key)) hlive
    (.ask (fun _ _ _ => trivial) (fun s w s' o _ hs _ hans => ?_)) (fun v => ?_)
  · cases hans
    refine ⟨hs.1, hs.2.1, fun v hv => ⟨hs.2.2, ?_⟩⟩
    split at hv
    · rw [carries, hv, some.injEq]
    · cases hv
  · refine .pure (fun s _ hs => ?_)
    by_cases hv : v = some r.key
    · rw [if_pos hv]
      exact ⟨hs.1, hs.2.1, hs.2.2.2.mpr hv⟩
    · rw [if_neg hv]
      refine ⟨hs.1, hs.2.1, hs.2.2.1.1, fun m hm hc => ?_⟩
      rcases List.mem_append.mp hm with hm | hm
      · exact hs.2.2.1.2 m hm hc
      · rw [mem_singleton] at hm
        subst hm
        exact hv (hs.2.2.2.mp hc)

lemma does_findGeneration (hlive : r.state.terminal = false) : Acts env strict pid (Owned pid r)
      (findGeneration path (r.commitBaseRevision + 1) r.key)
      (Finding (Found pid r path) (Absent pid r path)) (Failed strict pid r) := by
  refine does_expecting hlive (does_youngest (K := fun last => Searching r.key path last [])
    (fun _ => ⟨fun _ hn => carries_le_length hn, nofun⟩)) (fun last => ?_)
  refine .post (.search (P := fun done => Held pid r (Searching r.key path last done)) (Q := Found pid r path)
    (fun done n rest _ => does_findIn hlive)) (fun o s hi hs => ?_)
  cases o with
  | some n => exact hs
  | none =>
    refine ⟨hs.1, hs.2.1, fun n hn => ?_⟩
    obtain ⟨r', hr', _, _, hlt, _⟩ := Inv.publications hi |>.carried path _ n hn
    obtain rfl := mem_unique hs.2.1 hr'
    have hle : n ≤ last := hs.2.2.1 n hn
    exact hs.2.2.2 n (mem_revisionsFrom.mpr ⟨by omega, hle⟩) hn

variable {t : ℕ} {f : Repository → Repository}

lemma absent_onRepository (hf : ∀ r, (f r).revisions = r.revisions) {path' : Str} (h : Absent pid r path s) :
    Absent pid r path (s.onRepository path' f) := by
  refine ⟨h.1, h.2.1, fun n hn => h.2.2 n ?_⟩
  exact (carries_congr (revisions_onRepository hf path)).mp hn

lemma does_removeIfAbandoned (hlive : r.state.terminal = false) :
    Acts env strict pid (Absent pid r path) (removeIfAbandoned path r.key t)
      (fun _ => Absent pid r path) (Failed strict pid r) := by
  refine .bind does_quiet (fun o => ?_)
  cases o with
  | some v =>
    refine .onlyIf (fun _ => ?_) (fun _ s _ hs => hs)
    refine .bind (Q := fun _ => Absent pid r path) (.ask (fun _ _ _ => trivial)
      (fun s w s' b _ hs _ hans => ?_))
      (fun b => does_settle (fun _ => fails hlive) (fun _ s _ hs => hs))
    cases hans
    split
    · exact absent_onRepository (f := Repository.remove t) (fun _ => rfl) hs
    · exact hs
  | none =>
    refine .bind does_quiet (fun names => ?_)
    refine .bind (does_expectAny (fails hlive)) (fun names => ?_)
    split
    · exact .fail (fun s _ hs => hs.fails hlive)
    · exact .pure (fun s _ hs => hs)

lemma does_removeAbandoned (hlive : r.state.terminal = false) :
    Acts env strict pid (Absent pid r path) (removeAbandonedGenerationTransactions path r.key)
      (fun _ => Absent pid r path) (Failed strict pid r) := by
  refine .bind does_quiet (fun o => ?_)
  refine .bind (does_expectAny (fails hlive)) (fun names => ?_)
  exact .each (fun t _ => does_removeIfAbandoned hlive)

section

variable (hr : r.state = .committing) (hk : r.commitBaseKnown = true) (hpath : path = r.repositoryPath env)
include hr hk hpath

lemma Mine.ready
    (h : Absent pid r path s) : Ready env pid path r.key s :=
  ⟨r, ⟨h.1.1, h.2.1⟩, hr, hk, hpath, h.2.2⟩

lemma does_commitGeneration :
    Acts env strict pid (Absent pid r path) (commitGeneration path r) (Found pid r path) (Failed strict pid r) := by
  have hlive := live_of_committing hr
  refine .seq (does_removeAbandoned hlive) ?_
  refine .bind does_quiet (fun o => ?_)
  refine .bind (does_expectAny (fails hlive)) (fun existing => ?_)
  refine .bind (Q := fun _ => Absent pid r path) (.ask (fun s _ hs => hs.ready hr hk hpath)
      (fun s w s' t _ hs _ hans => ?_)) (fun o => ?_)
  · change answer pid env (.beginPut path r.key) s w = some (s', t) at hans
    rw [answer] at hans
    split at hans
    · cases hans
      exact absent_onRepository (f := Repository.begin _) (fun _ => rfl) hs
    · cases hans
      exact hs
  · refine .bind (does_expectAny (fails hlive)) (fun t => ?_)
    refine .bind (Q := fun _ => Owned pid r) (.ask
      (fun s _ hs => ⟨hs.ready hr hk hpath, r, hs.2.1, rfl⟩) (fun s w s' b _ hs _ hans => ?_)) (fun b => ?_)
    · change answer pid env (.commitPut path t r.identity _) s w = some (s', b) at hans
      rw [answer] at hans
      split at hans
      · cases hans
        exact ⟨hs.1, hs.2.1, trivial⟩
      · cases hans
        exact ⟨hs.1, hs.2.1, trivial⟩
    · refine .seq (does_settle (Q := Owned pid r) (fun _ => fails hlive) (fun _ s _ hs => hs))
        ?_
      refine .bind (does_findGeneration hlive) (fun o => ?_)
      cases o with
      | some n => exact .pure (fun s _ hs => hs)
      | none => exact .fail (fun s _ hs => hs.fails hlive)

lemma does_findOrCommit :
    Acts env strict pid (Owned pid r) (findOrCommit path r) (Found pid r path) (Failed strict pid r) := by
  refine .bind (does_findGeneration (live_of_committing hr)) (fun o => ?_)
  cases o with
  | some n => exact .pure (fun s _ hs => hs)
  | none => exact does_commitGeneration hr hk hpath

end

lemma does_publishWhale (hpath : path = r.repositoryPath env) (hlive : r.state.terminal = false) :
    Acts env strict pid (Owned pid r) (publishWhale path r)
      (fun a s => Found pid a.1 path a.2 s ∧ Based r a.1) (Failed strict pid r) := by
  refine .except (fails hlive) (fun _ hr => ?_)
  rw [require_ok, decide_eq_true_eq] at hr
  refine .bind (does_recordBase hr hpath) (fun r' => ?_)
  refine .given (fun hb => ?_)
  have hpath' : path = r'.repositoryPath env := by rw [hpath, Record.repositoryPath, Record.repositoryPath, hb.identity]
  refine .bind ((does_findOrCommit hb.state hb.known hpath').fails (fun _ s _ hs => failed_congr hb.identity hs)) (fun n => ?_)
  exact .pure (fun s _ hs => ⟨hs, hb⟩)

variable {client : Str}

lemma live_of_not_terminal (h : ¬ r.state.terminal = true) : r.state.terminal = false := by simpa using h

lemma size_pos (hi : Inv env strict s) (hj : s.journal g = some r) : 1 ≤ r.identity.expectedSize := by
  obtain ⟨hv, _⟩ := hi.uploads.valid g r hj
  obtain ⟨_, _, _, hoffset, _⟩ := bind₂_ok.mp hv
  obtain ⟨_, hsize, _⟩ := bind_ok.mp hoffset
  simp only [require_ok, Bool.and_eq_true, decide_eq_true_eq] at hsize
  exact hsize.1

lemma bytes_of_committing (hi : Inv env strict s) (hj : s.journal g = some r) (hr : r.state = .committing) : 0 < r.bytesHave := by
  obtain ⟨hv, _, hd⟩ := hi.uploads.valid g r hj
  have hpos := size_pos hi hj
  obtain ⟨_, _, _, _, hv⟩ := bind₂_ok.mp hv
  obtain ⟨_, _, _, hneeds, _⟩ := bind₂_ok.mp hv
  simp [require_ok, hd, hr, needsAllBytes] at hneeds
  omega

lemma does_committable (hlive : r.state.terminal = false) :
    Acts env strict pid (Owned pid r) (committable env r)
      (fun r' s => Owned pid r' s ∧ r'.identity = r.identity ∧ r'.state.terminal = false) (Failed strict pid r) := by
  rw [committable]
  split
  · rename_i hr
    refine .except (fails hlive) (fun _ hb => ?_)
    rw [require_ok, decide_eq_true_eq] at hb
    refine .assume (fun s hi hs => size_pos hi hs.2.1) (fun hpos => ?_)
    refine .post (does_prepareCommit hr (by omega)) (fun r' s _ hs => ?_)
    obtain ⟨hs, rfl⟩ := hs
    exact ⟨hs, rfl, rfl⟩
  · exact .pure (fun s _ hs => ⟨hs, rfl, hlive⟩)

variable {c : Call} {w : Fate} {reply : Reply c} {v : Window}

lemma follows_published (hi : Inv env strict s) (hj : s.journal r.key = some r)
    (hr : r.state = .committing) (hc : s.carries r.key (r.repositoryPath env) n)
    (hcheck : checkAdvance r (r.published n) = .ok ())
    (hvalid : validateRecord (r.published n) = .ok ()) :
    Follows env strict s r (r.published n) :=
  ⟨live_of_committing hr, hcheck, hvalid, fun hlt => absurd hlt (lt_irrefl _), nofun, fun _ => ⟨hr, hc⟩,
    fun _ => .inr rfl, fun hb => hi.publications.base _ r hj hb, fun hp => absurd rfl hp,
    fun hs hb => hi.queues.engaged hs _ r hj hb⟩

lemma does_finish (hr : r.state = .committing) (hpath : path = r.repositoryPath env) :
    Acts env strict pid (Found pid r path n)
      (do
        save (r.published n)
        cleanup r.identity
        pure (result (r.published n)) : Prog PutResult)
      (fun a s => Calm strict pid r.key s ∧
        s.carries r.key path a.revision) (Failed strict pid r) := by
  have hlive := live_of_committing hr
  have : Lasting strict pid r.key (Leaving strict (r.published n)) :=
    lasting_leaving (r := r.published n) rfl
  refine .seq (Q := Mine pid r.key (Leaving strict (r.published n)))
    (does_save r _ rfl hlive (fun s hi hs => ?_) (fun s hi hs _ => ?_)) ?_
  · exact follows_published hi hs.2.1 hr (hpath ▸ hs.2.2)
  · refine ⟨hs.1, journal_write_self, fun hstrict => .inl ?_⟩
    have hholds : s.holds r.key r.identity.path :=
      holds_path hi hs.2.1 hlive (hi.queues.engaged hstrict _ r hs.2.1 (bytes_of_committing hi hs.2.1 hr))
    exact hholds
  · refine .seq (does_cleanup (r := r.published n) rfl) ?_
    refine .pure (fun s hi hs => ⟨hs.tidy, ?_⟩)
    rw [hpath]
    exact hi.publications.published _ _ hs.2.1 rfl

lemma does_publish (hlive : r.state.terminal = false) (hpath : path = r.repositoryPath env) :
    Acts env strict pid (Owned pid r) (publish env path r)
      (fun a s => Calm strict pid r.key s ∧
        s.carries r.key path a.revision) (Failed strict pid r) := by
  refine .seq (does_reserve (fails hlive)) ?_
  refine .seq (does_loadOnly (fails hlive)) ?_
  refine .bind (does_committable hlive) (fun r' => ?_)
  refine .given (fun ⟨hid, hlive'⟩ => ?_)
  refine .except (fun _ s _ hs => failed_congr hid (hs.fails hlive')) (fun _ hr => ?_)
  rw [require_ok, decide_eq_true_eq] at hr
  have hpath' : path = r'.repositoryPath env := by rw [hpath, Record.repositoryPath, Record.repositoryPath, hid]
  refine .bind ((does_publishWhale hpath' hlive').fails (fun _ s _ hs => failed_congr hid hs)) (fun a => ?_)
  obtain ⟨r'', n⟩ := a
  refine .given (fun hb => ?_)
  have hid' : r''.identity = r.identity := hb.identity.trans hid
  have hpath'' : path = r''.repositoryPath env := by rw [hpath, Record.repositoryPath, Record.repositoryPath, hid']
  refine .post ((does_finish hb.state hpath'').fails (fun _ s _ hs => failed_congr hid' hs))
    (fun a s _ hs => ?_)
  simp only [Record.key, hid'] at hs
  exact hs

lemma does_authorize {write : Bool} {repo : Str} [Lasts (rules env strict) pid P]
    (hS : ∀ e s, Inv env strict s → P s → S e s) :
    Acts env strict pid P (authorize client repo write) (fun path s => P s ∧ path = env.repositoryPath repo) S := by
  refine .bind (Q := fun (o : Option RepositoryAccess) s => P s ∧ ∀ a, o = some a →
      a.repositoryPath = env.repositoryPath repo)
    (.ask (fun _ _ _ => trivial) (fun s w s' o _ hs _ hans => ?_)) (fun o => ?_)
  · cases w with
    | done =>
      cases hans
      exact ⟨hs, fun a ha => by cases ha; rfl⟩
    | readOnly =>
      cases hans
      exact ⟨hs, fun a ha => by cases ha; rfl⟩
    | _ =>
      cases hans
      exact ⟨hs, nofun⟩
  · cases o with
    | none => exact .fail (fun s hi hs => hS _ s hi hs.1)
    | some access =>
      dsimp only
      split
      · exact .fail (fun s hi hs => hS _ s hi hs.1)
      · exact .pure (fun s _ hs => ⟨hs.1, hs.2 access rfl⟩)

lemma does_commitLocked : Acts env strict pid (Calm strict pid i.generationID)
    (commitLocked env client i)
    (fun a s => Calm strict pid i.generationID s ∧
      s.carries i.generationID (env.repositoryPath i.logicalRepoID) a.revision)
    (fun _ => Calm strict pid i.generationID) := by
  refine .bind (does_authorize (fun _ _ _ hs => hs)) (fun path => ?_)
  refine .given (fun hpath => ?_)
  refine .bind (does_requireRecord (fun _ _ _ hs => hs)) (fun r => ?_)
  refine .given (fun hid => ?_)
  subst hid
  split
  · rename_i hr
    have ht : r.state.terminal = true := by rw [hr]; rfl
    refine .pre (P := Mine pid r.key (Leaving strict r)) ?_
      (fun s _ hs => ⟨hs.1, hs.2.1, fun hstrict => .inr (hs.2.2 hstrict ⟨r, hs.2.1, ht⟩)⟩)
    refine .seq (does_cleanup ht) (.pure (fun s hi hs => ⟨hs.tidy, ?_⟩))
    exact hi.publications.published _ r hs.2.1 hr
  · split
    · exact .fail (fun s _ hs => hs.tidy)
    · rename_i hnot
      refine .conseq (does_publish (live_of_not_terminal hnot) hpath) (fun s _ hs => ⟨hs.1, hs.2.1, trivial⟩)
        (fun a s _ hs => ?_)
      rw [hpath] at hs
      exact hs

lemma answer_history (h : answer pid env c s w = some (s', reply)) :
    (s'.copied = s.copied ∧ s'.recorded = s.recorded) ∨ (∃ r, s' = s.write r) ∨
      ∃ g offset bytes, c = .copy g offset bytes ∧ s' = s.copy pid g offset bytes := by
  cases c with
  | createRecord r =>
    rcases answer_createRecord h with ⟨rfl, _⟩ | ⟨_, rfl⟩
    · exact .inl ⟨rfl, rfl⟩
    · exact .inr (.inl ⟨r, rfl⟩)
  | writeRecord r =>
    rw [answer] at h
    cases h
    split
    · exact .inr (.inl ⟨r, rfl⟩)
    · exact .inl ⟨rfl, rfl⟩
  | copy g offset bytes =>
    cases w with
    | done =>
      cases h
      exact .inr (.inr ⟨g, offset, bytes, rfl, rfl⟩)
    | _ =>
      cases h
      exact .inl ⟨rfl, rfl⟩
  | resolve client repo => cases w <;> cases h <;> exact .inl ⟨rfl, rfl⟩
  | claim i =>
    rw [answer, saveQueue] at h
    cases h
    split <;> exact .inl ⟨rfl, rfl⟩
  | release i =>
    rw [answer] at h
    split at h
    · cases h
      exact .inl ⟨rfl, rfl⟩
    · rw [saveQueue] at h
      cases h
      split <;> exact .inl ⟨rfl, rfl⟩
  | reserve g size => cases w <;> cases h <;> exact .inl ⟨rfl, rfl⟩
  | lock g =>
    change (world env).answer pid (.lock g) s w = some (s', reply) at h
    rcases answer_lock h with ⟨rfl, _⟩ | ⟨_, rfl, _⟩ <;> exact .inl ⟨rfl, rfl⟩
  | openPayload g =>
    rw [answer] at h
    split at h <;> cases h <;> exact .inl ⟨rfl, rfl⟩
  | truncate g size =>
    rw [answer] at h
    cases h
    split <;> exact .inl ⟨rfl, rfl⟩
  | removeTransaction path t =>
    rw [answer] at h
    cases h
    split <;> exact .inl ⟨rfl, rfl⟩
  | beginPut path g =>
    rw [answer] at h
    split at h <;> cases h <;> exact .inl ⟨rfl, rfl⟩
  | commitPut path t i mkdirs =>
    rw [answer] at h
    split at h <;> cases h <;> exact .inl ⟨rfl, rfl⟩
  | _ =>
    cases h
    exact .inl ⟨rfl, rfl⟩

lemma recorded_answer (h : answer pid env c s w = some (s', reply)) (g : Str) :
    s.recorded g <+: s'.recorded g := by
  rcases answer_history h with ⟨_, hrecorded⟩ | ⟨r, rfl⟩ | ⟨g', offset, bytes, _, rfl⟩
  · rw [hrecorded]
  · rw [recorded_write]
    split
    · exact List.prefix_append _ _
    · exact prefix_refl _
  · exact prefix_refl _

instance {v : Window} : Lasts (rules env strict) pid (fun s => v ∈ s.recorded g) :=
  ⟨fun _ _ hr _ hv => (Rely.recorded hr g).subset hv⟩

instance {path : Str} {n : ℤ} : Lasts (rules env strict) pid (fun s => s.carries g path n) :=
  ⟨fun _ _ hr _ h => carries_mono (Rely.revisions hr _) h⟩

lemma persistent_recorded : Persistent (rules env strict) (fun s => v ∈ s.recorded g) :=
  ⟨fun _ _ _ hr _ hv => (Rely.recorded hr g).subset hv, fun _ _ _ _ _ _ hw hv => (recorded_answer hw g).subset hv⟩

lemma follows_window (hi : Inv env strict s) (hr : r.state = .receiving) (hcount : 1 ≤ count) (hle : count ≤ payload.length)
    (hs : Held pid r (fun s => Engaged strict r.key s ∧
      Copied pid r.key r.bytesHave (payload.take count.toNat) s) s)
    (hcheck : checkAdvance r (r.advanced count) = .ok ())
    (hvalid : validateRecord (r.advanced count) = .ok ()) :
    Follows env strict s r (r.advanced count) := by
  obtain ⟨_, hj, he, hcopied, hcontent⟩ := hs
  have hlen : (payload.take count.toNat).length = count.toNat := by
    rw [length_take]
    omega
  have hnonneg : 0 ≤ r.bytesHave := by
    rw [(hi.uploads.counted _ r hj).1]
    exact Int.natCast_nonneg _
  refine ⟨live_of_receiving hr, hcheck, hvalid, fun _ => ⟨hr, _, hcopied, rfl, ?_, ?_⟩, fun hc => ?_, fun hp => ?_,
    fun hc => ?_, fun hb => hi.publications.base _ r hj hb, fun _ => rfl, fun hs _ => he hs⟩
  · change r.bytesHave + count = r.bytesHave + ((payload.take count.toNat).length : ℤ)
    omega
  · have hnat : (r.bytesHave + count).toNat = r.bytesHave.toNat + (payload.take count.toNat).length := by omega
    change (s.content r.key).take (r.bytesHave + count).toNat = _
    rw [hnat]
    exact hcontent
  · have hc' : r.state = .committing := hc
    rw [hr] at hc'
    cases hc'
  · have hp' : r.state = .published := hp
    rw [hr] at hp'
    cases hp'
  · rw [hr] at hc
    cases hc

lemma mem_recorded_write (hj : s.journal r.key = some r) (hcount : 1 ≤ count)
    (hv : s.copied r.key = some v) :
    v ∈ (s.write (r.advanced count)).recorded r.key := by
  have hlt : r.bytesHave < r.bytesHave + count := by omega
  rw [recorded_write, if_pos rfl, counted_of_lt (r := r.advanced count) hj hv hlt]
  simp

variable {request : Request}

def Request.brings (pid : ℕ) (request : Request) (payload : List UInt8) : Window :=
  ⟨pid, request.offset, payload.take request.payloadSize.toNat⟩

lemma does_receive (hcount : 1 ≤ request.payloadSize) : Acts env strict pid
      (fun s => Calm strict pid request.identity.generationID s ∧
        Engaged strict request.identity.generationID s)
      (receive env request payload)
      (fun _ s => Calm strict pid request.identity.generationID s ∧
        request.brings pid payload ∈ s.recorded request.identity.generationID)
      (fun _ => Calm strict pid request.identity.generationID) := by
  refine .pre (P := Mine pid request.identity.generationID (fun s => Tidy strict request.identity.generationID s ∧
    Engaged strict request.identity.generationID s)) ?_ (fun s _ hs => ⟨hs.1.1, hs.1.2, hs.2⟩)
  refine .bind (does_requireRecord (fun _ s _ hs => ⟨hs.1, hs.2.1⟩)) (fun r => ?_)
  refine .given (fun hid => ?_)
  rw [← hid]
  refine .except (fun _ s _ hs => ⟨hs.1, hs.2.2.1⟩) (fun _ hr => ?_)
  simp only [require_ok, Bool.and_eq_true, decide_eq_true_eq] at hr
  obtain ⟨hr, hoffset⟩ := hr
  have hlive := live_of_receiving hr
  refine .pre (P := Held pid r (Engaged strict r.key))
    ?_ (fun s _ hs => ⟨hs.1, hs.2.1, hs.2.2.2⟩)
  refine .seq (does_reserve (fails hlive)) ?_
  refine .bind does_quiet (fun b => ?_)
  refine .seq (does_settle (fun _ => fails hlive) (fun _ s _ hs => hs)) ?_
  refine .seq (does_loadOnly (fails hlive)) ?_
  refine .seq (does_appendWindow hr) ?_
  refine .given (fun hle => ?_)
  refine .seq (Q := fun s => Owned pid (r.advanced request.payloadSize) s ∧
      request.brings pid payload ∈ s.recorded r.key) (does_save r _ rfl hlive
    (fun s hi hs => follows_window hi hr hcount hle hs)
    (fun s _ hs _ => ⟨⟨hs.1, journal_write_self, trivial⟩, ?_⟩)) ?_
  · rw [Request.brings, ← hoffset]
    exact mem_recorded_write hs.2.1 hcount hs.2.2.2.1
  · split
    · refine .assume (fun s hi hs => size_pos hi hs.1.2.1) (fun hpos => ?_)
      rename_i hall
      have hbytes : 0 < r.bytesHave + request.payloadSize := by
        have hall' : r.bytesHave + request.payloadSize = r.identity.expectedSize := hall
        have hpos' : 1 ≤ r.identity.expectedSize := hpos
        omega
      refine .bind (((does_prepareCommit (r := r.advanced request.payloadSize) (.inl hr)
        hbytes).frame persistent_recorded).fails (fun _ _ _ hs => hs.1)) (fun r' => ?_)
      refine .pre (P := fun s => Owned pid { r.advanced request.payloadSize with state := .committing } s ∧
        request.brings pid payload ∈ s.recorded r.key) ?_ (fun s _ hs => ⟨hs.1.1, hs.2⟩)
      exact .pure (fun s _ hs => ⟨hs.1.fails rfl, hs.2⟩)
    · exact .pure (fun s _ hs =>
        ⟨⟨hs.1.1, tidy_of_live (r := r.advanced request.payloadSize) hlive hs.1.2.1⟩, hs.2⟩)

lemma does_claim :
    Acts env strict pid (fun s => Idle pid s ∧ Known i s) (Task.ask (Call.claim i) : Prog (Option ℕ))
      (fun o s => Idle pid s ∧ (o = some 0 → Engaged strict i.generationID s)) S := by
  refine .ask (fun s _ hs => hs.2) (fun s w s' o _ hs _ hans => ?_)
  change answer pid env (.claim i) s w = some (s', o) at hans
  rw [answer, saveQueue] at hans
  cases w with
  | done =>
    cases hans
    refine ⟨hs.1, fun ho _ => .inr ⟨i.path, _, update_self _ _ _, ?_⟩⟩
    exact holder_of_claimed_zero (some.inj ho)
  | _ =>
    cases hans
    exact ⟨hs.1, fun ho => by cases ho⟩

lemma does_serveWindow : Acts env strict pid (Idle pid) (serveWindow env client request payload)
    (fun _ s => Idle pid s ∧ request.brings pid payload ∈ s.recorded request.identity.generationID) (fun _ => Idle pid) := by
  refine .except (fun _ _ _ hs => hs) (fun _ hop => ?_)
  refine .except (fun _ _ _ hs => hs) (fun _ hvalid => ?_)
  rw [require_ok, decide_eq_true_eq] at hop
  obtain ⟨_, _, hcount, _⟩ := Request.validate_window (check_eq_ok hvalid) hop
  refine .seq (Q := Idle pid) (.post (does_authorize (fun _ _ _ hs => hs))
    (fun _ _ _ hs => hs.1)) ?_
  refine .bind does_create (fun r => ?_)
  refine .except (fun _ _ _ hs => hs.1) (fun _ _ => ?_)
  refine .bind does_claim (fun o => ?_)
  refine .bind (Q := fun n s => Idle pid s ∧ (some n = some 0 → Engaged strict request.identity.generationID s))
    (does_expect (fun _ _ _ hs => hs.1)
      (fun n s ho _ hs => ⟨hs.1, ho ▸ hs.2⟩)) (fun position => ?_)
  refine .except (fun _ _ _ hs => hs.1) (fun _ hzero => ?_)
  rw [require_ok, decide_eq_true_eq] at hzero
  subst hzero
  refine .pre (P := fun s => Idle pid s ∧ Engaged strict request.identity.generationID s) ?_ (fun s _ hs => ⟨hs.1, hs.2 rfl⟩)
  exact does_withFileLock (fun _ _ h => h) (fun _ h => h)
    (does_receive hcount)

lemma does_commit : Acts env strict pid (Idle pid) (commit env client i)
    (fun a s => Idle pid s ∧ s.carries i.generationID (env.repositoryPath i.logicalRepoID) a.revision) (fun _ => Idle pid) := by
  refine .except (fun _ _ _ hs => hs) (fun _ _ => ?_)
  refine .pre (P := fun s => Idle pid s ∧ True) ?_ (fun s _ hs => ⟨hs, trivial⟩)
  exact does_withFileLock (fun _ _ h => h) (fun _ h => h)
    (does_commitLocked.pre (fun _ _ hs => hs.1))

lemma does_status : Acts env strict pid (Idle pid) (status client i) (fun _ => Idle pid) (fun _ => Idle pid) := by
  have hS : ∀ (_ : WhaleError) s, Inv env strict s → Idle pid s → Idle pid s := fun _ _ _ hs => hs
  refine .seq (Q := Idle pid) (.post (does_authorize hS)
    (fun _ _ _ hs => hs.1)) ?_
  refine .bind (Q := fun _ => Idle pid) ?_ (fun r => .done)
  refine .except hS (fun _ _ => ?_)
  refine .bind (does_loadOnly hS) (fun o => ?_)
  refine .except hS (fun r _ => ?_)
  exact .ofExcept (fun _ _ _ _ hs => hs) hS

def Answers (env : Env) (pid : ℕ) : Demand → Except WhaleError PutResult → Store → Prop
  | .window _ request payload, .ok _, s => request.brings pid payload ∈ s.recorded request.identity.generationID
  | .commit _ identity, .ok a, s => s.carries identity.generationID (env.repositoryPath identity.logicalRepoID) a.revision
  | _, _, _ => True

lemma keeps : Keeps (rules env strict) (Answers env) (program env) := by
  intro pid request
  cases request with
  | window client request payload =>
    exact does_serveWindow.fails (fun _ _ _ hs => ⟨hs, trivial⟩)
  | commit client identity =>
    exact does_commit.fails (fun _ _ _ hs => ⟨hs, trivial⟩)
  | status client identity =>
    exact (does_status.post (fun _ _ _ hs => ⟨hs, trivial⟩)).fails (fun _ _ _ hs => ⟨hs, trivial⟩)

section

open Lib.Runs

abbrev System := Config Call Reply WhaleError PutResult Store Demand

abbrev Happening := Event Fate Outside Demand

def exec (env : Env) : System → Happening → System := step (world env) (program env)

structure Store.Initial (s : Store) : Prop where
  journal : ∀ g, s.journal g = none
  queue : ∀ k, s.queue k = none
  window : ∀ g, s.window g = none
  copied : ∀ g, s.copied g = none
  recorded : ∀ g, s.recorded g = []
  revisions : ∀ path v, v ∈ (s.repository path).revisions → v.generation = none

lemma Store.Initial.not_carries (h : s.Initial) : ¬ s.carries g path n := by
  intro hc
  obtain ⟨_, v, hv, hg⟩ := carries_iff.mp hc
  rw [h.revisions path v (mem_of_getElem? hv)] at hg
  cases hg

lemma Store.Initial.inv (h : s.Initial) : Inv env strict s := by
  have hnone : ∀ {g r}, s.journal g = some r → False := fun hr => by
    rw [h.journal] at hr
    cases hr
  refine ⟨⟨fun g r hr => (hnone hr).elim, fun g _ => ⟨h.recorded g, h.window g⟩, fun g => ?_, fun g r hr => (hnone hr).elim,
      fun g r hr => (hnone hr).elim⟩,
    ⟨fun path g n hn => (h.not_carries hn).elim, fun path g n m hn => (h.not_carries hn).elim, fun g r hr => (hnone hr).elim,
      fun path v g hv hg => ?_, fun g r hr => (hnone hr).elim, fun g r hr => (hnone hr).elim⟩,
    ⟨fun k q hk => ?_, fun k q g hk => ?_, fun _ g r hr => (hnone hr).elim, fun _ g ht => ?_⟩⟩
  · rw [h.recorded]
    trivial
  · rw [h.revisions path v hv] at hg
    cases hg
  · rw [h.queue] at hk
    cases hk
  · rw [h.queue] at hk
    cases hk
  · obtain ⟨r, hr, _⟩ := ht
    exact (hnone hr).elim

lemma Store.Initial.sound (h : s.Initial) : Sound (rules env strict) (Answers env) (fresh s : System) := by
  refine Sound.fresh h.inv (fun pid g hg => ?_)
  rw [h.window] at hg
  cases hg

lemma admitted (c : System) (e : Happening) : (rules env False).Admitted c e := by
  cases e with
  | start request => trivial
  | advance pid w =>
    intro k next _
    cases k with
    | claim i => exact fun hs => hs.elim
    | writeRecord r => exact fun hs => hs.elim
    | release i => exact fun hs => hs.elim
    | _ => trivial
  | die pid => exact fun hs => hs.elim
  | outside e => trivial

lemma sound_run (h : s.Initial) (es : List Happening) :
    Sound (rules env False) (Answers env) (run (exec env) (fresh s) es) :=
  (h.sound.along keeps ((admits_true _ _ es).mono _ (fun c e _ => admitted c e))).last

end

def sampleRepo : Str := "11111111-1111-4111-8111-111111111111"

def sampleGeneration : Str := "22222222-2222-4222-8222-222222222222"

def sampleIdentity : Identity := ⟨sampleRepo, ['a'], sampleGeneration, 1, List.replicate 64 '0'⟩

def sampleEnv : Env := ⟨fun _ => [], id⟩

def sampleStore : Store :=
  ⟨fun _ => none, fun _ => none, fun _ => none, fun _ => none, fun _ => ⟨[], [], 0, []⟩, 0, fun _ => none, fun _ => []⟩

lemma sampleStore_initial : sampleStore.Initial :=
  ⟨fun _ => rfl, fun _ => rfl, fun _ => rfl, fun _ => rfl, fun _ => rfl, fun _ _ hv => by cases hv⟩

def sampleRequest : Request := ⟨sampleRepo, .putWindow, sampleIdentity, 0, [], [], 0, 1⟩

def uploading (steps : ℕ) : List Happening :=
  .start (.window [] sampleRequest [7]) :: List.replicate steps (.advance 0 .done)

def returned (c : System) (pid : ℕ) : Bool :=
  match c.task pid with
  | some (.ret _) => true
  | _ => false

end FileES.Whale
