import FileES.Whale.Conduct

/-! The bytes that the journal of an upload counts are those of the windows that were received. -/

namespace FileES.Whale

open Go Lib.Fallible Lib.Processes Lib.Runs List Option
open Function (update update_self update_of_ne)

def NoCopy : Call → Prop
  | .copy _ _ _ => False
  | _ => True

def Copies (_ : ℕ) : Demand → Call → Prop
  | .window _ request payload, .copy g offset bytes =>
    g = request.identity.generationID ∧ offset = request.offset ∧ bytes = payload.take request.payloadSize.toNat
  | _, c => NoCopy c

abbrev CopiesNothing {α : Type} (t : Prog α) : Prop := t.Uses NoCopy (fun _ => True)

variable {α : Type} {env : Env} {g path client : Str} {i : Identity} {r : Record} {d : Direction}

protected lemma CopiesNothing.settle {b : Bool} : CopiesNothing (settle b) := by
  cases b <;> trivial

protected lemma CopiesNothing.expect {o : Option α} : CopiesNothing (expect o) := by
  cases o <;> trivial

protected lemma CopiesNothing.pure {a : α} : CopiesNothing (pure a : Prog α) := trivial

protected lemma CopiesNothing.except {x : Except WhaleError α} : CopiesNothing (Task.ofExcept x : Prog α) := .ofExcept (fun _ _ => trivial)

protected lemma CopiesNothing.asked {c : Call} (h : NoCopy c) : CopiesNothing (Task.ask c : Prog (Reply c)) := .ask h (fun _ => trivial)

protected lemma CopiesNothing.seq {β : Type} {t : Prog α} {f : α → Prog β} (h : CopiesNothing t) (hf : ∀ a, CopiesNothing (f a)) :
    CopiesNothing (t >>= f) := .bind h (fun a _ => hf a)

lemma uses_load : CopiesNothing (load g) := by
  refine .seq .except (fun _ => .seq (.asked trivial) (fun _ => .seq .expect (fun o => ?_)))
  cases o with
  | none => exact .pure
  | some r => exact .seq .except (fun _ => .seq .except (fun _ => .pure))

lemma uses_create : CopiesNothing (create i d) := by
  refine .seq .except (fun _ => .seq uses_load (fun o => ?_))
  cases o with
  | some r => exact .except
  | none =>
    refine .seq (.asked trivial) (fun _ => .seq .except (fun _ => .seq (.asked trivial) (fun c => ?_)))
    cases c with
    | made => exact .pure
    | failed => trivial
    | notRenamed =>
      refine .seq (.attempt uses_load) (fun a => ?_)
      match a with
      | .ok (some r) => exact .except
      | .ok none => trivial
      | .error e => trivial

lemma uses_save : CopiesNothing (save r) :=
  .seq uses_load (fun _ => .seq .except (fun _ => .seq .except (fun _ =>
    .seq .except (fun _ => .seq (.asked trivial) (fun _ => .settle)))))

lemma uses_requireRecord : (requireRecord i).Uses NoCopy (fun r => r.identity = i) := by
  refine .bind CopiesNothing.except (fun _ _ => .bind uses_load (fun o _ => .bind CopiesNothing.except (fun r _ => ?_)))
  exact .ofExcept (fun r' hr' => by
    obtain ⟨rfl, hid, _⟩ := checkIdentity_eq_ok hr'
    exact hid)

lemma uses_authorize {write : Bool} {repo : Str} : CopiesNothing (authorize client repo write) := by
  refine .seq (.asked trivial) (fun o => ?_)
  cases o with
  | none => trivial
  | some access =>
    dsimp only
    split
    · trivial
    · exact .pure

lemma uses_reserve {size : ℤ} : CopiesNothing (reserve g size) := by
  refine .seq (.asked trivial) (fun o => ?_)
  cases o <;> trivial

lemma uses_prepareCommit : CopiesNothing (prepareCommit env r) := by
  refine .seq ?_ (fun r => .seq (.asked trivial) (fun _ => .seq .expect (fun content => ?_)))
  · rw [beginValidation]
    split
    · exact .seq uses_save (fun _ => .pure)
    · exact .pure
  · split
    · exact .seq uses_save (fun _ => .seq (.asked trivial) (fun _ => .seq (.asked trivial) (fun _ => trivial)))
    · exact .seq uses_save (fun _ => .pure)

lemma uses_cleanup : CopiesNothing (cleanup i) :=
  .seq (.asked trivial) (fun _ => .seq (.asked trivial) (fun _ => .seq .settle (fun _ => .except)))

lemma uses_findGeneration {first : ℤ} : CopiesNothing (findGeneration path first g) :=
  .seq (.asked trivial) (fun _ => .seq .expect (fun _ => .search (fun _ =>
    CopiesNothing.seq (.asked trivial) (fun _ => .seq .expect (fun _ => .pure)))))

lemma uses_removeAbandoned : CopiesNothing (removeAbandonedGenerationTransactions path g) := by
  refine .seq (.asked trivial) (fun _ => .seq .expect (fun _ => .each (fun t => ?_)))
  refine CopiesNothing.seq (.asked trivial) (fun o => ?_)
  cases o with
  | some v => exact .onlyIf (CopiesNothing.seq (.asked trivial) (fun _ => .settle)) trivial
  | none =>
    refine .seq (.asked trivial) (fun _ => .seq .expect (fun names => ?_))
    split
    · trivial
    · exact .pure

lemma uses_publishWhale : CopiesNothing (publishWhale path r) := by
  refine .seq .except (fun _ => .seq ?_ (fun r => .seq (.seq uses_findGeneration (fun o => ?_)) (fun _ => .pure)))
  · rw [recordBase]
    split
    · exact .pure
    · exact .seq (.asked trivial) (fun _ => .seq .expect (fun _ => .seq uses_save (fun _ => .pure)))
  · cases o with
    | some n => exact .pure
    | none =>
      refine .seq uses_removeAbandoned (fun _ => .seq (.asked trivial) (fun _ => .seq .expect (fun _ =>
        .seq (.asked trivial) (fun _ => .seq .expect (fun _ => .seq (.asked trivial) (fun _ =>
          .seq .settle (fun _ => .seq uses_findGeneration (fun o => ?_))))))))
      cases o <;> trivial

lemma uses_publish : CopiesNothing (publish env path r) := by
  refine .seq uses_reserve (fun _ => .seq uses_load (fun _ => .seq ?_ (fun r => .seq .except (fun _ =>
    .seq uses_publishWhale (fun a => .seq uses_save (fun _ => .seq uses_cleanup (fun _ => .pure)))))))
  rw [committable]
  split
  · exact .seq .except (fun _ => uses_prepareCommit)
  · exact .pure

lemma uses_withFileLock {A : Call → Prop} {body : Prog α} (hA : ∀ c, NoCopy c → A c)
    (h : body.Uses A (fun _ => True)) : (withFileLock g body).Uses A (fun _ => True) :=
  .bind (.ask (hA _ trivial) (fun _ => trivial)) (fun _ _ => .bind (CopiesNothing.settle.mono hA (fun _ h => h)) (fun _ _ =>
    .bind (.attempt h) (fun _ _ => .bind (.ask (hA _ trivial) (fun _ => trivial)) (fun _ _ =>
      .ofExcept (fun _ _ => trivial)))))

lemma uses_commit : CopiesNothing (commit env client i) := by
  refine .seq .except (fun _ => uses_withFileLock (fun _ h => h) ?_)
  refine CopiesNothing.seq uses_authorize (fun path => .seq (uses_requireRecord.mono (fun _ h => h) (fun _ _ => trivial)) (fun r => ?_))
  split
  · exact .seq uses_cleanup (fun _ => .pure)
  · split
    · trivial
    · exact uses_publish

lemma uses_status : CopiesNothing (status client i) :=
  .seq uses_authorize (fun _ => .seq (uses_requireRecord.mono (fun _ h => h) (fun _ _ => trivial)) (fun _ => .pure))

variable {pid : ℕ} {request : Request} {payload : List UInt8}

lemma copies_of_noCopy (c : Call) (h : NoCopy c) : Copies pid (.window client request payload) c := by
  cases c with
  | copy g offset bytes => exact h.elim
  | _ => trivial

lemma uses_receive : (receive env request payload).Uses (Copies pid (.window client request payload)) (fun _ => True) := by
  have hno : ∀ {β : Type} {t : Prog β}, CopiesNothing t → t.Uses (Copies pid (.window client request payload)) (fun _ => True) :=
    fun h => h.mono copies_of_noCopy (fun _ h => h)
  refine .bind (uses_requireRecord.mono copies_of_noCopy (fun _ h => h)) (fun r hid => ?_)
  refine .bind (Q := fun _ => r.bytesHave = request.offset) (.ofExcept (fun _ h => ?_)) (fun _ hoffset => ?_)
  · simp only [require_ok, Bool.and_eq_true, decide_eq_true_eq] at h
    exact h.2
  · refine .bind (hno uses_reserve) (fun _ _ => .bind (hno (.asked trivial)) (fun _ _ =>
      .bind (hno .settle) (fun _ _ => .bind (hno uses_load) (fun _ _ => .bind (Q := fun _ => True) ?_ (fun _ _ =>
        .bind (hno uses_save) (fun _ _ => ?_))))))
    · refine .bind (hno (.asked trivial)) (fun _ _ => .bind (hno .expect) (fun _ _ =>
        .bind (hno .except) (fun _ _ => .bind
          (.onlyIf (hno (.seq (.asked trivial) (fun _ => .settle))) trivial) (fun _ _ =>
          .bind (.ask ?_ (fun _ => trivial)) (fun _ _ => .bind (hno .settle) (fun _ _ =>
            hno (.seq .except (fun _ => .seq (.asked trivial) (fun _ => .settle)))))))))
      exact ⟨by rw [hid], hoffset, rfl⟩
    · split
      · exact hno (.seq uses_prepareCommit (fun _ => .pure))
      · exact hno .pure

lemma uses_serveWindow :
    (serveWindow env client request payload).Uses (Copies pid (.window client request payload)) (fun _ => True) := by
  have hno : ∀ {β : Type} {t : Prog β}, CopiesNothing t → t.Uses (Copies pid (.window client request payload)) (fun _ => True) :=
    fun h => h.mono copies_of_noCopy (fun _ h => h)
  exact .bind (hno .except) (fun _ _ => .bind (hno .except) (fun _ _ => .bind (hno uses_authorize) (fun _ _ =>
    .bind (hno uses_create) (fun _ _ => .bind (hno .except) (fun _ _ => .bind (hno (.asked trivial)) (fun _ _ =>
      .bind (hno .expect) (fun _ _ => .bind (hno .except) (fun _ _ =>
        uses_withFileLock copies_of_noCopy uses_receive))))))))

lemma uses_program (pid : ℕ) (request : Demand) : (program env request).Uses (Copies pid request) (fun _ => True) := by
  cases request with
  | window client request payload => exact uses_serveWindow
  | commit client i => exact uses_commit.mono (fun _ h => h) (fun _ h => h)
  | status client i => exact uses_status.mono (fun _ h => h) (fun _ h => h)

variable {s s' : Store} {v : Window} {c : System}

def Brought (c : System) (g : Str) (v : Window) : Prop := ∃ client request payload,
  c.requests[v.pid]? = some (.window client request payload) ∧ request.identity.generationID = g ∧ v = request.brings v.pid payload

lemma brought_copy {offset : ℤ} {bytes : List UInt8} {next : Bool → Task Call Reply WhaleError PutResult}
    (h : Serving Copies c) (ht : c.task pid = some (.call (.copy g offset bytes) next)) : Brought c g ⟨pid, offset, bytes⟩ := by
  obtain ⟨request, hr, hcopy, _⟩ := h pid _ ht
  cases request with
  | window client request payload =>
    obtain ⟨hg, ho, hb⟩ := hcopy
    exact ⟨client, request, payload, hr, hg.symm, by rw [ho, hb]; rfl⟩
  | commit client i => exact hcopy.elim
  | status client i => exact hcopy.elim

lemma mem_recorded_of_write (hv : v ∈ (s.write r).recorded g) : v ∈ s.recorded g ∨ s.copied g = some v := by
  rw [recorded_write] at hv
  split at hv
  · rename_i hg
    rcases List.mem_append.mp hv with hv | hv
    · exact .inl hv
    · rw [Store.counted] at hv
      split at hv
      · rename_i current w _ hw
        split at hv
        · rw [mem_singleton] at hv
          exact .inr (by rw [hg, hw, hv])
        · cases hv
      · cases hv
  · exact .inl hv

structure Traced (c : System) : Prop where
  serving : Serving Copies c
  copied : ∀ g v, c.shared.copied g = some v → Brought c g v
  recorded : ∀ g v, v ∈ c.shared.recorded g → Brought c g v

lemma Traced.fresh (h : s.Initial) : Traced (fresh s) := by
  refine ⟨fun pid t ht => (by cases ht), fun g v (hv : s.copied g = some v) => ?_, fun g v (hv : v ∈ s.recorded g) => ?_⟩
  · rw [h.copied] at hv
    cases hv
  · rw [h.recorded] at hv
    cases hv

lemma Brought.mono {c' : System} (hb : Brought c g v) (h : c.requests <+: c'.requests) : Brought c' g v := by
  obtain ⟨client, request, payload, hr, hg, hv⟩ := hb
  obtain ⟨rest, hrest⟩ := h
  obtain ⟨hlt, _⟩ := List.getElem?_eq_some_iff.mp hr
  refine ⟨client, request, payload, ?_, hg, hv⟩
  rw [← hrest, getElem?_append_left hlt]
  exact hr

lemma Traced.answer {k : Call} {next : Reply k → Task Call Reply WhaleError PutResult} {w : Fate} {reply : Reply k}
    (h : Traced c) (ht : c.task pid = some (.call k next)) (hw : answer pid env k c.shared w = some (s', reply)) :
    (∀ g v, s'.copied g = some v → Brought c g v) ∧ ∀ g v, v ∈ s'.recorded g → Brought c g v := by
  rcases answer_history hw with ⟨hcopied, hrecorded⟩ | ⟨r, rfl⟩ | ⟨g', offset, bytes, rfl, rfl⟩
  · rw [hcopied, hrecorded]
    exact ⟨h.copied, h.recorded⟩
  · refine ⟨h.copied, fun g v hv => ?_⟩
    rcases mem_recorded_of_write hv with hv | hv
    · exact h.recorded g v hv
    · exact h.copied g v hv
  · refine ⟨fun g v (hv : update c.shared.copied g' (some ⟨pid, offset, bytes⟩) g = some v) => ?_, h.recorded⟩
    by_cases hg : g = g'
    · subst hg
      rw [update_self, some.injEq] at hv
      exact hv ▸ brought_copy h.serving ht
    · rw [update_of_ne hg] at hv
      exact h.copied g v hv

lemma outside_history (e : Outside) : (outside e s).copied = s.copied ∧ (outside e s).recorded = s.recorded := by
  cases e with
  | tick => exact ⟨rfl, rfl⟩
  | begin path => exact ⟨rfl, rfl⟩
  | commit path t mkdirs =>
    rw [outside]
    split <;> exact ⟨rfl, rfl⟩

lemma Traced.step (h : Traced c) (e : Happening) : Traced (exec env c e) := by
  have hserving : Serving Copies (exec env c e) := h.serving.step uses_program e
  cases e with
  | start request =>
    have hpre : c.requests <+: (exec env c (.start request)).requests := List.prefix_append _ _
    exact ⟨hserving, fun g v hv => (h.copied g v hv).mono hpre, fun g v hv => (h.recorded g v hv).mono hpre⟩
  | advance pid w =>
    rw [exec, Lib.Processes.step] at hserving ⊢
    split
    case h_2 => exact h
    case h_1 k next ht =>
      simp only [ht] at hserving
      split
      case h_2 => exact h
      case h_1 s' reply hw =>
        rw [hw] at hserving
        obtain ⟨hcopied, hrecorded⟩ := h.answer ht hw
        exact ⟨hserving, fun g v hv => (hcopied g v hv).mono (prefix_refl _),
          fun g v hv => (hrecorded g v hv).mono (prefix_refl _)⟩
  | die pid =>
    rw [exec, Lib.Processes.step] at hserving ⊢
    split
    case h_2 => exact h
    case h_1 k next ht =>
      simp only [ht] at hserving
      exact ⟨hserving, fun g v hv => (h.copied g v hv).mono (prefix_refl _),
        fun g v hv => (h.recorded g v hv).mono (prefix_refl _)⟩
  | outside e =>
    obtain ⟨hcopied, hrecorded⟩ := outside_history (s := c.shared) e
    refine ⟨hserving, fun g v (hv : (outside e c.shared).copied g = some v) => ?_,
      fun g v (hv : v ∈ (outside e c.shared).recorded g) => ?_⟩
    · rw [hcopied] at hv
      exact (h.copied g v hv).mono (prefix_refl _)
    · rw [hrecorded] at hv
      exact (h.recorded g v hv).mono (prefix_refl _)

section

variable (h : Sound (rules env False) (Answers env) c) (hr : c.shared.journal g = some r)
include h hr

lemma Sound.later {e : Happening} : ∃ r', (exec env c e).shared.journal g = some r' ∧ Later r r' := by
  have hsame : ∃ r', c.shared.journal g = some r' ∧ Later r r' := ⟨r, hr, Later.refl r⟩
  cases e with
  | start request => exact hsame
  | advance pid w =>
    rw [exec, Lib.Processes.step]
    split
    case h_2 => exact hsame
    case h_1 k next ht =>
      split
      case h_2 => exact hsame
      case h_1 s' reply hw =>
        have hkeeps := (rules env False).answer_keeps pid k c.shared w s' reply h.inv (h.proper ht)
          (admitted c (.advance pid w) k next ht) hw
        exact Rely.journal (hkeeps.2 (pid + 1) (by omega)) g r hr
  | die pid =>
    rw [exec, Lib.Processes.step]
    split
    case h_2 => exact hsame
    case h_1 k next ht => exact hsame
  | outside e => exact Rely.journal ((outside_keeps e h.inv).2 0) g r hr

lemma later_run (es : List Happening) : ∃ r', (run (exec env) c es).shared.journal g = some r' ∧ Later r r' := by
  induction es generalizing c r with
  | nil => exact ⟨r, hr, Later.refl r⟩
  | cons e es ih =>
    obtain ⟨r₁, hr₁, hl₁⟩ := Sound.later (e := e) h hr
    obtain ⟨r₂, hr₂, hl₂⟩ := ih (h.step keeps e (admitted c e)) hr₁
    exact ⟨r₂, hr₂, hl₁.trans hl₂⟩

end

/-- The journal counts the windows sent, every acknowledged one among them; the publisher gets what was declared. -/
structure Intact (env : Env) (c : System) : Prop where
  counted : ∀ g r, c.shared.journal g = some r → r.bytesHave = (joined (c.shared.recorded g)).length ∧
    (c.shared.content g).take r.bytesHave.toNat = joined (c.shared.recorded g)
  tiles : ∀ g, Tiles 0 (c.shared.recorded g)
  brought : ∀ g v, v ∈ c.shared.recorded g → Brought c g v
  acknowledged : ∀ pid client request payload a, c.requests[pid]? = some (.window client request payload) →
    c.task pid = some (.ret (.ok a)) → request.brings pid payload ∈ c.shared.recorded request.identity.generationID
  handed : ∀ pid path t i mkdirs next, c.task pid = some (.call (.commitPut path t i mkdirs) next) →
    Matches env i (c.shared.payload i.generationID)
  put : ∀ path v g, v ∈ (c.shared.repository path).revisions → v.generation = some g → ∃ r b, c.shared.journal g = some r ∧
    v.put = some (r.identity.storagePath, b) ∧ Matches env r.identity (some b)

/-- Later states of a run keep the identity of a generation and at least as many of its bytes. -/
def Grows (env : Env) (c : System) (es : List Happening) : Prop :=
  ∀ pre, pre <+: es → ∀ g r, (run (exec env) c pre).shared.journal g = some r →
    ∃ r', (run (exec env) c es).shared.journal g = some r' ∧ r'.identity = r.identity ∧ r.bytesHave ≤ r'.bytesHave

lemma intact (h : Sound (rules env False) (Answers env) c) (ht : Traced c) : Intact env c := by
  have hi : Inv env False c.shared := h.inv
  refine ⟨hi.uploads.counted, hi.uploads.tiles, ht.recorded, fun pid client request payload a hr hret => ?_,
    fun pid path t i mkdirs next hcall => ?_, hi.publications.put⟩
  · obtain ⟨request', hreq, _, hq⟩ := h.of_ret hret
    rw [hr] at hreq
    cases hreq
    exact hq
  · obtain ⟨⟨r, ⟨_, hr⟩, hs, _⟩, r', hr', hid⟩ := h.proper hcall
    obtain rfl := mem_unique hr hr'
    have hm := hi.uploads.checked _ r hr (.inl hs)
    rw [hid] at hm
    exact hm

theorem upload_intact (env : Env) (s : Store) (h : s.Initial) (es : List Happening) :
    Along (exec env) (Intact env) (fresh s) es ∧ Grows env (fresh s) es := by
  have htraced : ∀ es, Traced (run (exec env) (fresh s) es) :=
    run_invariant (exec env) (fun c e hc => hc.step e) (Traced.fresh h)
  refine ⟨fun pre _ => intact (sound_run h pre) (htraced pre), fun pre ⟨post, hpost⟩ g r hr => ?_⟩
  obtain ⟨r', hr', hl⟩ := later_run (sound_run h pre) hr post
  rw [← run_append, hpost] at hr'
  exact ⟨r', hr', hl.identity, hl.bytes⟩

theorem upload_intact_sample :
    (run (exec sampleEnv) (fresh sampleStore) (uploading 23)).shared.recorded sampleGeneration = [⟨0, 0, [7]⟩] ∧
      Along (exec sampleEnv) (Intact sampleEnv) (fresh sampleStore) (uploading 23) ∧
      Grows sampleEnv (fresh sampleStore) (uploading 23) :=
  ⟨by decide +kernel, upload_intact sampleEnv sampleStore sampleStore_initial (uploading 23)⟩

def refused (c : System) (pid : ℕ) : Bool :=
  match c.task pid with
  | some (.ret (.error _)) => true
  | _ => false

/-- The byte of the window counts although its only request was answered with an error. -/
theorem counted_unacknowledged : ∃ c r, c = run (exec sampleEnv) (fresh sampleStore) (uploading 23) ∧
    c.shared.journal sampleGeneration = some r ∧ (c.shared.content sampleGeneration).take r.bytesHave.toNat = [7] ∧
    ∀ pid a, c.task pid ≠ some (.ret (.ok a)) := by
  have hrun : (run (exec sampleEnv) (fresh sampleStore) (uploading 23)).requests.length = 1 ∧
      refused (run (exec sampleEnv) (fresh sampleStore) (uploading 23)) 0 = true ∧
      ((run (exec sampleEnv) (fresh sampleStore) (uploading 23)).shared.journal sampleGeneration).map Record.bytesHave = some 1 ∧
      (run (exec sampleEnv) (fresh sampleStore) (uploading 23)).shared.content sampleGeneration = [7] := by decide +kernel
  have hsound : Sound (rules sampleEnv False) (Answers sampleEnv) (run (exec sampleEnv) (fresh sampleStore) (uploading 23)) :=
    sound_run sampleStore_initial (uploading 23)
  obtain ⟨c, hc⟩ : ∃ c, c = run (exec sampleEnv) (fresh sampleStore) (uploading 23) := ⟨_, rfl⟩
  rw [← hc] at hrun hsound
  obtain ⟨hlen, hrefused, hbytes, hcontent⟩ := hrun
  obtain ⟨r, hr, hb⟩ := map_eq_some_iff.mp hbytes
  refine ⟨c, r, hc, hr, by rw [hcontent, hb]; rfl, fun pid a ht => ?_⟩
  cases pid with
  | zero =>
    rw [refused, ht] at hrefused
    cases hrefused
  | succ pid =>
    rw [hsound.task_of_length_le (by omega)] at ht
    cases ht

end FileES.Whale
