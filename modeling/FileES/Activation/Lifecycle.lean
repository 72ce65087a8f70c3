import FileES.Activation.Revocation
import FileES.Lib.Runs

/-! The states of activation records, the rendered keys and the admitted sessions over every run of the operations. -/

namespace FileES.Activation

open Go Lib.Durable Lib.Effects Lib.Fallible Lib.Maps Lib.Runs List Option AList

variable {env : Env} {svn : Revisions} {now : Time} {realmID reason op clientID : Str} {m : Records} {r : Record} {s s₀ : Host}

def allowed : Option State → State → Bool
  | none, .staged => true
  | some .staged, .active => true
  | some .staged, .expired => true
  | some .staged, .revoking => true
  | some .active, .revoking => true
  | some .revoking, .revoked => true
  | _, _ => false

def State.closed : State → Bool
  | .revoking => true
  | .revoked => true
  | .expired => true
  | _ => false

inductive Change : Host → Host → Prop
  | record {s : Host} {op : Str} {r : Record} (h : allowed ((s.records.lookup op).map Record.state) r.state = true) :
      Change s (s.putRecord op r)
  | access {s : Host} (keys : List KeyLine) (authz : ServiceAuthz) : Change s { s with keys := keys, authz := authz }
  | receipt {s : Host} (receipts : Map Str Receipt) : Change s { s with receipts := receipts }
  | session {s : Host} {session : Session} {r : Record} (hr : s.records.lookup session.operationID = some r) (h : r.live = true) :
      Change s { s with admitted := s.admitted ++ [session] }

abbrev Reaches : Host → Host → Prop := Relation.ReflTransGen Change

lemma allowed_closed {old new : State} (h : allowed (some old) new = true) (hold : old.closed = true) : new.closed = true := by
  cases old with
  | revoking =>
    cases new with
    | revoked => rfl
    | _ => cases h
  | staged => cases hold
  | active => cases hold
  | revoked => cases h
  | expired => cases h
  | other _ => cases hold

def sessionsOf (op : Str) (s : Host) : List Session := s.admitted.filter (fun session => session.operationID = op)

def Shut (op : Str) (s : Host) : Prop := ∃ r, s.records.lookup op = some r ∧ r.state.closed = true

variable {s' : Host}

lemma Change.shut (h : Change s s') (hs : Shut op s) : Shut op s' ∧ sessionsOf op s' = sessionsOf op s := by
  obtain ⟨r, hr, hclosed⟩ := hs
  cases h with
  | @record op' r' h =>
    refine ⟨?_, rfl⟩
    by_cases hop : op = op'
    · subst hop
      rw [hr, map_some] at h
      exact ⟨r', by rw [lookup_putRecord, if_pos rfl], allowed_closed h hclosed⟩
    · exact ⟨r, by rw [lookup_putRecord, if_neg hop]; exact hr, hclosed⟩
  | access keys authz => exact ⟨⟨r, hr, hclosed⟩, rfl⟩
  | receipt receipts => exact ⟨⟨r, hr, hclosed⟩, rfl⟩
  | @session session r' hr' hlive =>
    refine ⟨⟨r, hr, hclosed⟩, ?_⟩
    have hother : session.operationID ≠ op := by
      intro he
      rw [he, hr, some.injEq] at hr'
      subst hr'
      rcases live_iff.mp hlive with hstate | hstate <;> rw [hstate] at hclosed <;> cases hclosed
    simp [sessionsOf, hother]

lemma Reaches.shut (h : Reaches s s') (hs : Shut op s) : Shut op s' ∧ sessionsOf op s' = sessionsOf op s := by
  induction h with
  | refl => exact ⟨hs, rfl⟩
  | tail _ hchange ih =>
    obtain ⟨hshut, hsame⟩ := hchange.shut ih.1
    exact ⟨hshut, hsame.trans ih.2⟩

lemma Reaches.moves (h : Reaches s s') : ∀ move ∈ s'.moves, move ∈ s.moves ∨ allowed move.old move.new = true := by
  induction h with
  | refl => exact fun move hmove => .inl hmove
  | tail _ hchange ih =>
    intro move hmove
    cases hchange with
    | record h =>
      rcases mem_append.mp hmove with hmove | hmove
      · exact ih move hmove
      · rw [mem_singleton.mp hmove]
        exact .inr h
    | access _ _ => exact ih move hmove
    | receipt _ => exact ih move hmove
    | session _ _ => exact ih move hmove

def On (s₀ : Host) (Φ : Records → Prop) (s : Host) : Prop := Reaches s₀ s ∧ Φ s.records

variable {Φ Ψ : Records → Prop}

instance : Within (On s₀ Φ) (Reaches s₀) := ⟨fun _ hs => hs.1⟩

lemma on_unrendered : Unrendered (On s₀ Φ) := fun _ keys authz hs => ⟨hs.1.tail (.access keys authz), hs.2⟩

lemma on_receipts (s : Host) (receipts : Map Str Receipt) (h : On s₀ Φ s) : On s₀ Φ { s with receipts := receipts } :=
  ⟨h.1.tail (.receipt receipts), h.2⟩

lemma ensures_saveRecord (hallowed : ∀ m, Φ m → allowed ((m.lookup op).map Record.state) r.state = true)
    (hΨ : ∀ m, Φ m → Ψ (m.insert op r)) : Ensures (On s₀ Φ) (saveRecord op r) (fun _ => On s₀ Ψ) (Reaches s₀) := by
  have hput : ∀ s, On s₀ Φ s → On s₀ Ψ (s.putRecord op r) :=
    fun s hs => ⟨hs.1.tail (.record (hallowed s.records hs.2)), hΨ s.records hs.2⟩
  exact .save (fun s hs => hs.1) hput (fun s hs => (hput s hs).1)

abbrev Reaching {α : Type} (s₀ : Host) (m : Op α) : Prop := Ensures (Reaches s₀) m (fun _ => Reaches s₀) (Reaches s₀)

lemma reaching_read {α : Type} {k : Host → Op α} (h : ∀ s₁, Ensures (On s₀ (· = s₁.records)) (k s₁) (fun _ => Reaches s₀) (Reaches s₀)) :
    Reaching s₀ (read >>= k) :=
  .read_bind (fun s₁ => (h s₁).pre (fun _ hs => ⟨hs.1, by rw [hs.2]⟩))

lemma ensures_render : Reaching s₀ (renderAccess env) :=
  (ensures_renderAccess (fun _ keys authz hs => hs.tail (.access keys authz)) (fun _ hs => hs)).post
    (fun _ _ hs => hs.1)

def Untouched (m : Records) (done : List (Sigma fun _ : Str => Record)) (m' : Records) : Prop :=
  ∀ k, k ∉ done.map Sigma.fst → m'.lookup k = m.lookup k

variable {done rest : List (Sigma fun _ : Str => Record)} {e : Sigma fun _ : Str => Record} {m' : Records}

lemma Untouched.current (h : Untouched m done m') (hl : sortedRecords m = done ++ e :: rest) : m'.lookup e.1 = some e.2 := by
  obtain ⟨he, hdone⟩ := sortedRecords_current hl
  rw [h e.1 hdone, he]

lemma Untouched.next (h : Untouched m done m') : Untouched m (done ++ [e]) m' := by
  intro k hk
  rw [map_append, mem_append, not_or] at hk
  exact h k hk.1

lemma Untouched.insert (h : Untouched m done m') : Untouched m (done ++ [e]) (m'.insert e.1 r) := by
  intro k hk
  rw [map_append, mem_append, not_or, map_singleton, mem_singleton] at hk
  rw [lookup_insert_ne hk.2]
  exact h k hk.1

lemma ensures_expireStaged : Reaching s₀ (expireStaged env now) := by
  refine reaching_read (fun s₁ => ?_)
  refine .checked (fun records hrecords => ?_)
  obtain ⟨_, rfl⟩ := recordsLocked_ok.mp hrecords
  have hloop := Ensures.each_done (R := Reaches s₀) (l := sortedRecords s₁.records) (f := expireRecord now)
    (J := fun done => On s₀ (Untouched s₁.records done)) (fun done e rest hl => ?_)
  · exact hloop.conseq (fun s hs => ⟨hs.1, fun k _ => by rw [hs.2]⟩) (fun _ s hs => hs.1)
  · refine .onlyIf_of (fun hstaged => ?_) (fun _ s hs => ⟨hs.1, hs.2.next⟩)
    rw [Bool.and_eq_true, decide_eq_true_eq] at hstaged
    refine .seq (ensures_saveRecord (fun m hm => ?_) (fun m hm => hm.insert)) ?_
    · rw [hm.current hl, map_some, hstaged.1]
      rfl
    · exact .tryTo (fun s hs => hs.1) (fun s hs => on_receipts s _ hs)

variable {grant : Grant}

lemma ensures_stage : Reaching s₀ (stage env now grant) := by
  refine .checked (fun canonical _ => ?_)
  refine .seq (.command (fun _ hs => hs)) (.seq (.command (fun _ hs => hs)) ?_)
  refine .seq ensures_expireStaged (reaching_read (fun s₁ => ?_))
  cases hr : s₁.records.lookup grant.operationID with
  | none =>
    refine .checked (fun _ _ => .checked (fun _ _ => ?_))
    refine .seq (ensures_saveRecord (Ψ := fun _ => True) (fun m hm => ?_) (fun _ _ => trivial))
      (ensures_render.pre (fun s hs => hs.1))
    rw [hm, hr]
    rfl
  | some r =>
    refine .checked (fun _ _ => .checked (fun _ _ => ?_))
    exact ensures_render.pre (fun s hs => hs.1)

lemma ensures_cleanupExpired : Reaching s₀ (cleanupExpired env now) := .seq ensures_expireStaged ensures_render

lemma ensures_proof : Ensures (Reaches s₀) (recordProofLocked env now op clientID)
    (fun r s => Reaches s₀ s ∧ s.records.lookup op = some r ∧ r.live = true) (Reaches s₀) :=
  (ensures_recordProofLocked (fun _ receipts hs => hs.tail (.receipt receipts)) (fun _ hs => hs)).post
    (fun _ _ hs => ⟨hs.1, hs.2.1, hs.2.2.2⟩)

lemma ensures_recordProof : Reaching s₀ (recordProof env now op clientID) := by
  refine .checked (fun _ _ => .checked (fun _ _ => ?_))
  exact .bind ensures_proof (fun _ => .pure (fun s hs => hs.1))

lemma ensures_claimSession : Reaching s₀ (claimSession env now op clientID) := by
  refine .checked (fun _ _ => .checked (fun _ _ => ?_))
  refine .seq (.command (fun _ hs => hs)) (.bind ensures_proof (fun r => ?_))
  refine .checked (fun _ _ => .seq (.command (fun s hs => hs.1)) ?_)
  refine .seq (Q := Reaches s₀) (.update (fun s hs => ?_)) .done
  have hchange : Change s { s with admitted := s.admitted ++ [⟨op, clientID, r.realmID, now⟩] } := .session hs.2.1 hs.2.2
  exact hs.1.tail hchange

lemma ensures_publish : Reaching s₀ (publish env svn now grant) := by
  refine .checked (fun canonical _ => ensures_withServiceWorkingCopy ?_ (fun _ hs => hs))
  refine reaching_read (fun s₁ => ?_)
  refine .checked (fun r hr => ?_)
  obtain ⟨hr, _⟩ := readRecord_ok.mp hr
  split
  · exact .pure (fun s hs => hs.1)
  · refine .checked (fun receipt _ => .checked (fun _ hstaged => ?_))
    have hstaged := require_ok.mp hstaged
    rw [Bool.and_eq_true, decide_eq_true_eq] at hstaged
    refine .bind (quiet_publishServiceFiles.ensures (fun s hs => hs.1)) (fun published => ?_)
    refine .bind (quiet_publishGrants.ensures (fun s hs => hs.1)) (fun revision => ?_)
    refine .seq (ensures_saveRecord (Ψ := fun _ => True) (fun m hm => ?_) (fun _ _ => trivial)) ?_
    · rw [hm, hr, map_some, hstaged.1]
      rfl
    · exact .seq (ensures_render.pre (fun s hs => hs.1)) .done

lemma allowed_closing (h : r.live = true) : allowed (some r.state) (closing now reason r).state = true := by
  rcases live_iff.mp h with hstate | hstate <;> rw [hstate] <;> rfl

lemma ensures_closed {text : Str} {next : Record × Bool} (h : closed now reason text r = .ok next) :
    Ensures (On s₀ (fun m => m.lookup op = some r)) (onlyIf next.2 (saveRecord op next.1))
      (fun _ => On s₀ (fun m => ∃ r', m.lookup op = some r' ∧ r'.state = .revoking)) (Reaches s₀) := by
  obtain ⟨hclosable, hrecord, hwrite⟩ := closed_ok h
  rw [hrecord, hwrite]
  refine .onlyIf_of (fun hlive => ?_) (fun hlive s hs => ⟨hs.1, r, hs.2, ?_⟩)
  · rw [if_pos hlive]
    refine ensures_saveRecord (fun m hm => ?_) (fun m _ => ⟨_, lookup_insert _, rfl⟩)
    rw [hm, map_some]
    exact allowed_closing hlive
  · exact (hclosable.resolve_left (by rw [hlive]; decide)).1

lemma ensures_revokeClient_reaches : Reaching s₀ (revokeClient env svn now clientID reason) := by
  refine reaching_read (fun s₁ => ?_)
  refine .checked (fun records hrecords => ?_)
  obtain ⟨_, rfl⟩ := recordsLocked_ok.mp hrecords
  refine .checked (fun e he => ?_)
  have hfound := (selectClient_ok.mp he).found
  split
  · exact .checked (fun _ _ => .pure (fun s hs => hs.1))
  · refine .checked (fun next hnext => ?_)
    refine .seq (.pre (ensures_closed hnext) (fun s hs => ⟨hs.1, by rw [hs.2]; exact hfound⟩)) ?_
    refine .seq (.post (ensures_renderAccess on_unrendered (fun s hs => hs.1)) (fun _ _ hs => hs.1)) ?_
    refine .bind (quiet_publishRevocation.ensures (fun s hs => hs.1)) (fun revision => ?_)
    refine .seq (quiet_rebuildDataAuthority.ensures (fun s hs => hs.1)) ?_
    refine .seq (ensures_saveRecord (Ψ := fun _ => True) (fun m hm => ?_) (fun _ _ => trivial)) ?_
    · obtain ⟨r', hr', hstate⟩ := hm
      rw [hr', map_some, hstate]
      rfl
    · exact .seq (ensures_render.pre (fun s hs => hs.1)) .done

lemma ensures_revoke : Reaching s₀ (revoke env svn now clientID reason) :=
  .checked (fun _ _ => .checked
    (fun _ _ => ensures_withServiceWorkingCopy ensures_revokeClient_reaches (fun _ hs => hs)))

lemma ensures_closeRealm_reaches : Reaching s₀ (closeRealm env now realmID reason) := by
  refine reaching_read (fun s₁ => ?_)
  refine .checked (fun records hrecords => ?_)
  obtain ⟨_, rfl⟩ := recordsLocked_ok.mp hrecords
  have hloop := Ensures.foldlM (R := Reaches s₀) (J := fun done _ => On s₀ (Untouched s₁.records done))
    (f := closeRecord now realmID reason) (l := sortedRecords s₁.records) (fun done e rest hl targets => ?_) []
  · refine .bind (.pre hloop (fun s hs => ⟨hs.1, fun k _ => by rw [hs.2]⟩)) (fun targets => ?_)
    exact .seq (ensures_render.pre (fun s hs => hs.1)) .done
  · rw [closeRecord]
    split
    · exact .pure (fun s hs => ⟨hs.1, hs.2.next⟩)
    · refine .checked (fun next hnext => ?_)
      obtain ⟨_, hrecord, hwrite⟩ := closed_ok hnext
      rw [hrecord, hwrite]
      refine .seq (Q := On s₀ (Untouched s₁.records (done ++ [e]))) (.onlyIf_of (fun hlive => ?_)
        (fun _ s hs => ⟨hs.1, hs.2.next⟩)) .done
      rw [if_pos hlive]
      refine ensures_saveRecord (fun m hm => ?_) (fun m hm => hm.insert)
      rw [hm.current hl, map_some]
      exact allowed_closing hlive

lemma ensures_revokeRealm_reaches : Reaching s₀ (revokeRealm env svn now realmID reason) := by
  refine .checked (fun _ _ => .checked (fun reason' _ => ?_))
  refine .bind ensures_closeRealm_reaches (fun targets => .seq ?_ .done)
  exact .each (fun clientID _ => .seq ensures_revoke .done)

variable {P : Host → Prop}

abbrev KeepsKeys {α : Type} (env : Env) (P : Host → Prop) (m : Op α) : Prop :=
  Ensures P m (fun _ => KeysExact env) (fun _ => True)

lemma keys_render : KeepsKeys env P (renderAccess env) :=
  Ensures.conseq (P := fun _ => True) (ensures_renderAccess (fun _ _ _ _ => trivial) (fun _ _ => trivial)) (fun _ _ => trivial)
    (fun _ _ hs => hs.2.2.2)

lemma keys_stage : KeepsKeys env P (stage env now grant) := by
  refine .checked (fun canonical _ => ?_)
  refine .seq .any (.seq .any (.seq .any ?_))
  refine .read_bind (fun s₁ => ?_)
  cases s₁.records.lookup grant.operationID with
  | none =>
    refine .checked (fun _ _ => .checked (fun _ _ => ?_))
    exact .seq .any keys_render
  | some r => exact .checked (fun _ _ => .checked (fun _ _ => keys_render))

lemma keys_cleanupExpired : KeepsKeys env P (cleanupExpired env now) := .seq .any keys_render

lemma keys_proof : KeepsKeys env (KeysExact env) (recordProofLocked env now op clientID) :=
  (ensures_recordProofLocked (fun _ _ hs => hs) (fun _ _ => trivial)).post (fun _ _ hs => hs.1)

lemma keys_recordProof : KeepsKeys env (KeysExact env) (recordProof env now op clientID) :=
  .checked (fun _ _ => .except (fun _ _ => trivial) (fun _ _ => .seq keys_proof .done))

lemma keys_claimSession : KeepsKeys env (KeysExact env) (claimSession env now op clientID) := by
  refine .checked (fun _ _ => .checked (fun _ _ => ?_))
  refine .seq (.command (fun _ _ => trivial)) (.bind keys_proof (fun r => ?_))
  refine .checked (fun _ _ => .seq (.command (fun _ _ => trivial)) ?_)
  exact .seq (Q := KeysExact env) (.update (fun _ hs => hs)) .done

lemma keys_publish :
    Ensures (fun s => (∀ r, s.records.lookup grant.operationID = some r → r.state ≠ .active) ∨ KeysExact env s)
      (publish env svn now grant) (fun _ => KeysExact env) (fun _ => True) := by
  refine .checked (fun canonical _ => ensures_withServiceWorkingCopy ?_ (fun _ _ => trivial))
  refine .read_bind (fun s₁ => .checked (fun r hr => ?_))
  obtain ⟨hr, _⟩ := readRecord_ok.mp hr
  split
  · rename_i hactive
    refine .pure (fun s hs => ?_)
    obtain ⟨hs, rfl⟩ := hs
    exact hs.resolve_left (fun hnever => hnever r hr hactive.1)
  · refine .checked (fun _ _ => .checked (fun _ _ => ?_))
    refine .bind .any (fun _ => .bind .any (fun _ => .bind .any (fun _ => ?_)))
    exact .seq keys_render .done

lemma keys_revoke :
    Ensures (fun s => (∀ op r, s.records.lookup op = some r → r.clientID = clientID → r.state ≠ .revoked) ∨ KeysExact env s)
      (revoke env svn now clientID reason) (fun _ => KeysExact env) (fun _ => True) := by
  refine .checked (fun _ _ => .checked (fun reason' _ => ?_))
  refine ensures_withServiceWorkingCopy ?_ (fun _ _ => trivial)
  refine .read_bind (fun s₁ => .checked (fun records hrecords => ?_))
  obtain ⟨_, rfl⟩ := recordsLocked_ok.mp hrecords
  refine .checked (fun e he => ?_)
  have hselects := selectClient_ok.mp he
  split
  · rename_i hrevoked
    refine .checked (fun _ _ => .pure (fun s hs => ?_))
    obtain ⟨hs, rfl⟩ := hs
    exact hs.resolve_left (fun hnever => hnever e.1 e.2 hselects.found hselects.client hrevoked)
  · refine .checked (fun next _ => ?_)
    refine .bind .any (fun _ => .bind .any (fun _ => .bind .any (fun _ => ?_)))
    refine .seq .any (.seq .any ?_)
    exact .seq keys_render .done

lemma keys_closeRealm : KeepsKeys env P (closeRealm env now realmID reason) := by
  refine .read_bind (fun s₁ => .checked (fun records _ => ?_))
  exact .bind .any (fun _ => .bind keys_render (fun _ => .done))

lemma keys_revokeRealm : KeepsKeys env P (revokeRealm env svn now realmID reason) := by
  refine .checked (fun _ _ => .checked (fun reason' _ => ?_))
  refine .bind keys_closeRealm (fun targets => .seq (Q := KeysExact env) ?_ .done)
  refine .fails (R := fun _ => True) (.each (fun clientID _ => ?_)) (fun _ h => h)
  exact .seq (.pre keys_revoke (fun _ hs => .inr hs)) .done

inductive Event
  | stage (now : Time) (grant : Grant) (script : List Write)
  | recordProof (now : Time) (operationID clientID : Str) (script : List Write)
  | claimSession (now : Time) (operationID clientID : Str) (script : List Write)
  | publish (svn : Revisions) (now : Time) (grant : Grant) (script : List Write)
  | revoke (svn : Revisions) (now : Time) (clientID reason : Str) (script : List Write)
  | closeRealm (now : Time) (realmID reason : Str) (script : List Write)
  | revokeRealm (svn : Revisions) (now : Time) (realmID reason : Str) (script : List Write)
  | cleanupExpired (now : Time) (script : List Write)

def finish {α : Type} (x : Except (Stop Str) α × Host × List Write) : Bool × Host := (x.1.toOption.isSome, x.2.1)

def Event.perform (env : Env) (s : Host) : Event → Bool × Host
  | .stage now grant script => finish (Activation.stage env now grant s script)
  | .recordProof now op client script => finish (Activation.recordProof env now op client s script)
  | .claimSession now op client script => finish (Activation.claimSession env now op client s script)
  | .publish svn now grant script => finish (Activation.publish env svn now grant s script)
  | .revoke svn now client reason script => finish (Activation.revoke env svn now client reason s script)
  | .closeRealm now realm reason script => finish (Activation.closeRealm env now realm reason s script)
  | .revokeRealm svn now realm reason script => finish (Activation.revokeRealm env svn now realm reason s script)
  | .cleanupExpired now script => finish (Activation.cleanupExpired env now s script)

def step (env : Env) (s : Host) (e : Event) : Host := (e.perform env s).2

def Event.renders (s : Host) : Event → Prop
  | .recordProof .. => False
  | .claimSession .. => False
  | .publish _ _ grant _ => ∀ r, s.records.lookup grant.operationID = some r → r.state ≠ .active
  | .revoke _ _ clientID _ _ => ∀ op r, s.records.lookup op = some r → r.clientID = clientID → r.state ≠ .revoked
  | _ => True

lemma finish_ensures {α : Type} {mα : Op α} {Q R : Host → Prop} (h : Ensures P mα (fun _ => Q) R) (hs : P s)
    (script : List Write) (hok : (finish (mα s script)).1 = true) : Q (finish (mα s script)).2 := by
  obtain ⟨a, ha⟩ := isSome_iff_exists.mp hok
  have hresult : (mα s script).1 = .ok a := by
    revert ha
    cases (mα s script).1 with
    | error e => simp [Except.toOption]
    | ok b => simp [Except.toOption]
  exact h.of_run hs (run_eq_of_result hresult)

lemma step_reaches (e : Event) : Reaches s (step env s e) := by
  have hstart : Reaches s s := .refl
  cases e with
  | stage now grant script => exact ensures_stage.final hstart script
  | recordProof now op client script => exact ensures_recordProof.final hstart script
  | claimSession now op client script => exact ensures_claimSession.final hstart script
  | publish svn now grant script => exact ensures_publish.final hstart script
  | revoke svn now client reason script => exact ensures_revoke.final hstart script
  | closeRealm now realm reason script => exact ensures_closeRealm_reaches.final hstart script
  | revokeRealm svn now realm reason script => exact ensures_revokeRealm_reaches.final hstart script
  | cleanupExpired now script => exact ensures_cleanupExpired.final hstart script

lemma step_keysExact {e : Event} (hok : (e.perform env s).1 = true) (h : e.renders s ∨ KeysExact env s) :
    KeysExact env (step env s e) := by
  cases e with
  | stage now grant script => exact finish_ensures (keys_stage (P := fun _ => True)) trivial script hok
  | recordProof now op client script => exact finish_ensures keys_recordProof (h.resolve_left id) script hok
  | claimSession now op client script => exact finish_ensures keys_claimSession (h.resolve_left id) script hok
  | publish svn now grant script => exact finish_ensures keys_publish h script hok
  | revoke svn now client reason script => exact finish_ensures keys_revoke h script hok
  | closeRealm now realm reason script => exact finish_ensures (keys_closeRealm (P := fun _ => True)) trivial script hok
  | revokeRealm svn now realm reason script => exact finish_ensures (keys_revokeRealm (P := fun _ => True)) trivial script hok
  | cleanupExpired now script => exact finish_ensures (keys_cleanupExpired (P := fun _ => True)) trivial script hok

lemma run_reaches (es : List Event) : Reaches s (run (step env) s es) := by
  induction es generalizing s with
  | nil => exact .refl
  | cons e es ih => exact (step_reaches e).trans ih

/-- States only move forward, a successful operation leaves exactly the keys of the live records if it renders and
keeps that otherwise, and a closed record admits no session. -/
theorem activation_lifecycle (env : Env) (s : Host) (es : List Event) :
    (∀ move ∈ (run (step env) s es).moves, move ∈ s.moves ∨ allowed move.old move.new = true) ∧
    (∀ pre e, pre ++ [e] <+: es → (e.perform env (run (step env) s pre)).1 = true →
      e.renders (run (step env) s pre) ∨ KeysExact env (run (step env) s pre) → KeysExact env (run (step env) s (pre ++ [e]))) ∧
    ∀ pre, pre <+: es → ∀ op r, (run (step env) s pre).records.lookup op = some r → r.state.closed = true →
      sessionsOf op (run (step env) s es) = sessionsOf op (run (step env) s pre) := by
  refine ⟨(run_reaches es).moves, fun pre e _ hok h => ?_, fun pre hpre op r hr hclosed => ?_⟩
  · rw [run_append]
    exact step_keysExact hok h
  · obtain ⟨rest, rfl⟩ := hpre
    rw [run_append]
    exact ((run_reaches rest).shut ⟨r, hr, hclosed⟩).2

/-- The process dies before rendering; the next proof succeeds with the expired key in place. -/
theorem proof_leaves_stale_key :
    (run (step sampleEnv) activated [.stage 3 (installation phone 5) (List.replicate 60 .done), .cleanupExpired 6 [.done]]).records.lookup
      phone = some { stagedRecord (installation phone 5) (phone ++ " installation") 3 with state := .expired } ∧
    ((Event.recordProof 7 laptop laptop [.done]).perform sampleEnv (run (step sampleEnv) activated
      [.stage 3 (installation phone 5) (List.replicate 60 .done), .cleanupExpired 6 [.done]])).1 = true ∧
    (run (step sampleEnv) activated [.stage 3 (installation phone 5) (List.replicate 60 .done), .cleanupExpired 6 [.done],
      .recordProof 7 laptop laptop [.done]]).keys.map KeyLine.clientID = [laptop, phone] := by
  decide +kernel

end FileES.Activation
