import FileES.Activation.Manager

/-! Rules for the parts that the operations of the activation manager share. -/

namespace FileES.Activation

open Go Lib.Calls Lib.Effects Lib.Fallible Lib.Maps List Option AList

variable {env : Env} {svn : Revisions} {m : Records} {l : List (Sigma fun _ : Str => Record)} {op clientID : Str} {r : Record}

lemma readFile_ok {r' : Record} : readFile env op r = .ok r' ↔ readable env op r = true ∧ r' = r := by
  rw [readFile, bind_ok]
  constructor
  · rintro ⟨_, hread, hr⟩
    cases hr
    exact ⟨require_ok.mp hread, rfl⟩
  · rintro ⟨hread, rfl⟩
    exact ⟨(), require_ok.mpr hread, rfl⟩

variable {s : Host} {e : Sigma fun _ : Str => Record}

lemma readRecord_ok : readRecord env s op = .ok r ↔ s.records.lookup op = some r ∧ readable env op r = true := by
  rw [readRecord]
  cases hr : s.records.lookup op with
  | none => simp
  | some r₀ =>
    dsimp only
    rw [readFile_ok, some.injEq]
    constructor
    · rintro ⟨hread, rfl⟩
      exact ⟨rfl, hread⟩
    · rintro ⟨rfl, hread⟩
      exact ⟨hread, rfl⟩

def Readable (env : Env) (m : Records) : Prop := ∀ op r, m.lookup op = some r → readable env op r = true

def sortedRecords (m : Records) : List (Sigma fun _ : Str => Record) :=
  m.entries.insertionSort (fun e e' => e.2.clientID ≤ e'.2.clientID)

lemma recordsLocked_ok : recordsLocked env m = .ok l ↔ Readable env m ∧ l = sortedRecords m := by
  have hread : ∀ e : Sigma fun _ : Str => Record, readable env e.1 e.2 = true →
      (do let r ← readFile env e.1 e.2; pure ⟨e.1, r⟩ : Except Str (Sigma fun _ : Str => Record)) = .ok (id e) :=
    fun e he => bind_ok.mpr ⟨e.2, readFile_ok.mpr ⟨he, rfl⟩, rfl⟩
  rw [recordsLocked, bind_ok]
  constructor
  · rintro ⟨entries, hentries, hl⟩
    have hall : ∀ e ∈ m.entries, readable env e.1 e.2 = true := by
      intro e he
      obtain ⟨e', _, he'⟩ := exists_of_mapM_eq_ok hentries he
      obtain ⟨r, hr, _⟩ := bind_ok.mp he'
      exact (readFile_ok.mp hr).1
    rw [mapM_eq_ok_map (fun e he => hread e (hall e he)), List.map_id, Except.ok.injEq] at hentries
    cases hl
    rw [← hentries]
    exact ⟨fun op r hr => hall ⟨op, r⟩ (mem_entries_iff.mpr hr), rfl⟩
  · rintro ⟨hall, rfl⟩
    refine ⟨m.entries, ?_, rfl⟩
    rw [mapM_eq_ok_map (fun e he => hread e (hall e.1 e.2 (mem_entries_iff.mp he))), List.map_id]

lemma mem_sortedRecords : e ∈ sortedRecords m ↔ m.lookup e.1 = some e.2 := by
  rw [sortedRecords, mem_insertionSort, mem_entries_iff]

lemma sortedRecords_nodup : ((sortedRecords m).map Sigma.fst).Nodup := by
  rw [sortedRecords, (perm_insertionSort _ _).map Sigma.fst |>.nodup_iff]
  exact m.keys_nodup

lemma sortedRecords_current {done rest : List (Sigma fun _ : Str => Record)}
    (hl : sortedRecords m = done ++ e :: rest) : m.lookup e.1 = some e.2 ∧ e.1 ∉ done.map Sigma.fst := by
  have hnodup : ((sortedRecords m).map Sigma.fst).Nodup := sortedRecords_nodup
  rw [hl, map_append, map_cons] at hnodup
  exact ⟨mem_sortedRecords.mp (by rw [hl]; simp), fun hmem => disjoint_of_nodup_append hnodup hmem (by simp)⟩

lemma lookup_putRecord {k : Str} :
    (s.putRecord op r).records.lookup k = if k = op then some r else s.records.lookup k := by
  rw [Host.putRecord]
  split
  · rename_i hk
    rw [hk, lookup_insert]
  · rename_i hk
    exact lookup_insert_ne hk

structure Selects (m : Records) (clientID op : Str) (r : Record) : Prop where
  found : m.lookup op = some r
  client : r.clientID = clientID
  only : ∀ op' r', m.lookup op' = some r' → r'.clientID = clientID → op' = op

lemma selectClient_ok : selectClient clientID (sortedRecords m) = .ok e ↔ Selects m clientID e.1 e.2 := by
  have hmem : ∀ e : Sigma fun _ : Str => Record, e ∈ (sortedRecords m).filter (fun e => e.2.clientID = clientID) ↔
      m.lookup e.1 = some e.2 ∧ e.2.clientID = clientID := by
    intro e
    rw [mem_filter, mem_sortedRecords, decide_eq_true_eq]
  have hnodup : (((sortedRecords m).filter (fun e => e.2.clientID = clientID)).map Sigma.fst).Nodup :=
    sortedRecords_nodup.sublist (filter_sublist.map Sigma.fst)
  rw [selectClient]
  generalize (sortedRecords m).filter (fun e => e.2.clientID = clientID) = found at hmem hnodup
  match found with
  | [] =>
    refine ⟨fun h => (by cases h), fun h => ?_⟩
    cases (hmem e).mpr ⟨h.found, h.client⟩
  | [e₀] =>
    simp only [mem_singleton] at hmem
    constructor
    · intro h
      cases h
      obtain ⟨hfound, hclient⟩ := (hmem e).mp rfl
      exact ⟨hfound, hclient, fun op' r' hr' hc => congrArg Sigma.fst ((hmem ⟨op', r'⟩).mpr ⟨hr', hc⟩)⟩
    · intro h
      rw [(hmem e).mpr ⟨h.found, h.client⟩]
  | e₀ :: e₁ :: rest =>
    refine ⟨fun h => (by cases h), fun h => ?_⟩
    have h₀ := (hmem e₀).mp (by simp)
    have h₁ := (hmem e₁).mp (by simp)
    have heq : e₀.1 = e₁.1 := (h.only e₀.1 e₀.2 h₀.1 h₀.2).trans (h.only e₁.1 e₁.2 h₁.1 h₁.2).symm
    rw [map_cons, map_cons, nodup_cons] at hnodup
    exact absurd (by simp [heq]) hnodup.1

def Renders (env : Env) (m : Records) : Prop := ∀ op r, m.lookup op = some r → r.live = true → ∃ line, keyLine env op r = .ok line

def KeysExact (env : Env) (s : Host) : Prop :=
  ∀ line, line ∈ s.keys ↔ ∃ op r, s.records.lookup op = some r ∧ r.live = true ∧ keyLine env op r = .ok line

lemma keyLine_operationID {line : KeyLine} (h : keyLine env op r = .ok line) : line.operationID = op := by
  rw [keyLine.eq_def] at h
  split at h
  · cases h
  · obtain ⟨_, _, hline⟩ := bind_ok.mp h
    cases hline
    rfl

lemma authorizedKeys_ok {keys : List KeyLine} (h : authorizedKeys env (sortedRecords m) = .ok keys) : Renders env m ∧
    ∀ line, line ∈ keys ↔ ∃ op r, m.lookup op = some r ∧ r.live = true ∧ keyLine env op r = .ok line := by
  have hmem : ∀ e : Sigma fun _ : Str => Record, e ∈ (sortedRecords m).filter (fun e => e.2.live) ↔
      m.lookup e.1 = some e.2 ∧ e.2.live = true := by
    intro e
    rw [mem_filter, mem_sortedRecords]
  constructor
  · intro op r hr hlive
    obtain ⟨line, _, hline⟩ := exists_of_mapM_eq_ok h ((hmem ⟨op, r⟩).mpr ⟨hr, hlive⟩)
    exact ⟨line, hline⟩
  · intro line
    rw [mem_of_mapM_eq_ok h]
    constructor
    · rintro ⟨e, he, hline⟩
      exact ⟨e.1, e.2, ((hmem e).mp he).1, ((hmem e).mp he).2, hline⟩
    · rintro ⟨op, r, hr, hlive, hline⟩
      exact ⟨⟨op, r⟩, (hmem ⟨op, r⟩).mpr ⟨hr, hlive⟩, hline⟩

def Rendered (env : Env) (s : Host) : Prop := Readable env s.records ∧ Renders env s.records ∧ KeysExact env s

def Unrendered (Φ : Host → Prop) : Prop := ∀ s keys authz, Φ s → Φ { s with keys := keys, authz := authz }

variable {P R : Host → Prop}

lemma ensures_renderAccess (hP : Unrendered P) (hR : ∀ s, P s → R s) :
    Ensures P (renderAccess env) (fun _ s => P s ∧ Rendered env s) R := by
  intro s as hs
  refine Ensures.read_bind (P := fun s' => s' = s) (fun s₀ => ?_) s as rfl
  refine Ensures.except (fun s' hs' => hR s' (hs'.1 ▸ hs)) (fun records hrecords => ?_)
  refine .except (fun s' hs' => hR s' (hs'.1 ▸ hs)) (fun keys hkeys => ?_)
  obtain ⟨hread, rfl⟩ := recordsLocked_ok.mp hrecords
  obtain ⟨hrenders, hexact⟩ := authorizedKeys_ok hkeys
  refine .seq (Q := fun s' => P s' ∧ Rendered env s') (.save (fun s' hs' => hR s' (hs'.1 ▸ hs))
    (fun s' hs' => ?_) (fun s' hs' => ?_)) (.save (fun s' hs' => hR s' hs'.1) (fun s' hs' => ?_) (fun s' hs' => ?_))
  · obtain ⟨hsame, rfl⟩ := hs'
    exact ⟨hP s' keys s'.authz (hsame ▸ hs), hread, hrenders, hexact⟩
  · exact hR _ (hP s' keys s'.authz (hs'.1 ▸ hs))
  · exact ⟨hP s' s'.keys _ hs'.1, hs'.2⟩
  · exact hR _ (hP s' s'.keys _ hs'.1)

lemma completes_renderAccess (hP : Unrendered P)
    (hrecords : ∀ s, P s → Readable env s.records ∧ Renders env s.records) : Completes .done P (renderAccess env) (fun _ => P) := by
  refine .read_bind (fun s₀ hs₀ => ?_)
  obtain ⟨hread, hrenders⟩ := hrecords s₀ hs₀
  obtain ⟨keys, hkeys⟩ : ∃ keys, authorizedKeys env (sortedRecords s₀.records) = .ok keys := by
    refine exists_mapM_eq_ok (fun e he => ?_)
    rw [mem_filter, mem_sortedRecords] at he
    exact hrenders e.1 e.2 he.1 he.2
  refine .except (recordsLocked_ok.mpr ⟨hread, rfl⟩) (.except hkeys ?_)
  refine .seq (Q := P) (.save rfl (fun s hs => hP s keys s.authz hs.1))
    (.save rfl (fun s hs => hP s s.keys _ hs))

lemma live_iff : r.live = true ↔ r.state = .staged ∨ r.state = .active := by
  rw [Record.live, Bool.or_eq_true, decide_eq_true_eq, decide_eq_true_eq]

lemma ensures_recordProofLocked {now : Time} (hP : ∀ s receipts, P s → P { s with receipts := receipts })
    (hR : ∀ s, P s → R s) : Ensures P (recordProofLocked env now op clientID)
      (fun r s => P s ∧ s.records.lookup op = some r ∧ r.clientID = clientID ∧ r.live = true) R := by
  refine .read_bind (fun s₀ => .except (fun s hs => hR s hs.1) (fun r hr => ?_))
  obtain ⟨hr, _⟩ := readRecord_ok.mp hr
  split
  · rename_i hstaged
    refine .seq (Q := fun s => P s ∧ s.records.lookup op = some r) (.save (fun s hs => hR s hs.1) (fun s hs => ?_)
      (fun s hs => hR _ (hP s _ hs.1))) (.pure (fun s hs => ?_))
    · obtain ⟨hs, rfl⟩ := hs
      exact ⟨hP s _ hs, hr⟩
    · exact ⟨hs.1, hs.2, hstaged.1, live_iff.mpr (.inl hstaged.2.1)⟩
  · split
    · rename_i hactive
      refine .pure (fun s hs => ?_)
      obtain ⟨hs, rfl⟩ := hs
      exact ⟨hs, hr, hactive.1, live_iff.mpr (.inr hactive.2)⟩
    · exact .fail (fun s hs => hR s hs.1)

lemma quiet_svnInfo {path : ServicePath} {text : Str} : Quiet (svnInfo svn path text) :=
  .bind .command (fun _ => .bind .ofExcept (fun _ => .pure))

lemma quiet_reconcile : Quiet reconcileServiceWorkingCopy :=
  .bind .command (fun _ => .bind .command (fun _ => .bind .command (fun _ => .command)))

lemma quiet_publishServiceFiles : Quiet (publishServiceFiles env svn clientID) :=
  .bind .command (fun _ => .bind .command (fun _ => .bind .command (fun _ =>
    .bind (.onlyIf .command) (fun _ => .bind .command (fun _ => .bind .command (fun _ =>
      .bind .command (fun _ => quiet_svnInfo)))))))

lemma quiet_rebuildDataAuthority : Quiet (rebuildDataAuthority env) := .onlyIf .command

lemma quiet_publishGrants {revision : ℤ} : Quiet (publishGrants env svn clientID revision) := by
  rw [publishGrants]
  split
  · exact .bind quiet_rebuildDataAuthority (fun _ => .bind quiet_svnInfo (fun _ => .pure))
  · exact .pure

lemma quiet_publishRevocation : Quiet (publishRevocation svn op clientID) :=
  .bind .command (fun _ => .bind .command (fun _ => .bind .command (fun _ =>
    .bind .command (fun _ => .bind .command (fun _ => .bind quiet_svnInfo (fun _ =>
      .bind quiet_svnInfo (fun _ => .bind .ofExcept (fun _ => .pure))))))))

variable {α : Type} {Q : α → Host → Prop}

lemma ensures_withServiceWorkingCopy {m : Op α} (h : Ensures P m Q R) (hR : ∀ s, P s → R s) :
    Ensures P (withServiceWorkingCopy env m) Q R := by
  rw [withServiceWorkingCopy]
  split
  · exact h
  · refine .seq (quiet_reconcile.ensures hR) (.bind (.attempt_outcome h) (fun result => ?_))
    cases result with
    | ok a => exact .pure (fun s hs => hs)
    | error e =>
      refine .seq (Q := R) ?_ .failed
      exact .attempt (quiet_reconcile.ensures (fun s hs => hs)) (fun _ s hs => hs)

lemma completes_withServiceWorkingCopy {m : Op α} (h : Completes .done P m Q) :
    Completes .done P (withServiceWorkingCopy env m) Q := by
  have hcommand : ∀ text : Str, Completes .done P (command text : Op Unit) (fun _ => P) := fun text => .command rfl
  rw [withServiceWorkingCopy]
  split
  · exact h
  · refine .seq (.seq (hcommand _) (.bind (hcommand _) (fun _ =>
      .seq (hcommand _) (hcommand _)))) ?_
    refine .bind (.attempt h) (fun result s hs => ?_)
    obtain ⟨a, rfl, hs⟩ := hs
    exact Completes.pure (P := Q a) (fun s hs => hs) s hs

end FileES.Activation
