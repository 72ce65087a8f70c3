import FileES.Activation.Rules
import FileES.Go.Text

/-! When the revocation of a realm completes, and what it leaves of the realm's access. -/

namespace FileES.Activation

open Go Lib.Calls Lib.Effects Lib.Fallible List Option AList

variable {env : Env} {svn : Revisions} {now : Time} {realmID reason op clientID : Str} {m : Records} {r : Record} {s : Host}

def closeIn (now : Time) (realmID reason : Str) (r : Record) : Record :=
  if r.realmID = realmID ∧ r.live = true then closing now reason r else r

def Target (realmID : Str) (r : Record) : Prop := r.realmID = realmID ∧ r.state ≠ .revoked

instance (realmID : Str) (r : Record) : Decidable (Target realmID r) := inferInstanceAs (Decidable (_ ∧ _))

def Closable (reason : Str) (r : Record) : Prop :=
  r.live = true ∨ (r.state = .revoking ∧ r.revokeReason = reason ∧ r.revokedAt.isSome = true)

def retired (svn : Revisions) (operationID : Str) (r : Record) : Record :=
  { r with state := .revoked, serviceRevision := svn (.revokeAudit operationID) }

variable {text : Str}

lemma closed_ok {next : Record × Bool} (h : closed now reason text r = .ok next) :
    Closable reason r ∧ next.1 = (if r.live = true then closing now reason r else r) ∧ next.2 = r.live := by
  rw [closed] at h
  split at h
  · rename_i hlive
    cases h
    exact ⟨.inl hlive, by rw [if_pos hlive], hlive.symm⟩
  · rename_i hlive
    obtain ⟨_, hrequire, hnext⟩ := bind_ok.mp h
    cases hnext
    have hstate := require_ok.mp hrequire
    simp only [Bool.and_eq_true, decide_eq_true_eq] at hstate
    exact ⟨.inr ⟨hstate.1.1, hstate.1.2, hstate.2⟩, by rw [if_neg hlive], (Bool.not_eq_true _ ▸ hlive).symm⟩

lemma closed_of_closable (h : Closable reason r) :
    closed now reason text r = .ok (if r.live = true then closing now reason r else r, r.live) := by
  rw [closed]
  split
  · rename_i hlive
    rw [hlive]
  · rename_i hlive
    obtain ⟨hstate, hreason, hat⟩ := h.resolve_left hlive
    rw [Bool.not_eq_true] at hlive
    rw [hlive]
    exact bind_ok.mpr ⟨(), require_ok.mpr (by simp [hstate, hreason, hat]), rfl⟩

lemma closeIn_target (h : r.realmID = realmID) : closeIn now realmID reason r = if r.live = true then closing now reason r else r := by
  simp only [closeIn, h, true_and]

lemma closeIn_of_not_target (h : ¬ Target realmID r) : closeIn now realmID reason r = r := by
  rw [closeIn, if_neg]
  rintro ⟨hrealm, hlive⟩
  refine h ⟨hrealm, fun hrevoked => ?_⟩
  rcases live_iff.mp hlive with hstate | hstate <;> rw [hrevoked] at hstate <;> cases hstate

lemma closeIn_realmID : (closeIn now realmID reason r).realmID = r.realmID := by
  rw [closeIn]
  split <;> rfl

lemma closeIn_clientID : (closeIn now realmID reason r).clientID = r.clientID := by
  rw [closeIn]
  split <;> rfl

lemma closeIn_live : (closeIn now realmID reason r).live = true ↔ r.live = true ∧ r.realmID ≠ realmID := by
  rw [closeIn]
  split
  · rename_i h
    refine ⟨fun hlive => ?_, fun hlive => absurd h.1 hlive.2⟩
    cases hlive
  · rename_i h
    exact ⟨fun hlive => ⟨hlive, fun hrealm => h ⟨hrealm, hlive⟩⟩, fun hlive => hlive.1⟩

lemma closeIn_again (now : Time) (h : r.realmID = realmID) (hc : Closable reason r) :
    (closeIn now realmID reason r).live = false ∧ Closable reason (closeIn now realmID reason r) ∧
      (closeIn now realmID reason r).state = .revoking := by
  rw [closeIn_target h]
  split
  · exact ⟨rfl, .inr ⟨rfl, rfl, rfl⟩, rfl⟩
  · rename_i hlive
    exact ⟨by simpa using hlive, hc, (hc.resolve_left hlive).1⟩

structure Closing (now : Time) (realmID reason : Str) (m : Records) (done : List (Sigma fun _ : Str => Record))
    (targets : List Str) (s : Host) : Prop where
  records : ∀ op, s.records.lookup op =
    if op ∈ done.map Sigma.fst then (m.lookup op).map (closeIn now realmID reason) else m.lookup op
  targets : targets = (done.filter (fun e => Target realmID e.2)).map (fun e => e.2.clientID)
  closable : ∀ e ∈ done, Target realmID e.2 → Closable reason e.2

variable {done : List (Sigma fun _ : Str => Record)} {targets : List Str} {e : Sigma fun _ : Str => Record}

lemma Closing.unrendered : Unrendered (Closing now realmID reason m done targets) := fun _ _ _ hs => { hs with }

lemma Closing.next {s' : Host} (h : Closing now realmID reason m done targets s) (he : m.lookup e.1 = some e.2)
    (hs' : ∀ op, s'.records.lookup op = if op = e.1 then some (closeIn now realmID reason e.2) else s.records.lookup op)
    (hc : Target realmID e.2 → Closable reason e.2) :
    Closing now realmID reason m (done ++ [e]) (if Target realmID e.2 then targets ++ [e.2.clientID] else targets) s' := by
  refine ⟨fun op => ?_, ?_, fun e' he' => ?_⟩
  · rw [hs' op, h.records op]
    simp only [map_append, map_singleton, mem_append, mem_singleton]
    by_cases hop : op = e.1
    · rw [if_pos hop, if_pos (.inr hop), hop, he]
      rfl
    · simp only [hop, or_false, if_false]
  · rw [h.targets, filter_append]
    split
    · rename_i ht
      simp [ht]
    · rename_i ht
      simp [ht]
  · rcases mem_append.mp he' with he' | he'
    · exact h.closable e' he'
    · rw [mem_singleton.mp he']
      exact hc

lemma Closing.current {rest : List (Sigma fun _ : Str => Record)}
    (h : Closing now realmID reason m done targets s) (hl : sortedRecords m = done ++ e :: rest) :
    m.lookup e.1 = some e.2 ∧ s.records.lookup e.1 = some e.2 := by
  obtain ⟨he, hdone⟩ := sortedRecords_current hl
  exact ⟨he, by rw [h.records, if_neg hdone, he]⟩

variable {rest : List (Sigma fun _ : Str => Record)}

section

variable (h : Closing now realmID reason m done targets s) (hl : sortedRecords m = done ++ e :: rest)
include h hl

lemma Closing.skip (hsame : closeIn now realmID reason e.2 = e.2) (hc : Target realmID e.2 → Closable reason e.2) :
    Closing now realmID reason m (done ++ [e]) (if Target realmID e.2 then targets ++ [e.2.clientID] else targets) s := by
  obtain ⟨he, hcurrent⟩ := h.current hl
  refine h.next he (fun op => ?_) hc
  split
  · rename_i hop
    rw [hop, hcurrent, hsame]
  · rfl

lemma Closing.write (hc : Target realmID e.2 → Closable reason e.2) :
    Closing now realmID reason m (done ++ [e]) (if Target realmID e.2 then targets ++ [e.2.clientID] else targets)
      (s.putRecord e.1 (closeIn now realmID reason e.2)) :=
  h.next (h.current hl).1 (fun _ => lookup_putRecord) hc

end

lemma ensures_closeRecord (hl : sortedRecords m = done ++ e :: rest) :
    Ensures (Closing now realmID reason m done targets) (closeRecord now realmID reason targets e)
      (fun targets' => Closing now realmID reason m (done ++ [e]) targets') (fun _ => True) := by
  rw [closeRecord]
  split
  · rename_i hskip
    have ht : ¬ Target realmID e.2 := fun ht => hskip.elim (fun h => h ht.1) (fun h => ht.2 h)
    refine .pure (fun s hs => ?_)
    have := hs.skip hl (closeIn_of_not_target ht) (fun h => absurd h ht)
    rwa [if_neg ht] at this
  · rename_i hskip
    rw [not_or, not_not] at hskip
    have ht : Target realmID e.2 := ⟨hskip.1, hskip.2⟩
    refine .checked (fun next hnext => ?_)
    obtain ⟨hc, hrecord, hwrite⟩ := closed_ok hnext
    rw [← closeIn_target ht.1] at hrecord
    rw [hrecord, hwrite]
    refine .seq (Q := Closing now realmID reason m (done ++ [e]) (targets ++ [e.2.clientID]))
      (.onlyIf_of (fun _ => .save (fun _ _ => trivial) (fun s hs => ?_) (fun _ _ => trivial)) (fun hlive s hs => ?_))
      (.pure (fun s hs => hs))
    · have := hs.write hl (fun _ => hc)
      rwa [if_pos ht] at this
    · have := hs.skip hl (by rw [closeIn_target ht.1, if_neg (by simp [hlive])]) (fun _ => hc)
      rwa [if_pos ht] at this

lemma completes_closeRecord (hc : Target realmID e.2 → Closable reason e.2) :
    Completes .done (Closing now realmID reason m done targets) (closeRecord now realmID reason targets e) (fun _ _ => True) := by
  rw [closeRecord]
  split
  · exact .any
  · rename_i hskip
    rw [not_or, not_not] at hskip
    refine .except (closed_of_closable (hc ⟨hskip.1, hskip.2⟩)) ?_
    exact .seq (.onlyIf (.save rfl (fun _ _ => trivial))) .any

structure Closed (env : Env) (now : Time) (realmID reason : Str) (m : Records) (targets : List Str) (s : Host) : Prop where
  readable : Readable env m
  records : ∀ op, s.records.lookup op = (m.lookup op).map (closeIn now realmID reason)
  targets : targets = ((sortedRecords m).filter (fun e => Target realmID e.2)).map (fun e => e.2.clientID)
  closable : ∀ op r, m.lookup op = some r → Target realmID r → Closable reason r
  rendered : Rendered env s

lemma Closing.complete (h : Closing now realmID reason m (sortedRecords m) targets s) (op : Str) :
    s.records.lookup op = (m.lookup op).map (closeIn now realmID reason) := by
  rw [h.records op]
  split
  · rfl
  · rename_i hop
    cases hr : m.lookup op with
    | none => rfl
    | some r => exact absurd (mem_map.mpr ⟨⟨op, r⟩, mem_sortedRecords.mpr hr, rfl⟩) hop

lemma Closed.mem_targets (h : Closed env now realmID reason m targets s) : ∀ c ∈ targets, ∃ op r, m.lookup op = some r ∧
    Target realmID r ∧ r.clientID = c := by
  intro c hc
  rw [h.targets] at hc
  obtain ⟨e, he, rfl⟩ := mem_map.mp hc
  obtain ⟨he, ht⟩ := mem_filter.mp he
  exact ⟨e.1, e.2, mem_sortedRecords.mp he, by simpa using ht, rfl⟩

lemma ensures_closeRealm : Ensures (fun s => s.records = m) (closeRealm env now realmID reason)
    (fun targets => Closed env now realmID reason m targets) (fun _ => True) := by
  refine Ensures.read_bind (fun s₀ => ?_)
  refine .pre (P := fun s => s.records = m ∧ s₀.records = m) ?_ (fun s hs => ⟨hs.1, hs.2 ▸ hs.1⟩)
  refine .checked (fun records hrecords => ?_)
  intro s as hs
  rw [hs.2] at hrecords
  obtain ⟨hread, rfl⟩ := recordsLocked_ok.mp hrecords
  have hloop := Ensures.foldlM (R := fun _ => True) (J := fun done targets => Closing now realmID reason m done targets)
    (f := closeRecord now realmID reason) (l := sortedRecords m) (fun done e rest hl targets => ensures_closeRecord hl) []
  refine Ensures.bind hloop (fun targets => ?_) s as ⟨fun op => by simp [hs.1], rfl, by simp⟩
  refine Ensures.bind (ensures_renderAccess Closing.unrendered (fun _ _ => trivial)) (fun _ => Ensures.pure (fun s hs => ?_))
  exact ⟨hread, hs.1.complete, hs.1.targets, fun op r hr => hs.1.closable ⟨op, r⟩ (mem_sortedRecords.mpr hr), hs.2⟩

lemma completes_closeRealm (hread : Readable env m) (hc : ∀ op r, m.lookup op = some r → Target realmID r → Closable reason r)
    (hclosed : ∀ op r, m.lookup op = some r → readable env op (closeIn now realmID reason r) = true)
    (hothers : ∀ op r, m.lookup op = some r → r.realmID ≠ realmID → r.live = true → ∃ line, keyLine env op r = .ok line) :
    Completes .done (fun s => s.records = m) (closeRealm env now realmID reason) (fun _ _ => True) := by
  refine Completes.read_bind (fun s₀ hs₀ => ?_)
  refine .except (recordsLocked_ok.mpr ⟨by rw [hs₀]; exact hread, rfl⟩) ?_
  rw [hs₀]
  have hloop := Completes.foldlM (w := .done) (J := fun done targets => Closing now realmID reason m done targets)
    (f := closeRecord now realmID reason) (l := sortedRecords m) (fun done e rest hl targets => ?_) []
  · refine .bind (hloop.pre (fun s hs => ⟨fun op => by simp [hs.1], rfl, by simp⟩)) (fun targets => ?_)
    refine .seq (completes_renderAccess Closing.unrendered (fun s hs => ⟨fun op r hr => ?_, fun op r hr hlive => ?_⟩))
      .any
    · rw [hs.complete op] at hr
      obtain ⟨r₀, hr₀, rfl⟩ := map_eq_some_iff.mp hr
      exact hclosed op r₀ hr₀
    · rw [hs.complete op] at hr
      obtain ⟨r₀, hr₀, rfl⟩ := map_eq_some_iff.mp hr
      obtain ⟨hlive₀, hrealm⟩ := closeIn_live.mp hlive
      rw [closeIn, if_neg (fun h => hrealm h.1)]
      exact hothers op r₀ hr₀ hrealm hlive₀
  · exact (completes_closeRecord (hc e.1 e.2 (mem_sortedRecords.mp (by rw [hl]; simp)))).ensuring (ensures_closeRecord hl)

variable {P R : Host → Prop}

lemma ensures_svnInfo {path : ServicePath} (hR : ∀ s, P s → R s) :
    Ensures P (svnInfo svn path text) (fun revision s => revision = svn path ∧ P s) R :=
  .seq (.command hR) (.except hR (fun _ _ => .pure (fun _ hs => ⟨rfl, hs⟩)))

lemma ensures_publishRevocation (hR : ∀ s, P s → R s) : Ensures P (publishRevocation svn op clientID)
    (fun revision s => revision = svn (.revokeAudit op) ∧ P s) R := by
  have hcommand : ∀ text : Str, Ensures P (command text : Op Unit) (fun _ => P) R := fun text => .command hR
  refine .seq (hcommand _) (.seq (hcommand _) (.bind (hcommand _) (fun _ =>
    .seq (hcommand _) (.seq (hcommand _) ?_))))
  refine .bind (quiet_svnInfo.ensures hR) (fun client => .bind (ensures_svnInfo hR) (fun audit => ?_))
  exact .except (fun s hs => hR s hs.2) (fun _ _ => .pure (fun _ hs => hs))

lemma completes_publishRevocation (hclient : 0 < svn (.client clientID))
    (hsame : svn (.revokeAudit op) = svn (.client clientID)) : Completes .done P (publishRevocation svn op clientID) (fun _ => P) := by
  have hcommand : ∀ text : Str, Completes .done P (command text : Op Unit) (fun _ => P) := fun text => .command rfl
  have hinfo : ∀ {path : ServicePath} {text : Str}, 0 < svn path →
      Completes .done P (svnInfo svn path text) (fun revision s => revision = svn path ∧ P s) := by
    intro path text hpath
    refine .seq (hcommand _) (.except (a := ()) (require_ok.mpr (by simpa using hpath)) ?_)
    exact .pure (fun s hs => ⟨rfl, hs⟩)
  refine .seq (hcommand _) (.seq (hcommand _) (.bind (hcommand _) (fun _ =>
    Completes.bind (hcommand _) (fun _ => .seq (hcommand _) ?_))))
  refine .bind (hinfo hclient) (fun client s hs => ?_)
  obtain ⟨rfl, hs⟩ := hs
  refine Completes.bind (hinfo (hsame ▸ hclient)) (fun audit s hs => ?_) s hs
  obtain ⟨rfl, hs⟩ := hs
  refine Completes.except (a := ()) (require_ok.mpr (by simp [hsame])) ?_ s hs
  exact Completes.pure (fun s hs => hs)

structure Revokes (env : Env) (svn : Revisions) (now : Time) (reason : Str) (m : Records) (op : Str) (r : Record)
    (s : Host) : Prop where
  closable : Closable reason r
  records : ∀ k, s.records.lookup k =
    if k = op then some (retired svn op (if r.live = true then closing now reason r else r)) else m.lookup k
  rendered : Rendered env s

lemma ensures_revokeClient : Ensures (fun s => s.records = m ∧ KeysExact env s) (revokeClient env svn now clientID reason)
    (fun _ s => ∃ op r, Selects m clientID op r ∧
      ((r.state = .revoked ∧ s.records = m ∧ KeysExact env s) ∨ (r.state ≠ .revoked ∧ Revokes env svn now reason m op r s)))
    (fun _ => True) := by
  refine .read_bind (fun s₀ => ?_)
  refine .checked (fun records hrecords => ?_)
  obtain ⟨_, rfl⟩ := recordsLocked_ok.mp hrecords
  refine .checked (fun e he => ?_)
  have hselects := selectClient_ok.mp he
  split
  · rename_i hstate
    refine .checked (fun _ _ => .pure (fun s hs => ?_))
    obtain ⟨⟨hm, hkeys⟩, rfl⟩ := hs
    exact ⟨e.1, e.2, hm ▸ hselects, .inl ⟨hstate, hm, hkeys⟩⟩
  · rename_i hstate
    refine .checked (fun next hnext => ?_)
    obtain ⟨hclosable, hrecord, hwrite⟩ := closed_ok hnext
    refine .seq (Q := fun s => s₀.records = m ∧ ∀ k, k ≠ e.1 → s.records.lookup k = m.lookup k)
      (.onlyIf_of (fun _ => .save (fun _ _ => trivial) (fun s hs => ?_) (fun _ _ => trivial)) (fun _ s hs => ?_)) ?_
    · obtain ⟨⟨hm, _⟩, rfl⟩ := hs
      exact ⟨hm, fun k hk => by rw [lookup_putRecord, if_neg hk, hm]⟩
    · obtain ⟨⟨hm, _⟩, rfl⟩ := hs
      exact ⟨hm, fun k _ => by rw [hm]⟩
    refine .seq (ensures_renderAccess (fun _ _ _ hs => hs) (fun _ _ => trivial)) ?_
    refine .bind (ensures_publishRevocation (fun _ _ => trivial)) (fun revision => ?_)
    refine .seq (quiet_rebuildDataAuthority.ensures (fun _ _ => trivial)) ?_
    refine .seq (Q := fun s => s₀.records = m ∧ ∀ k, s.records.lookup k =
      if k = e.1 then some (retired svn e.1 (if e.2.live = true then closing now reason e.2 else e.2)) else m.lookup k)
      (.save (fun _ _ => trivial) (fun s hs => ?_) (fun _ _ => trivial)) ?_
    · obtain ⟨rfl, ⟨hm, hothers⟩, _⟩ := hs
      refine ⟨hm, fun k => ?_⟩
      rw [lookup_putRecord, ← hrecord]
      by_cases hk : k = e.1
      · rw [if_pos hk, if_pos hk]
        rfl
      · rw [if_neg hk, if_neg hk]
        exact hothers k hk
    · refine .seq (ensures_renderAccess (fun _ _ _ hs => hs) (fun _ _ => trivial)) (.pure (fun s hs => ?_))
      obtain ⟨⟨hm, hlookup⟩, hrendered⟩ := hs
      exact ⟨e.1, e.2, hm ▸ hselects, .inr ⟨hstate, hclosable, hlookup, hrendered⟩⟩

lemma completes_revokeClient (hselects : Selects m clientID op r) (hstate : r.state = .revoking)
    (hclosable : Closable reason r) (hclient : 0 < svn (.client clientID))
    (hsame : svn (.revokeAudit op) = svn (.client clientID)) (hm : Readable env m ∧ Renders env m)
    (hretired : Readable env (m.insert op (retired svn op r)) ∧ Renders env (m.insert op (retired svn op r))) :
    Completes .done (fun s => s.records = m) (revokeClient env svn now clientID reason) (fun _ _ => True) := by
  have hlive : r.live = false := by rw [Record.live, hstate]; rfl
  refine .read_bind (fun s₀ hs₀ => ?_)
  refine .except (recordsLocked_ok.mpr ⟨by rw [hs₀]; exact hm.1, rfl⟩) ?_
  rw [hs₀]
  have hselected : selectClient clientID (sortedRecords m) = .ok ⟨op, r⟩ := selectClient_ok.mpr hselects
  refine .except hselected ?_
  rw [if_neg (by rw [hstate]; decide)]
  refine .except (closed_of_closable hclosable) ?_
  rw [hlive, if_neg (by decide)]
  refine .pre (P := fun s => s.records = m) ?_ (fun s hs => hs.1)
  refine .seq (Q := fun s => s.records = m) (.done) ?_
  refine .seq (completes_renderAccess (fun _ _ _ hs => hs) (fun s hs => by rw [hs]; exact hm)) ?_
  have hpublish : Completes .done (fun s => s.records = m) (publishRevocation svn op r.clientID)
      (fun revision s => revision = svn (.revokeAudit op) ∧ s.records = m) := by
    rw [hselects.client]
    exact ((completes_publishRevocation hclient hsame).post (fun _ _ _ => trivial)).ensuring
      (ensures_publishRevocation (fun _ _ => trivial))
  refine .bind hpublish (fun revision s hs => ?_)
  obtain ⟨rfl, hs⟩ := hs
  refine Completes.bind (P := fun s => s.records = m) (Q := fun _ s => s.records = m) ?_ (fun _ => ?_) s hs
  · exact ((Completes.onlyIf (Completes.post (Completes.command rfl) (fun _ _ _ => trivial))).ensuring
      (quiet_rebuildDataAuthority.ensures (fun _ _ => trivial)))
  · refine .seq (Q := fun s => s.records = m.insert op (retired svn op r)) (.save rfl (fun s hs => ?_)) ?_
    · rw [Host.putRecord, hs]
      rfl
    · refine .seq (completes_renderAccess (fun _ _ _ hs => hs) (fun s hs => by rw [hs]; exact hretired)) ?_
      exact .any

def settled (svn : Revisions) (now : Time) (realmID reason : Str) (done : List Str) (operationID : Str) (r : Record) :
    Record :=
  if Target realmID r ∧ r.clientID ∈ done then retired svn operationID (closeIn now realmID reason r) else closeIn now realmID reason r

variable {done rest : List Str}

lemma settled_clientID : (settled svn now realmID reason done op r).clientID = r.clientID := by
  rw [settled]
  split <;> exact closeIn_clientID

lemma settled_realmID : (settled svn now realmID reason done op r).realmID = r.realmID := by
  rw [settled]
  split <;> exact closeIn_realmID

lemma settled_live : (settled svn now realmID reason done op r).live = true ↔ r.live = true ∧ r.realmID ≠ realmID := by
  rw [settled]
  split
  · rename_i h
    refine ⟨fun hlive => ?_, fun hlive => absurd h.1.1 hlive.2⟩
    cases hlive
  · exact closeIn_live

def Settled (svn : Revisions) (now : Time) (realmID reason : Str) (m : Records) (done : List Str) (m' : Records) : Prop :=
  ∀ k, m'.lookup k = (m.lookup k).map (settled svn now realmID reason done k)

def Unique (m : Records) (op : Str) (r : Record) : Prop := ∀ op' r', m.lookup op' = some r' → r'.clientID = r.clientID → op' = op

variable {m' : Records}

lemma Settled.insert (h : Settled svn now realmID reason m done m') (hr : m.lookup op = some r)
    (ht : Target realmID r) (honly : Unique m op r) {m'' : Records}
    (hm'' : ∀ k, m''.lookup k = if k = op then some (retired svn op (closeIn now realmID reason r)) else m'.lookup k) :
    Settled svn now realmID reason m (done ++ [r.clientID]) m'' := by
  intro k
  rw [hm'' k]
  split
  · rename_i hk
    rw [hk, hr, map_some, settled, if_pos ⟨ht, by simp⟩]
  · rename_i hk
    rw [h k]
    cases hr' : m.lookup k with
    | none => rfl
    | some r' =>
      have hclient : r'.clientID ≠ r.clientID := fun hc => hk (honly k r' hr' hc)
      simp [settled, hclient]

structure Settling (env : Env) (svn : Revisions) (now : Time) (realmID reason : Str) (m : Records) (done : List Str)
    (s : Host) : Prop where
  records : Settled svn now realmID reason m done s.records
  keys : KeysExact env s
  clients : ∀ op r, m.lookup op = some r → Target realmID r → r.clientID ∈ done →
    isUUID r.clientID = true ∧ Unique m op r ∧ readable env op (retired svn op (closeIn now realmID reason r)) = true

lemma Closed.settling (h : Closed env now realmID reason m targets s) : Settling env svn now realmID reason m [] s := by
  refine ⟨fun k => ?_, h.rendered.2.2, by simp⟩
  rw [h.records k]
  congr 1
  funext r
  simp [settled]

lemma ensures_revoke_settling (hreason : trimSpace reason = reason) (hr : m.lookup op = some r) (ht : Target realmID r)
    (hc : Closable reason r) : Ensures (Settling env svn now realmID reason m done) (revoke env svn now r.clientID reason)
      (fun _ => Settling env svn now realmID reason m (done ++ [r.clientID])) (fun _ => True) := by
  refine .checked (fun _ huuid => ?_)
  have huuid := require_ok.mp huuid
  refine .checked (fun reason' hreason' => ?_)
  obtain ⟨_, _, hreason'⟩ := bind_ok.mp hreason'
  cases hreason'
  rw [hreason]
  intro s as hs
  refine Ensures.conseq (P := fun s' => s'.records = s.records ∧ KeysExact env s')
    (ensures_withServiceWorkingCopy ensures_revokeClient (fun _ _ => trivial)) (fun _ h => h) (fun _ s' hs' => ?_) s as ⟨rfl, hs.keys⟩
  obtain ⟨op', r', hselects, hs'⟩ := hs'
  have honly : Unique m op r := by
    have hop : ∀ k r'', m.lookup k = some r'' → r''.clientID = r.clientID → k = op' := by
      intro k r'' hr'' hclient
      refine hselects.only k (settled svn now realmID reason done k r'') ?_ (by rw [settled_clientID, hclient])
      rw [hs.records k, hr'', map_some]
    intro k r'' hr'' hclient
    rw [hop k r'' hr'' hclient, hop op r hr rfl]
  have hop : op' = op := by
    have hfound := hselects.found
    rw [hs.records op'] at hfound
    obtain ⟨r'', hr'', he⟩ := map_eq_some_iff.mp hfound
    refine honly op' r'' hr'' ?_
    rw [← hselects.client, ← he, settled_clientID]
  subst hop
  have hr' : r' = settled svn now realmID reason done op' r := by
    have hfound := hselects.found
    rw [hs.records op', hr, map_some, some.injEq] at hfound
    exact hfound.symm
  obtain ⟨hlive, hagain, hrevoking⟩ := closeIn_again now ht.1 hc
  rcases hs' with ⟨hstate, hrecords, hkeys⟩ | ⟨hstate, hrevokes⟩
  · have hmem : r.clientID ∈ done := by
      by_contra hmem
      rw [hr', settled, if_neg (fun h => hmem h.2), hrevoking] at hstate
      cases hstate
    have hsame : ∀ c, c ∈ done ++ [r.clientID] ↔ c ∈ done := by
      intro c
      rw [mem_append, mem_singleton]
      exact ⟨fun h => h.elim id (fun hc => hc ▸ hmem), .inl⟩
    refine ⟨fun k => ?_, hkeys, fun k r'' hr'' ht'' hmem'' => hs.clients k r'' hr'' ht'' ((hsame _).mp hmem'')⟩
    rw [hrecords, hs.records k]
    congr 1
    funext r''
    simp only [settled, hsame]
  · have hmem : r.clientID ∉ done := by
      intro hmem
      rw [hr', settled, if_pos ⟨ht, hmem⟩] at hstate
      exact hstate rfl
    rw [settled, if_neg (fun h => hmem h.2)] at hr'
    have hlookup := hrevokes.records
    rw [hr', hlive, if_neg (by decide)] at hlookup
    refine ⟨hs.records.insert hr ht honly hlookup, hrevokes.rendered.2.2, fun k r'' hr'' ht'' hmem'' => ?_⟩
    rcases mem_append.mp hmem'' with hmem'' | hmem''
    · exact hs.clients k r'' hr'' ht'' hmem''
    · have hclient := mem_singleton.mp hmem''
      obtain rfl := honly k r'' hr'' hclient
      rw [hr, some.injEq] at hr''
      subst hr''
      refine ⟨huuid, honly, hrevokes.rendered.1 k _ ?_⟩
      rw [hlookup k, if_pos rfl]

/-- Every record of the realm that is not revoked is staged, active or being revoked for the same reason, and the
only one of its client; all records stay readable, and the other realms can be rendered. -/
structure Revocable (env : Env) (svn : Revisions) (now : Time) (realmID reason : Str) (m : Records) : Prop where
  identifier : isUUID realmID = true
  given : ∃ text, validateRevokeReason reason = .ok text
  readable : Readable env m
  states : ∀ op r, m.lookup op = some r → Target realmID r → Closable (trimSpace reason) r
  clients : ∀ op r, m.lookup op = some r → Target realmID r → isUUID r.clientID = true ∧ Unique m op r
  closed : ∀ op r, m.lookup op = some r → Target realmID r →
    Activation.readable env op (closeIn now realmID (trimSpace reason) r) = true ∧
      Activation.readable env op (retired svn op (closeIn now realmID (trimSpace reason) r)) = true
  others : ∀ op r, m.lookup op = some r → r.realmID ≠ realmID → r.live = true → ∃ line, keyLine env op r = .ok line

lemma validateRevokeReason_ok (h : validateRevokeReason reason = .ok text) :
    text = trimSpace reason ∧ validateRevokeReason (trimSpace reason) = .ok (trimSpace reason) := by
  obtain ⟨_, hrequire, htext⟩ := bind_ok.mp h
  cases htext
  refine ⟨rfl, ?_⟩
  rw [validateRevokeReason, trimSpace_idem]
  exact bind_ok.mpr ⟨(), hrequire, rfl⟩

lemma Revocable.settled_records (h : Revocable env svn now realmID reason m)
    (hm' : Settled svn now realmID (trimSpace reason) m done m') : Readable env m' ∧ Renders env m' := by
  have hsettled : ∀ op r', m'.lookup op = some r' →
      ∃ r, m.lookup op = some r ∧ r' = settled svn now realmID (trimSpace reason) done op r := by
    intro op r' hr'
    rw [hm' op] at hr'
    obtain ⟨r, hr, he⟩ := map_eq_some_iff.mp hr'
    exact ⟨r, hr, he.symm⟩
  constructor
  · intro op r' hr'
    obtain ⟨r, hr, rfl⟩ := hsettled op r' hr'
    by_cases ht : Target realmID r
    · rw [settled]
      split
      · exact (h.closed op r hr ht).2
      · exact (h.closed op r hr ht).1
    · rw [settled, if_neg (fun hmem => ht hmem.1), closeIn_of_not_target ht]
      exact h.readable op r hr
  · intro op r' hr' hlive
    obtain ⟨r, hr, rfl⟩ := hsettled op r' hr'
    obtain ⟨hlive, hrealm⟩ := settled_live.mp hlive
    have ht : ¬ Target realmID r := fun ht => hrealm ht.1
    rw [settled, if_neg (fun hmem => ht hmem.1), closeIn_of_not_target ht]
    exact h.others op r hr hrealm hlive

def Reported (svn : Revisions) (realmID : Str) (m : Records) : Prop :=
  ∀ op r, m.lookup op = some r → r.realmID = realmID →
    0 < svn (.client r.clientID) ∧ svn (.revokeAudit op) = svn (.client r.clientID)

lemma completes_revoke_settling (h : Revocable env svn now realmID reason m) (hsvn : Reported svn realmID m)
    (hr : m.lookup op = some r) (ht : Target realmID r) (hnew : r.clientID ∉ done) :
    Completes .done (Settling env svn now realmID (trimSpace reason) m done) (revoke env svn now r.clientID (trimSpace reason))
      (fun _ _ => True) := by
  obtain ⟨text, htext⟩ := h.given
  obtain ⟨huuid, honly⟩ := h.clients op r hr ht
  refine .except (a := ()) (require_ok.mpr huuid) ?_
  refine .except (validateRevokeReason_ok htext).2 (completes_withServiceWorkingCopy ?_)
  intro s hs
  obtain ⟨hlive, hagain, hrevoking⟩ := closeIn_again now ht.1 (h.states op r hr ht)
  have hselects : Selects s.records r.clientID op (closeIn now realmID (trimSpace reason) r) := by
    refine ⟨?_, closeIn_clientID, fun k r' hr' hclient => ?_⟩
    · rw [hs.records op, hr, map_some, settled, if_neg (fun hmem => hnew hmem.2)]
    · rw [hs.records k] at hr'
      obtain ⟨r'', hr'', rfl⟩ := map_eq_some_iff.mp hr'
      exact honly k r'' hr'' (settled_clientID.symm.trans hclient)
  have hinsert : Settled svn now realmID (trimSpace reason) m (done ++ [r.clientID])
      (s.records.insert op (retired svn op (closeIn now realmID (trimSpace reason) r))) := by
    refine hs.records.insert hr ht honly (fun k => ?_)
    split
    · rename_i hk
      rw [hk, lookup_insert]
    · rename_i hk
      exact lookup_insert_ne hk
  obtain ⟨hclient, hsame⟩ := hsvn op r hr ht.1
  exact completes_revokeClient hselects hrevoking hagain hclient hsame (h.settled_records hs.records) (h.settled_records hinsert)
    s rfl

lemma targets_nodup (h : ∀ op r, m.lookup op = some r → Target realmID r → Unique m op r) :
    (((sortedRecords m).filter (fun e => Target realmID e.2)).map (fun e => e.2.clientID)).Nodup := by
  refine List.Nodup.map_on (fun e he e' he' hclient => ?_) (List.Nodup.filter _ (List.Nodup.of_map Sigma.fst sortedRecords_nodup))
  obtain ⟨hmem, ht⟩ := mem_filter.mp he
  obtain ⟨hmem', ht'⟩ := mem_filter.mp he'
  have hr := mem_sortedRecords.mp hmem
  have hr' := mem_sortedRecords.mp hmem'
  have hop : e.1 = e'.1 := h e'.1 e'.2 hr' (by simpa using ht') e.1 e.2 hr hclient
  rw [hop, hr', some.injEq] at hr
  exact Sigma.ext hop (heq_of_eq hr.symm)

lemma ensures_revokeRealm : Ensures (fun s => s.records = m) (revokeRealm env svn now realmID reason)
    (fun _ s => Revocable env svn now realmID reason m ∧
      ∃ targets, (∀ op r, m.lookup op = some r → Target realmID r → r.clientID ∈ targets) ∧
        Settling env svn now realmID (trimSpace reason) m targets s) (fun _ => True) := by
  refine Ensures.checked (fun _ huuid => ?_)
  refine .checked (fun reason' hreason' => ?_)
  obtain rfl := (validateRevokeReason_ok hreason').1
  refine .bind ensures_closeRealm (fun targets s as hs => ?_)
  have hall : ∀ op r, m.lookup op = some r → Target realmID r → r.clientID ∈ targets := by
    intro op r hr ht
    rw [hs.targets]
    exact mem_map.mpr ⟨⟨op, r⟩, mem_filter.mpr ⟨mem_sortedRecords.mpr hr, by simpa using ht⟩, rfl⟩
  have hloop := Ensures.each_done (R := fun _ => True) (l := targets)
    (f := fun clientID => do let _ ← revoke env svn now clientID (trimSpace reason))
    (J := fun done => Settling env svn now realmID (trimSpace reason) m done) (fun done c rest hl => ?_)
  · refine Ensures.bind hloop (fun _ => Ensures.pure (fun s' hs' => ⟨?_, targets, hall, hs'⟩)) s as hs.settling
    refine ⟨require_ok.mp huuid, ⟨_, hreason'⟩, hs.readable, hs.closable, fun op r hr ht => ?_, fun op r hr ht => ?_,
      fun op r hr hrealm hlive => ?_⟩
    · obtain ⟨hclient, honly, _⟩ := hs'.clients op r hr ht (hall op r hr ht)
      exact ⟨hclient, honly⟩
    · refine ⟨hs.rendered.1 op _ ?_, (hs'.clients op r hr ht (hall op r hr ht)).2.2⟩
      rw [hs.records op, hr, map_some]
    · have hsame : closeIn now realmID (trimSpace reason) r = r := closeIn_of_not_target (fun ht => hrealm ht.1)
      refine hs.rendered.2.1 op r ?_ hlive
      rw [hs.records op, hr, map_some, hsame]
  · obtain ⟨op, r, hr, ht, rfl⟩ := hs.mem_targets c (by rw [hl]; simp)
    exact .seq (ensures_revoke_settling (trimSpace_idem reason) hr ht (hs.closable op r hr ht))
      .done

lemma completes_revokeRealm (h : Revocable env svn now realmID reason m) (hsvn : Reported svn realmID m) :
    Completes .done (fun s => s.records = m) (revokeRealm env svn now realmID reason) (fun _ _ => True) := by
  obtain ⟨text, htext⟩ := h.given
  obtain ⟨rfl, _⟩ := validateRevokeReason_ok htext
  refine Completes.except (a := ()) (require_ok.mpr h.identifier) (Completes.except htext ?_)
  have hclosed : ∀ op r, m.lookup op = some r → readable env op (closeIn now realmID (trimSpace reason) r) = true := by
    intro op r hr
    by_cases ht : Target realmID r
    · exact (h.closed op r hr ht).1
    · rw [closeIn_of_not_target ht]
      exact h.readable op r hr
  refine .bind ((completes_closeRealm h.readable h.states hclosed h.others).ensuring ensures_closeRealm)
    (fun targets s hs => ?_)
  have hloop := Completes.each_done (w := .done) (l := targets)
    (f := fun clientID => do let _ ← revoke env svn now clientID (trimSpace reason))
    (J := fun done => Settling env svn now realmID (trimSpace reason) m done) (fun done c rest hl => ?_)
  · refine Completes.bind hloop (fun _ => .any) s ?_
    exact hs.settling
  · have hmem : c ∈ targets := by
      rw [hl]
      simp
    have hnew : c ∉ done := by
      have hnodup := targets_nodup (fun op r hr ht => (h.clients op r hr ht).2)
      rw [← hs.targets, hl] at hnodup
      exact fun hdone => disjoint_of_nodup_append hnodup hdone (by simp)
    obtain ⟨op, r, hr, ht, rfl⟩ := hs.mem_targets c hmem
    refine .seq ((completes_revoke_settling h hsvn hr ht hnew).ensuring
      (ensures_revoke_settling (trimSpace_idem reason) hr ht (h.states op r hr ht))) .done

lemma refused_of_revoked (hs : KeysExact env s) (hrevoked : ∀ op r, s.records.lookup op = some r → r.realmID = realmID → r.state = .revoked) :
    (∀ line ∈ s.keys, ∃ r, s.records.lookup line.operationID = some r ∧ r.realmID ≠ realmID) ∧
    ∀ op r, s.records.lookup op = some r → r.realmID = realmID → ∀ now',
      sessionAllowed env s now' op r.clientID = false ∧
        ∀ script session, (claimSession env now' op r.clientID s script).1 ≠ .ok session := by
  constructor
  · intro line hline
    obtain ⟨op, r, hr, hlive, hkey⟩ := (hs line).mp hline
    refine ⟨r, ?_, fun hrealm => ?_⟩
    · rw [keyLine_operationID hkey]
      exact hr
    · rw [Record.live, hrevoked op r hr hrealm] at hlive
      cases hlive
  · intro op r hr hrealm now'
    have hstate := hrevoked op r hr hrealm
    constructor
    · rw [sessionAllowed]
      split
      · rfl
      · rename_i r' hr'
        obtain ⟨hr', _⟩ := readRecord_ok.mp hr'
        rw [hr, some.injEq] at hr'
        rw [← hr', hstate]
        simp
    · intro script session hok
      have hnever : Ensures (fun s' => s'.records = s.records) (claimSession env now' op r.clientID) (fun _ _ => False) (fun _ => True) := by
        refine .checked (fun _ _ => .checked (fun _ _ => ?_))
        refine .seq (Quiet.command.ensures (fun _ _ => trivial)) ?_
        refine .bind (ensures_recordProofLocked (fun _ _ hs => hs) (fun _ _ => trivial)) (fun r' => ?_)
        refine .pre (P := fun _ => False) (.fact (fun _ h => h)) (fun s' hs' => ?_)
        obtain ⟨hsame, hr', _, hlive⟩ := hs'
        rw [hsame, hr, some.injEq] at hr'
        rw [← hr', Record.live, hstate] at hlive
        cases hlive
      exact hnever.of_run rfl (run_eq_of_result hok)

def sampleEnv : Env where
  parseKey text := some ⟨text.takeWhile (· ≠ ' '), true, text.takeWhile (· ≠ ' '), (text.dropWhile (· ≠ ' ')).drop 1, [], []⟩
  encodedLength _ _ := 1000
  clientEntryPath := "/usr/libexec/filees-client-entry"
  mobileEntryPath := []
  singleActivationPerRealm := false
  dataAuthzFile := true
  demoRealm := false
  serviceWorkingCopyHeld := false

def emptyHost : Host := ⟨∅, ∅, [], ⟨[], [], []⟩, ∅, [], []⟩

def sampleRevisions : Revisions := fun _ => 7

def realm : Str := "11111111-1111-4111-8111-111111111111"

def laptop : Str := "22222222-2222-4222-8222-222222222222"

def phone : Str := "33333333-3333-4333-8333-333333333333"

def installation (clientID : Str) (expiresAt : Time) : Grant where
  operationID := clientID
  deployRequestID := clientID
  clientID := clientID
  realmID := realm
  kind := []
  repositories := []
  installationPublicKey := clientID ++ " installation"
  installationFingerprint := clientID
  expiresAt := expiresAt

def after {α : Type} (m : Op α) (s : Host) : Host := (m s (List.replicate 60 .done)).2.1

def activated : Host :=
  after (publish sampleEnv sampleRevisions 2 (installation laptop 10))
    (after (recordProof sampleEnv 1 laptop laptop) (after (stage sampleEnv 0 (installation laptop 10)) emptyHost))

def withExpired : Host :=
  after (cleanupExpired sampleEnv 6) (after (stage sampleEnv 3 (installation phone 5)) activated)

end FileES.Activation
