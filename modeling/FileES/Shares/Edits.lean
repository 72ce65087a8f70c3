import FileES.Shares.Readable
import FileES.Shares.Worker

/-! What an order can do to the files: it reserves an address that is free, writes the record of a new channel behind its
reservation, or replaces a record by one of the same channel. -/

namespace FileES.Shares

open Go Lib.Fallible Lib.Maps Lib.Effects

abbrev Address := Str × Str

def Record.address (r : Record) : Address := (r.realmAlias, r.slug)

def UploadRecord.address (r : UploadRecord) : Address := (r.realmAlias, r.slug)

def Reserved (s : Files) (a : Address) (id : Str) : Prop :=
  ∃ reservation, s.addresses.lookup a = some reservation ∧ reservation.channelID = id

def Request.address (q : Request) (slug : Str) : Option Address :=
  (q.call.authority.activeRealmAlias q.realm).map (fun found => (trimSpace found, slug))

def Order.newShare : Order → Option (Str × Address)
  | .ticket q =>
    match q.ticket with
    | .createPublicShare d => (q.address d.slug).map (fun a => (q.operationID, a))
    | _ => none
  | _ => none

def Order.newUpload : Order → Option (Str × Address)
  | .ticket q =>
    match q.ticket with
    | .createUploadChannel d => (q.address d.slug).map (fun a => (q.operationID, a))
    | _ => none
  | _ => none

/-- A new share gets an identifier in the canonical spelling and a clock that is set. -/
def Order.Canonical : Order → Prop
  | .ticket q =>
    match q.ticket with
    | .createPublicShare _ => canonicalUUID q.operationID = true ∧ q.call.now ≠ 0
    | _ => True
  | _ => True

/-- The clock is not behind the record that is changed, and no identifier in another spelling becomes an epoch. -/
def Order.Timely (H : Host) (o : Order) (id : Str) (r : Record) : Prop :=
  match o with
  | .ticket q =>
    match q.ticket with
    | .updatePublicShare channelID _ d => id = channelID → r.createdAt ≤ q.call.now ∧
        (canonicalUUID q.operationID = true ∨
          ∀ raw ∈ d.recipients, (retained H r.recipients (H.email raw)).isSome = true)
    | .revokePublicShare channelID | .deletePublicShare channelID => id = channelID → r.createdAt ≤ q.call.now
    | _ => True
  | .operatorDelete c channelID => id = channelID → r.createdAt ≤ c.now
  | .removeRealm c realm => r.ownerRealm = realm → r.createdAt ≤ c.clock id

structure Record.Continues (r r' : Record) : Prop where
  channelID : r'.channelID = r.channelID
  address : r'.address = r.address

structure UploadRecord.Continues (r r' : UploadRecord) : Prop where
  channelID : r'.channelID = r.channelID
  address : r'.address = r.address
  good : r'.Good

inductive Edit (H : Host) (o : Order) (s : Files) : Files → Prop
  | slug (k : Str × Str) (reservation : Reservation) (hnew : s.slugs.lookup k = none) :
      Edit H o s { s with slugs := s.slugs.insert k reservation }
  | address (reservation : Reservation) (hnew : s.addresses.lookup (reservation.realmAlias, reservation.slug) = none) :
      Edit H o s { s with
        addresses := s.addresses.insert (reservation.realmAlias, reservation.slug) reservation }
  | newShare (r : Record) (hnew : s.records.lookup r.channelID = none)
      (hborn : o.newShare = some (r.channelID, r.address)) (hres : Reserved s r.address r.channelID)
      (hok : o.Canonical → validateRecord H r = .ok ()) : Edit H o s (putRecord r.channelID r s)
  | share (id : Str) (r r' : Record) (hold : s.records.lookup id = some r) (hsame : r.Continues r')
      (hok : o.Timely H id r → validateRecord H r' = .ok () ∧ o.Timely H id r') : Edit H o s (putRecord id r' s)
  | newUpload (r : UploadRecord) (hnew : s.uploads.lookup r.channelID = none)
      (hborn : o.newUpload = some (r.channelID, r.address)) (hres : Reserved s r.address r.channelID)
      (hok : r.Good) : Edit H o s (putUpload r.channelID r s)
  | upload (id : Str) (r r' : UploadRecord) (hold : s.uploads.lookup id = some r) (hsame : r.Continues r') :
      Edit H o s (putUpload id r' s)

def Edited (H : Host) (o : Order) (s₀ s : Files) : Prop := Relation.ReflTransGen (Edit H o) s₀ s

def Keeps {α : Type} (H : Host) (o : Order) (s₀ : Files) (m : M α) : Prop :=
  Ensures (Edited H o s₀) m (fun _ => Edited H o s₀) (Edited H o s₀)

variable {H : Host} {o : Order} {s₀ : Files} {α : Type} {P : Files → Prop} {Q : α → Files → Prop} {R : Files → Prop}

variable {c : Bool} {e : StoreError} {T : Unit → Files → Prop} {put : Files → Files}

section

variable (hr : ∀ s, P s → R s)
include hr

lemma ensures_check_bind {f : Unit → M α} (h : c = true → Ensures P (f ()) Q R) : Ensures P (check c e >>= f) Q R :=
  .except hr (fun _ hc => h (require_ok.mp hc))

lemma ensures_check (h : c = true → ∀ s, P s → T () s) : Ensures P (check c e) T R := by
  cases c with
  | false => exact fun s _ hs => hr s hs
  | true => exact fun s _ hs => h rfl s hs

lemma ensures_save (hput : ∀ s, P s → T () (put s) ∧ R (put s)) : Ensures P (save put) T R := by
  refine .bind (.ask hr (fun _ _ hs => hs)) (fun w => ?_)
  refine .seq (Q := fun s => (w.ok = true → T () s) ∧ R s) (.update ?_) ?_
  · intro s hs
    cases w with
    | done => exact ⟨fun _ => (hput s hs).1, (hput s hs).2⟩
    | failed =>
      refine ⟨fun h => ?_, hr s hs⟩
      cases h
    | unsynced =>
      refine ⟨fun h => ?_, (hput s hs).2⟩
      cases h
  · exact ensures_check (fun s hs => hs.2) (fun hw s hs => hs.1 hw)

lemma ensures_other : Ensures P other (fun _ => P) R :=
  .bind (.ask hr (fun _ _ hs => hs)) (fun _ => ensures_check hr (fun _ _ hs => hs))

lemma ensures_validate : Ensures P (validate H) (fun _ => P) R := ensures_check_bind hr (fun _ => ensures_other hr)

lemma ensures_reserve {get : Files → Option Reservation} {want : Reservation}
    (hold : ∀ s old, P s → get s = some old → old.agrees want = true → T () s)
    (hput : ∀ s, P s → get s = none → T () (put s) ∧ R (put s)) : Ensures P (reserve get put want) T R := by
  refine .read_bind (fun s => ?_)
  cases hg : get s with
  | some old =>
    refine ensures_check (fun s hs => hr s hs.1) (fun ha s' hs => ?_)
    obtain ⟨hp, rfl⟩ := hs
    exact hold s' old hp hg ha
  | none =>
    refine ensures_save (fun s hs => hr s hs.1) (fun s' hs => ?_)
    obtain ⟨hp, rfl⟩ := hs
    exact hput s' hp hg

end

variable {s : Files}

lemma Edited.tail {s' : Files} (h : Edited H o s₀ s) (he : Edit H o s s') : Edited H o s₀ s' :=
  Relation.ReflTransGen.tail h he

variable {β : Type} {want : Reservation} {m : M α} {f : Unit → M α} {r : Except StoreError β}

lemma agrees_channelID {old : Reservation} (h : old.agrees want = true) : old.channelID = want.channelID := by
  simp only [Reservation.agrees, Bool.and_eq_true, decide_eq_true_eq] at h
  exact h.1.1.1.2

lemma ensures_ensureReservation (H : Host) (o : Order) (s₀ : Files) (want : Reservation)
    (records : Map Str Record) (uploads : Map Str UploadRecord) :
    Ensures (fun s => Edited H o s₀ s ∧ s.records = records ∧ s.uploads = uploads) (ensureReservation want)
      (fun _ s => (Edited H o s₀ s ∧ s.records = records ∧ s.uploads = uploads) ∧
        Reserved s (want.realmAlias, want.slug) want.channelID) (Edited H o s₀) := by
  refine .seq (Q := fun s => Edited H o s₀ s ∧ s.records = records ∧ s.uploads = uploads)
    (ensures_reserve (fun s hs => hs.1) (fun s old hs _ _ => hs) ?_)
    (ensures_reserve (fun s hs => hs.1) ?_ ?_)
  · rintro s ⟨he, hrecords, huploads⟩ hnew
    have he' := he.tail (.slug _ want hnew)
    exact ⟨⟨he', hrecords, huploads⟩, he'⟩
  · intro s old hs hget hagrees
    exact ⟨hs, old, hget, agrees_channelID hagrees⟩
  · rintro s ⟨he, hrecords, huploads⟩ hnew
    have he' := he.tail (.address want hnew)
    exact ⟨⟨⟨he', hrecords, huploads⟩, want, AList.lookup_insert _, rfl⟩, he'⟩

lemma keeps_ensureReservation : Keeps H o s₀ (ensureReservation want) := by
  intro s as hs
  have := ensures_ensureReservation H o s₀ want s.records s.uploads s as ⟨hs, rfl, rfl⟩
  split at this
  · exact this.1.1
  · exact this

protected lemma Keeps.done {a : α} : Keeps H o s₀ (pure a) := Ensures.done

protected lemma Keeps.failed : Keeps H o s₀ (fail e : M α) := Ensures.failed

lemma Keeps.bind {f : α → M β} (hm : Keeps H o s₀ m) (hf : ∀ a, Keeps H o s₀ (f a)) :
    Keeps H o s₀ (m >>= f) := Ensures.bind hm hf

protected lemma Keeps.check (h : c = true → Keeps H o s₀ (f ())) :
    Keeps H o s₀ (check c e >>= f) := ensures_check_bind (fun _ hs => hs) h

protected lemma Keeps.except {f : β → M α} (h : ∀ a, r = .ok a → Keeps H o s₀ (f a)) :
    Keeps H o s₀ (ofExcept r >>= f) := .checked h

lemma keeps_other : Keeps H o s₀ other := ensures_other (fun _ hs => hs)

lemma keeps_validate : Keeps H o s₀ (validate H) := ensures_validate (fun _ hs => hs)

lemma keeps_discard (h : Keeps H o s₀ m) : Keeps H o s₀ (discard m) := h.bind (fun _ => .done)

def Sees {α : Type} (H : Host) (o : Order) (s₀ s : Files) (m : M α) : Prop :=
  Ensures (fun s' => Edited H o s₀ s' ∧ s' = s) m (fun _ => Edited H o s₀) (Edited H o s₀)

protected lemma Keeps.read {f : Files → M α} (h : ∀ s, Sees H o s₀ s (f s)) : Keeps H o s₀ (read >>= f) :=
  .read_bind h

protected lemma Sees.quiet (h : Keeps H o s₀ m) : Sees H o s₀ s m := h.pre (fun _ hs => hs.1)

protected lemma Sees.check (h : c = true → Sees H o s₀ s (f ())) :
    Sees H o s₀ s (check c e >>= f) := ensures_check_bind (fun _ hs => hs.1) h

protected lemma Sees.except {f : β → M α} (h : ∀ a, r = .ok a → Sees H o s₀ s (f a)) :
    Sees H o s₀ s (ofExcept r >>= f) := .checked h

protected lemma Sees.save (he : Edit H o s (put s)) : Sees H o s₀ s (save put) := by
  refine ensures_save (fun _ hs => hs.1) ?_
  rintro s' ⟨hs, rfl⟩
  exact ⟨hs.tail he, hs.tail he⟩

protected lemma Sees.saved (he : Edit H o s (put s)) (hf : Keeps H o s₀ (f ())) :
    Sees H o s₀ s (save put >>= f) := .seq (Sees.save he) hf

variable {q : Request}

lemma elim_eq_ok {x : Option β} {b : β} (h : x.elim (.error e) Except.ok = .ok b) : x = some b := by
  cases x with
  | none => cases h
  | some b' =>
    cases h
    rfl

variable {d : ShareDeclaration} {found channelID operationID realm : Str} {c : Call} {u : Upload} {keepPassword : Bool}

lemma keeps_createRecord {path : Str} {records : Map Str Record}
    (hq : q.ticket = .createPublicShare d) (hfound : q.call.authority.activeRealmAlias q.realm = some found)
    (hd : (toShare q.realm d).validate H.lowering = .ok ())
    (hpath : slugPath H.lowering (trimSpace found) d.slug = .ok path) (hnew : records.lookup q.operationID = none) :
    Ensures (fun s => Edited H (.ticket q) s₀ s ∧ s.records = records)
      (createRecord H q.call q.operationID q.realm (trimSpace found) (toShare q.realm d))
      (fun _ => Edited H (.ticket q) s₀) (Edited H (.ticket q) s₀) := by
  refine .read_bind (fun s => .except (fun _ hs => hs.1.1) (fun count _ => ?_))
  refine ensures_check_bind (fun _ hs => hs.1.1) (fun _ => ?_)
  refine .seq ((ensures_ensureReservation H (.ticket q) s₀ _ records s.uploads).pre ?_) ?_
  · rintro s' ⟨⟨he, hrecords⟩, rfl⟩
    exact ⟨he, hrecords, rfl⟩
  · refine .except (fun _ hs => hs.1.1) (fun issued hissued => ?_)
    refine .seq (Q := Edited H (.ticket q) s₀) (ensures_save (fun _ hs => hs.1.1) ?_)
      .done
    rintro s' ⟨⟨he, hrecords, _⟩, hres⟩
    have hedit : Edit H (.ticket q) s' (putRecord q.operationID
        (newRecord q.call q.operationID q.realm (trimSpace found) (toShare q.realm d) issued.1) s') := by
      refine .newShare (newRecord q.call q.operationID q.realm (trimSpace found) (toShare q.realm d) issued.1)
        (hrecords ▸ hnew) ?_ hres ?_
      · simp [Order.newShare, hq, Request.address, hfound, newRecord, Record.address, toShare]
      · intro hc
        simp only [Order.Canonical, hq] at hc
        exact newRecord_valid hc.1 hc.2 rfl hd hpath hissued
    exact ⟨he.tail hedit, he.tail hedit⟩

lemma keeps_create (hq : q.ticket = .createPublicShare d) :
    Keeps H (.ticket q) s₀ (create H q.call q.operationID q.realm (toShare q.realm d)) := by
  refine keeps_validate.bind (fun _ => .check (fun _ => .check (fun _ => ?_)))
  refine .except (fun _ hd => .check (fun _ => .check (fun _ => ?_)))
  refine .except (fun found hfound => .except (fun path hpath => ?_))
  refine .read (fun s => ?_)
  split
  · split
    · exact .quiet .done
    · exact .quiet .failed
  · rename_i hload
    refine (keeps_createRecord hq (elim_eq_ok hfound) (mapError_eq_ok.mp hd) (mapError_eq_ok.mp hpath)
      (loadPath_notFound hload)).pre ?_
    rintro s' ⟨he, rfl⟩
    exact ⟨he, rfl⟩
  · exact .quiet .failed

lemma retained_isSome {cs : List Credential} {addresses : List Str} (hgood : ∀ c ∈ cs, c.Good H)
    (hperm : (cs.map Credential.email).Perm (addresses.map H.email)) {raw : Str} (hraw : raw ∈ addresses) :
    (retained H cs (H.email raw)).isSome = true := by
  obtain ⟨c, hc, hemail⟩ := List.mem_map.mp (hperm.mem_iff.mpr (List.mem_map_of_mem hraw))
  rw [retained, List.find?_isSome]
  exact ⟨c, by simpa using hc, by simpa [← (hgood c hc).email] using hemail⟩

lemma keeps_updateShare (hq : q.ticket = .updatePublicShare channelID keepPassword d) : Keeps H (.ticket q) s₀
      (updateShare H q.call q.operationID q.realm channelID (toShare q.realm d) keepPassword d.manageInvitations) := by
  refine keeps_validate.bind (fun _ => .check (fun _ => .read (fun s => ?_)))
  refine .except (fun record hload => .except (fun current howned => ?_))
  refine .check (fun hactive => .check (fun hsame => .check (fun _ => ?_)))
  refine .except (fun _ hd => .check (fun _ => .check (fun _ => ?_)))
  split
  · exact .quiet .done
  · refine .except (fun issued hissued => .saved ?_ .done)
    obtain ⟨hold, hvalid⟩ := load_eq_ok hload
    obtain ⟨hm, howner⟩ := ownedManifest_eq_ok howned
    simp only [Bool.and_eq_true, decide_eq_true_eq] at hsame hactive
    refine .share channelID record _ hold ⟨rfl, rfl⟩ ?_
    intro ht
    simp only [Order.Timely, hq] at ht ⊢
    obtain ⟨hnow, hnew⟩ := ht trivial
    have hcs := credentialsMatch_good (declarationMatches_iff.mp (manifest_of_valid hvalid hm)).2.2
    obtain ⟨hperm, hgood⟩ := issue_good hcs hnew hissued
    refine ⟨updated_valid hvalid hm hactive ⟨hsame.1.1.trans howner.symm, hsame.1.2, hsame.2⟩ (mapError_eq_ok.mp hd) hnow
      hnew hissued, fun _ => ⟨hnow, .inr ?_⟩⟩
    intro raw hraw
    exact retained_isSome hgood hperm hraw

lemma keeps_resend {d : Share} : Keeps H o s₀ (resend H c operationID realm channelID d) := by
  refine keeps_validate.bind (fun _ => .check (fun _ => .read (fun s => .quiet ?_)))
  refine .except (fun _ _ => .except (fun _ _ => .check (fun _ => ?_)))
  exact .check (fun _ => .check (fun _ => .check (fun _ => .check (fun _ => .done))))

lemma keeps_revoke (hq : q.ticket = .revokePublicShare channelID) :
    Keeps H (.ticket q) s₀ (revoke H q.call q.realm channelID) := by
  refine .read (fun s => .except (fun record hload => .except (fun m howned => ?_)))
  obtain ⟨hold, hvalid⟩ := load_eq_ok hload
  split
  · exact .quiet .failed
  · exact .quiet (keeps_other.bind (fun _ => .done))
  · rename_i hactive
    refine .saved (.share channelID record _ hold ⟨rfl, rfl⟩ ?_) (keeps_other.bind (fun _ => .done))
    intro ht
    simp only [Order.Timely, hq] at ht ⊢
    exact ⟨revoked_valid hvalid (ownedManifest_eq_ok howned).1 hactive (ht trivial), ht⟩

lemma keeps_deleteLocked {permitted : Share → Bool} (ho : ∀ r, o.Timely H channelID r ↔ r.createdAt ≤ c.now) :
    Keeps H o s₀ (deleteLocked H c channelID permitted) := by
  refine .read (fun s => .except (fun record hload => ?_))
  obtain ⟨hold, hvalid⟩ := load_eq_ok hload
  split
  · exact .quiet (.check (fun _ => keeps_other.bind (fun _ => .done)))
  · refine .check (fun _ => .saved (.share channelID record _ hold ⟨rfl, rfl⟩ ?_) (keeps_other.bind (fun _ => .done)))
    intro ht
    exact ⟨deleted_valid hvalid ((ho record).mp ht), (ho _).mpr ((ho record).mp ht)⟩

lemma keeps_deleteOwned : Keeps H (.removeRealm c realm) s₀ (deleteOwned H c realm channelID) := by
  refine .read (fun s => .except (fun record hload => ?_))
  obtain ⟨hold, hvalid⟩ := loadPath_eq_ok.mp hload
  unfold onlyIf
  split
  · rename_i howner
    simp only [Bool.and_eq_true, decide_eq_true_eq] at howner
    refine .save (.share channelID record _ hold ⟨rfl, rfl⟩ ?_)
    intro ht
    exact ⟨deleted_valid hvalid (ht howner.1), ht⟩
  · exact .quiet .done

lemma keeps_deleteRealm : Keeps H (.removeRealm c realm) s₀ (deleteRealm H c realm) := by
  refine .read (fun s => .quiet (.seq ?_ keeps_other))
  exact .each (fun _ _ => keeps_deleteOwned)

lemma keeps_reserveAddress {realmAlias slug : Str} :
    Keeps H o s₀ (reserveAddress H c channelID realm realmAlias slug) :=
  keeps_validate.bind (fun _ => .check (fun _ => .except (fun _ _ => keeps_ensureReservation)))

lemma keeps_createUploadRecord {d : UploadDeclaration} {uploads : Map Str UploadRecord}
    (hq : q.ticket = .createUploadChannel d) (hu : u.slug = d.slug) (hop : q.operationID ≠ [])
    (hfound : q.call.authority.activeRealmAlias q.realm = some found) (hnew : uploads.lookup q.operationID = none) :
    Ensures (fun s => Edited H (.ticket q) s₀ s ∧ s.uploads = uploads)
      (createUploadRecord H q.call q.operationID q.realm (trimSpace found) u)
      (fun _ => Edited H (.ticket q) s₀) (Edited H (.ticket q) s₀) := by
  intro s as hs
  refine (?_ : Ensures (fun s' => Edited H (.ticket q) s₀ s' ∧ s'.records = s.records ∧ s'.uploads = uploads) _ _ _) s as
    ⟨hs.1, rfl, hs.2⟩
  refine .seq (ensures_ensureReservation H (.ticket q) s₀ _ s.records uploads) ?_
  refine .except (fun _ hs => hs.1.1) (fun issued hissued => ?_)
  refine .seq (Q := Edited H (.ticket q) s₀) (ensures_save (fun _ hs => hs.1.1) ?_)
    .done
  rintro s' ⟨⟨he, _, huploads⟩, hres⟩
  have hedit : Edit H (.ticket q) s' (putUpload q.operationID
      (newUploadRecord q.call q.operationID q.realm (trimSpace found) u issued.1) s') := by
    refine .newUpload (newUploadRecord q.call q.operationID q.realm (trimSpace found) u issued.1)
      (huploads ▸ hnew) ?_ hres ⟨rfl, hop⟩
    simp [Order.newUpload, hq, Request.address, hfound, newUploadRecord, UploadRecord.address, hu]
  exact ⟨he.tail hedit, he.tail hedit⟩

lemma ne_nil_of_isUUID {s : Str} (h : isUUID s = true) : s ≠ [] := by
  rintro rfl
  revert h
  decide

lemma keeps_createUpload {d : UploadDeclaration} (hq : q.ticket = .createUploadChannel d) (hu : u.slug = d.slug) :
    Keeps H (.ticket q) s₀ (createUpload H q.call q.operationID q.realm u) := by
  refine keeps_validate.bind (fun _ => .check (fun hop => .check (fun _ => .check (fun _ => ?_))))
  refine .except (fun _ _ => .check (fun _ => .except (fun found hfound => ?_)))
  refine .except (fun _ _ => .read (fun s => ?_))
  split
  · split
    · exact .quiet .done
    · exact .quiet .failed
  · rename_i hload
    refine (keeps_createUploadRecord (u := u.withPolicy) hq hu (ne_nil_of_isUUID hop) (elim_eq_ok hfound) (loadUploadPath_notFound hload)).pre ?_
    rintro s' ⟨he, rfl⟩
    exact ⟨he, rfl⟩
  · exact .quiet .failed

lemma keeps_updateUpload : Keeps H o s₀ (updateUpload H c operationID realm channelID u) := by
  refine keeps_validate.bind (fun _ => .check (fun _ => .read (fun s => ?_)))
  refine .except (fun record hload => .except (fun current _ => ?_))
  refine .check (fun _ => .check (fun _ => .check (fun _ => ?_)))
  refine .except (fun _ _ => .check (fun _ => ?_))
  obtain ⟨hold, hgood⟩ := loadUpload_eq_ok hload
  split
  · exact .quiet .done
  · exact .except (fun _ _ => .saved (.upload channelID record _ hold ⟨rfl, rfl, hgood⟩) .done)

lemma keeps_resendUpload : Keeps H o s₀ (resendUpload H c operationID realm channelID u) := by
  refine keeps_validate.bind (fun _ => .check (fun _ => .read (fun s => .quiet ?_)))
  refine .except (fun _ _ => .except (fun _ _ => .check (fun _ => ?_)))
  exact .check (fun _ => .check (fun _ => .check (fun _ => .done)))

lemma keeps_revokeUpload : Keeps H o s₀ (revokeUpload c realm channelID) := by
  refine .read (fun s => .except (fun record hload => .except (fun _ _ => ?_)))
  obtain ⟨hold, hgood⟩ := loadUpload_eq_ok hload
  split
  · exact .quiet .failed
  · exact .quiet .done
  · exact .saved (.upload channelID record _ hold ⟨rfl, rfl, hgood⟩) .done

lemma keeps_deleteUpload : Keeps H o s₀ (deleteUpload c realm channelID) := by
  refine .read (fun s => .except (fun record hload => ?_))
  obtain ⟨hold, hgood⟩ := loadUpload_eq_ok hload
  split
  · exact .check (fun _ => .quiet .done)
  · exact .check (fun _ => .saved (.upload channelID record _ hold ⟨rfl, rfl, hgood⟩) .done)

lemma keeps_createShareTicket (hq : q.ticket = .createPublicShare d) : Keeps H (.ticket q) s₀ (q.createShare H d) :=
  .check (fun _ => .except (fun _ _ => keeps_create hq))

variable {d : UploadDeclaration}

lemma keeps_updateShareTicket {d : ShareDeclaration} (hq : q.ticket = .updatePublicShare channelID keepPassword d) :
    Keeps H (.ticket q) s₀ (q.updateShare H channelID keepPassword d) := by
  refine .check (fun _ => .except (fun _ _ => .check (fun _ => ?_)))
  split
  · exact keeps_resend
  · exact keeps_updateShare hq

lemma keeps_createUploadTicket (hq : q.ticket = .createUploadChannel d) :
    Keeps H (.ticket q) s₀ (q.createUpload H d) := by
  refine .except (fun _ _ => .check (fun _ => .check (fun _ => ?_)))
  refine .except (fun _ _ => keeps_reserveAddress.bind (fun _ => ?_))
  exact .except (fun _ _ => .except (fun _ _ => keeps_createUpload hq rfl))

lemma keeps_updateUploadTicket : Keeps H o s₀ (q.updateUpload H channelID d) := by
  refine .check (fun _ => .read (fun s => .quiet ?_))
  refine .except (fun _ _ => .except (fun _ _ => .check (fun _ => ?_)))
  split
  · exact keeps_resendUpload
  · exact keeps_updateUpload

lemma keeps_handle (q : Request) (s₀ : Files) : Keeps H (.ticket q) s₀ (q.handle H) := by
  refine .except (fun _ _ => ?_)
  cases hq : q.ticket with
  | createPublicShare d => exact keeps_discard (keeps_createShareTicket hq)
  | updatePublicShare channelID keepPassword d => exact keeps_discard (keeps_updateShareTicket hq)
  | revokePublicShare channelID => exact keeps_discard (keeps_revoke hq)
  | deletePublicShare channelID => exact keeps_discard (keeps_deleteLocked (fun r => by simp [Order.Timely, hq]))
  | createUploadChannel d => exact keeps_discard (keeps_createUploadTicket hq)
  | updateUploadChannel channelID d => exact keeps_discard keeps_updateUploadTicket
  | revokeUploadChannel channelID => exact keeps_discard keeps_revokeUpload
  | deleteUploadChannel channelID => exact keeps_discard keeps_deleteUpload

lemma step_edited (s : Files) (e : Event) : Edited H e.1 s (step H s e) := by
  obtain ⟨o, script⟩ := e
  have hkeeps : Keeps H o s (o.handle H) := by
    cases o with
    | ticket q => exact keeps_handle q s
    | operatorDelete c channelID => exact keeps_discard (keeps_deleteLocked (fun r => by simp [Order.Timely]))
    | removeRealm c realm => exact keeps_deleteRealm
  exact hkeeps.final .refl script

end FileES.Shares
