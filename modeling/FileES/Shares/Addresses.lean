import FileES.Shares.Closed

/-! An address stays with the channel it was given to, unless one operation identifier is used both for a share and for
an upload channel. -/

namespace FileES.Shares

open Go Lib.Maps Lib.Durable Lib.Effects Lib.Runs Files

inductive Channel
  | share (id : Str)
  | upload (id : Str)
  deriving DecidableEq, Repr

def Channel.id : Channel → Str
  | .share id | .upload id => id

def Bound (s : Files) (a : Address) : Channel → Prop
  | .share id => ∃ r, s.records.lookup id = some r ∧ r.address = a
  | .upload id => ∃ r, s.uploads.lookup id = some r ∧ r.address = a

def Resolves (H : Host) (s : Files) (a : Address) : Channel → Prop
  | .share id => ∃ r, resolveAddress H s a.1 a.2 = .ok r ∧ r.channelID = id
  | .upload id => ∃ r, resolveUploadAddress H s a.1 a.2 = .ok r ∧ r.channelID = id

/-- A bound address later resolves to its channel or not at all; a reservation already fixes the identifier. -/
def NeverReassigned (H : Host) (s : Files) (es : List Event) : Prop :=
  ∀ pre₁ pre₂, pre₁ <+: pre₂ → pre₂ <+: es → ∀ a ch', Resolves H (run (step H) s pre₂) a ch' →
    (∀ ch, Bound (run (step H) s pre₁) a ch → ch' = ch) ∧ ∀ id, Reserved (run (step H) s pre₁) a id → ch'.id = id

/-- An order does not create a channel of one kind while the same identifier names a channel of the other kind under the
same address. -/
def Apart (s : Files) (e : Event) : Prop :=
  (∀ id a, e.1.newShare = some (id, a) → ∀ u, s.uploads.lookup id = some u → u.address ≠ a) ∧
    ∀ id a, e.1.newUpload = some (id, a) → ∀ r, s.records.lookup id = some r → r.address ≠ a

instance (s : Files) (e : Event) : Decidable (Apart s e) :=
  decidable_of_iff ((∀ x ∈ e.1.newShare, ∀ u ∈ s.uploads.lookup x.1, u.address ≠ x.2) ∧
      ∀ x ∈ e.1.newUpload, ∀ r ∈ s.records.lookup x.1, r.address ≠ x.2)
    ⟨fun h => ⟨fun id a hx u hu => h.1 (id, a) hx u hu, fun id a hx r hr => h.2 (id, a) hx r hr⟩,
      fun h => ⟨fun x hx u hu => h.1 x.1 x.2 hx u hu, fun x hx r hr => h.2 x.1 x.2 hx r hr⟩⟩

structure Placed (s : Files) : Prop where
  shares : ∀ id r, s.records.lookup id = some r → r.channelID = id ∧ Reserved s r.address id
  uploads : ∀ id r, s.uploads.lookup id = some r → r.channelID = id ∧ Reserved s r.address id

def Separate (s : Files) : Prop :=
  ∀ id r u, s.records.lookup id = some r → s.uploads.lookup id = some u → r.address ≠ u.address

variable {H : Host} {o : Order} {s s' : Files} {a : Address}

variable {V : Type} {id id' : Str} {m : Map Str V} {address : V → Address} {v : V} {ch : Channel} {P : Files → Prop}

lemma reserved_unique (h : Reserved s a id) (h' : Reserved s a id') : id = id' := by
  obtain ⟨r, hr, rfl⟩ := h
  obtain ⟨r', hr', rfl⟩ := h'
  rw [hr, Option.some.injEq] at hr'
  rw [hr']

lemma Edit.reserved (he : Edit H o s s') (h : Reserved s a id) : Reserved s' a id := by
  cases he with
  | address reservation hnew =>
    obtain ⟨r, hr, hid⟩ := h
    refine ⟨r, lookup_insert_eq_some.mpr (.inr ⟨?_, hr⟩), hid⟩
    rintro rfl
    rw [hnew] at hr
    cases hr
  | slug k reservation hnew => exact h
  | newShare r hnew hborn hres hok => exact h
  | share id r r' hold hsame hok => exact h
  | newUpload r hnew hborn hres hok => exact h
  | upload id r r' hold hsame => exact h

lemma binding_insert (hsame : ∀ r, m.lookup id' = some r → address v = address r)
    (h : ∃ r, m.lookup id = some r ∧ address r = a) :
    ∃ r, (m.insert id' v).lookup id = some r ∧ address r = a := by
  obtain ⟨r, hr, ha⟩ := h
  by_cases hid : id = id'
  · subst hid
    exact ⟨v, AList.lookup_insert m, (hsame r hr).trans ha⟩
  · exact ⟨r, lookup_insert_eq_some.mpr (.inr ⟨hid, hr⟩), ha⟩

lemma same_of_fresh (h : m.lookup id = none) : ∀ r, m.lookup id = some r → address v = address r := by
  intro r hr
  rw [h] at hr
  cases hr

lemma same_of_old {r : V} (h : m.lookup id = some r) (hsame : address v = address r) :
    ∀ r', m.lookup id = some r' → address v = address r' := by
  intro r' hr'
  rw [h, Option.some.injEq] at hr'
  rw [← hr', hsame]

lemma Edit.bound (he : Edit H o s s') (h : Bound s a ch) : Bound s' a ch := by
  cases he with
  | slug k reservation hnew => cases ch <;> exact h
  | address reservation hnew => cases ch <;> exact h
  | newShare r hnew hborn hres hok =>
    cases ch with
    | share id => exact binding_insert (same_of_fresh hnew) h
    | upload id => exact h
  | share id r r' hold hsame hok =>
    cases ch with
    | share id' => exact binding_insert (same_of_old hold hsame.address) h
    | upload id' => exact h
  | newUpload r hnew hborn hres hok =>
    cases ch with
    | share id => exact h
    | upload id => exact binding_insert (same_of_fresh hnew) h
  | upload id r r' hold hsame =>
    cases ch with
    | share id' => exact h
    | upload id' => exact binding_insert (same_of_old hold hsame.address) h

lemma Edit.placed (he : Edit H o s s') (h : Placed s) : Placed s' := by
  have hkeep : ∀ a id, Reserved s a id → Reserved s' a id := fun _ _ => he.reserved
  cases he with
  | slug k reservation hnew => exact ⟨h.shares, h.uploads⟩
  | address reservation hnew =>
    exact ⟨fun id r hr => (h.shares id r hr).imp_right (hkeep _ _), fun id r hr => (h.uploads id r hr).imp_right (hkeep _ _)⟩
  | newShare r hnew hborn hres hok =>
    refine ⟨?_, h.uploads⟩
    intro id r' hr'
    rcases lookup_insert_eq_some.mp hr' with ⟨rfl, rfl⟩ | ⟨_, hr'⟩
    · exact ⟨rfl, hres⟩
    · exact h.shares id r' hr'
  | share id r r' hold hsame hok =>
    refine ⟨?_, h.uploads⟩
    intro id' r'' hr''
    rcases lookup_insert_eq_some.mp hr'' with ⟨rfl, rfl⟩ | ⟨_, hr''⟩
    · obtain ⟨hid, hres⟩ := h.shares _ r hold
      exact ⟨hsame.channelID.trans hid, hsame.address ▸ hres⟩
    · exact h.shares id' r'' hr''
  | newUpload r hnew hborn hres hok =>
    refine ⟨h.shares, ?_⟩
    intro id r' hr'
    rcases lookup_insert_eq_some.mp hr' with ⟨rfl, rfl⟩ | ⟨_, hr'⟩
    · exact ⟨rfl, hres⟩
    · exact h.uploads id r' hr'
  | upload id r r' hold hsame =>
    refine ⟨h.shares, ?_⟩
    intro id' r'' hr''
    rcases lookup_insert_eq_some.mp hr'' with ⟨rfl, rfl⟩ | ⟨_, hr''⟩
    · obtain ⟨hid, hres⟩ := h.uploads _ r hold
      exact ⟨hsame.channelID.trans hid, hsame.address ▸ hres⟩
    · exact h.uploads id' r'' hr''

lemma newUpload_of_newShare {x : Str × Address} (h : o.newShare = some x) : o.newUpload = none := by
  cases o with
  | ticket q => cases hq : q.ticket <;> simp [Order.newShare, Order.newUpload, hq] at h ⊢
  | operatorDelete c channelID => cases h
  | removeRealm c realm => cases h

def OrderApart (s : Files) (o : Order) : Prop := Apart s (o, [])

lemma Edit.separate (he : Edit H o s s') (h : Separate s) (ho : OrderApart s o) : Separate s' ∧ OrderApart s' o := by
  obtain ⟨hshare, hupload⟩ := ho
  cases he with
  | slug k reservation hnew => exact ⟨h, hshare, hupload⟩
  | address reservation hnew => exact ⟨h, hshare, hupload⟩
  | newShare r hnew hborn hres hok =>
    refine ⟨?_, hshare, ?_⟩
    · intro id r' u hr' hu
      rcases lookup_insert_eq_some.mp hr' with ⟨rfl, rfl⟩ | ⟨_, hr'⟩
      · exact fun heq => hshare _ _ hborn u hu heq.symm
      · exact h id r' u hr' hu
    · intro id a hx
      rw [newUpload_of_newShare hborn] at hx
      cases hx
  | share id r r' hold hsame hok =>
    refine ⟨?_, hshare, ?_⟩
    · intro id' r'' u hr'' hu
      rcases lookup_insert_eq_some.mp hr'' with ⟨rfl, rfl⟩ | ⟨_, hr''⟩
      · exact hsame.address ▸ h _ r u hold hu
      · exact h id' r'' u hr'' hu
    · intro id' a hx r'' hr''
      rcases lookup_insert_eq_some.mp hr'' with ⟨rfl, rfl⟩ | ⟨_, hr''⟩
      · exact hsame.address ▸ hupload _ a hx r hold
      · exact hupload id' a hx r'' hr''
  | newUpload r hnew hborn hres hok =>
    refine ⟨?_, ?_, hupload⟩
    · intro id r' u hr' hu
      rcases lookup_insert_eq_some.mp hu with ⟨rfl, rfl⟩ | ⟨_, hu⟩
      · exact hupload _ _ hborn r' hr'
      · exact h id r' u hr' hu
    · intro id a hx
      have := newUpload_of_newShare hx
      rw [hborn] at this
      cases this
  | upload id r r' hold hsame =>
    refine ⟨?_, ?_, hupload⟩
    · intro id' r'' u hr'' hu
      rcases lookup_insert_eq_some.mp hu with ⟨rfl, rfl⟩ | ⟨_, hu⟩
      · exact hsame.address ▸ h _ r'' r hr'' hold
      · exact h id' r'' u hr'' hu
    · intro id' a hx u hu
      rcases lookup_insert_eq_some.mp hu with ⟨rfl, rfl⟩ | ⟨_, hu⟩
      · exact hsame.address ▸ hshare _ a hx r hold
      · exact hshare id' a hx u hu

lemma reservationAt_lookup {realmAlias slug : Str} {reservation : Reservation}
    (h : reservationAt H s realmAlias slug = some reservation) :
    s.addresses.lookup (realmAlias, slug) = some reservation := by
  unfold reservationAt at h
  split at h
  · exact (Option.filter_eq_some_iff.mp h).1
  · cases h

lemma Placed.of_resolves (hp : Placed s) (h : Resolves H s a ch) : Bound s a ch ∧ Reserved s a ch.id := by
  cases ch with
  | share id =>
    obtain ⟨r, hr, rfl⟩ := h
    unfold resolveAddress at hr
    split at hr
    · cases hr
    · rename_i reservation hres
      split at hr
      · cases hr
      · rename_i r' hload
        split at hr
        · rename_i hc
          cases hr
          obtain ⟨hlookup, _⟩ := load_eq_ok hload
          obtain ⟨hid, _⟩ := hp.shares _ r hlookup
          have hbound : r.address = a := Prod.ext hc.2.2.1 hc.2.2.2
          rw [Channel.id, hid]
          exact ⟨⟨r, hlookup, hbound⟩, reservation, reservationAt_lookup hres, rfl⟩
        · cases hr
  | upload id =>
    obtain ⟨r, hr, rfl⟩ := h
    unfold resolveUploadAddress at hr
    split at hr
    · cases hr
    · rename_i reservation hres
      split at hr
      · cases hr
      · rename_i r' hload
        split at hr
        · rename_i hc
          cases hr
          obtain ⟨hlookup, _⟩ := loadUpload_eq_ok hload
          obtain ⟨hid, _⟩ := hp.uploads _ r hlookup
          have hbound : r.address = a := Prod.ext hc.2.2.1 hc.2.2.2
          rw [Channel.id, hid]
          exact ⟨⟨r, hlookup, hbound⟩, reservation, reservationAt_lookup hres, rfl⟩
        · cases hr

lemma Placed.reserved (hp : Placed s) (h : Bound s a ch) : Reserved s a ch.id := by
  cases ch with
  | share id =>
    obtain ⟨r, hr, rfl⟩ := h
    exact (hp.shares id r hr).2
  | upload id =>
    obtain ⟨r, hr, rfl⟩ := h
    exact (hp.uploads id r hr).2

lemma Separate.eq_of_id {ch' : Channel} (hs : Separate s) (h : Bound s a ch) (h' : Bound s a ch')
    (hid : ch.id = ch'.id) : ch = ch' := by
  cases ch with
  | share id =>
    cases ch' with
    | share id' => exact congrArg Channel.share hid
    | upload id' =>
      obtain ⟨r, hr, ha⟩ := h
      obtain ⟨u, hu, ha'⟩ := h'
      cases (hid : id = id')
      exact absurd (ha.trans ha'.symm) (hs _ r u hr hu)
  | upload id =>
    cases ch' with
    | upload id' => exact congrArg Channel.upload hid
    | share id' =>
      obtain ⟨u, hu, ha⟩ := h
      obtain ⟨r, hr, ha'⟩ := h'
      cases (hid : id = id')
      exact absurd (ha'.trans ha.symm) (hs _ r u hr hu)

lemma placed_empty : Placed empty := ⟨by simp [empty], by simp [empty]⟩

lemma separate_empty : Separate empty := by simp [Separate, empty]

lemma Edited.keeps (hP : ∀ s s', Edit H o s s' → P s → P s') (h : Edited H o s s') (hs : P s) : P s' := by
  induction h with
  | refl => exact hs
  | tail _ he ih => exact hP _ _ he ih

lemma run_keeps (hP : ∀ o s s', Edit H o s s' → P s → P s') (hs : P s) (es : List Event) : P (run (step H) s es) :=
  run_invariant (step H) (fun s e h => (step_edited s e).keeps (hP e.1) h) hs es

lemma step_separate {e : Event} (h : Separate s) (he : Apart s e) : Separate (step H s e) :=
  ((step_edited (H := H) s e).keeps (P := fun s => Separate s ∧ OrderApart s e.1) (fun _ _ hedit h => hedit.separate h.1 h.2)
    ⟨h, he⟩).1

lemma resolved_identifier (H : Host) (s : Files) (hp : Placed s) {es : List Event} (hr : Reserved s a id) (h : Resolves H (run (step H) s es) a ch) : ch.id = id := by
  have hplaced := run_keeps (H := H) (fun _ _ _ he h => Edit.placed he h) hp es
  have hres := run_keeps (H := H) (P := fun s => Reserved s a id) (fun _ _ _ he h => he.reserved h) hr es
  exact reserved_unique (hplaced.of_resolves h).2 hres

/-- If no operation identifier serves both kinds under one address, the address is never resolved to another
channel. -/
theorem public_addresses_never_reassigned (H : Host) (es : List Event) (h : Admits (step H) Apart Files.empty es) :
    NeverReassigned H Files.empty es := by
  intro pre₁ pre₂ h₁ h₂ a ch' hres
  obtain ⟨rest, rfl⟩ := h₁
  have hplaced : Placed (run (step H) empty pre₁) := run_keeps (fun _ _ _ he h => Edit.placed he h) placed_empty pre₁
  have hsep : Separate (run (step H) empty (pre₁ ++ rest)) :=
    along_of_admits (step H) (fun _ _ h he => step_separate h he) separate_empty h _ h₂
  rw [run_append] at hres hsep
  refine ⟨fun ch hbound => ?_, fun id hid => resolved_identifier H _ hplaced hid hres⟩
  have hid : ch'.id = ch.id := resolved_identifier H _ hplaced (hplaced.reserved hbound) hres
  have hplaced' := run_keeps (H := H) (fun _ _ _ he h => Edit.placed he h) hplaced rest
  have hbound' := run_keeps (H := H) (P := fun s => Bound s a ch) (fun _ _ _ he h => he.bound h) hbound rest
  exact hsep.eq_of_id (hplaced'.of_resolves hres).1 hbound' hid

def exampleUpload : UploadDeclaration where
  manageInvitations := false
  invitationMessage := []
  resendInvitations := false
  authorityRepoID := exampleRepo
  slug := "plans"
  kind := .shelf
  recipients := ["ann@example.org"]
  requireOTP := false
  collisionPolicy := .unset

def exampleUploadEvent (operationID : Str) (now : ℤ) : Event :=
  (.ticket ⟨operationID, exampleRealm, .createUploadChannel exampleUpload, exampleCall now, true, some exampleRealm⟩,
    List.replicate 8 .done)

def exampleAddress : Address := ("studio", "plans")

def exampleOther : Str := "bbbbbbbb-bbbb-4bbb-8bbb-bbbbbbbbbbbb"

def exampleKept : List Event :=
  [exampleEvent exampleOperation (.createPublicShare exampleDeclaration) 100,
    exampleEvent exampleRepo (.deletePublicShare exampleOperation) 150, exampleUploadEvent exampleOther 200]

/-- An upload channel with an identifier of its own does not get the address of a deleted share. -/
theorem public_addresses_never_reassigned_to_upload :
    Admits (step exampleHost) Apart Files.empty exampleKept ∧ NeverReassigned exampleHost Files.empty exampleKept := by
  have h : Admits (step exampleHost) Apart empty exampleKept := by decide +kernel
  exact ⟨h, public_addresses_never_reassigned exampleHost exampleKept h⟩

def exampleRebound : List Event :=
  [exampleEvent exampleOperation (.createPublicShare exampleDeclaration) 100,
    exampleEvent exampleRepo (.deletePublicShare exampleOperation) 150, exampleUploadEvent exampleOperation 200]

/-- A share is deleted, and an upload channel with the same operation identifier takes over its address. -/
theorem share_address_taken_by_upload :
    (Ticket.createUploadChannel exampleUpload).validate .ascii exampleOperation = .ok () ∧
      Bound (run (step exampleHost) Files.empty (exampleRebound.take 1)) exampleAddress (.share exampleOperation) ∧
      Resolves exampleHost (run (step exampleHost) Files.empty exampleRebound) exampleAddress (.upload exampleOperation) ∧
      ¬ NeverReassigned exampleHost Files.empty exampleRebound := by
  have hbound : Bound (run (step exampleHost) empty (exampleRebound.take 1)) exampleAddress
      (.share exampleOperation) := by
    have : ((run (step exampleHost) empty (exampleRebound.take 1)).records.lookup exampleOperation).map
        Record.address = some exampleAddress := by decide +kernel
    exact Option.map_eq_some_iff.mp this
  have hres : Resolves exampleHost (run (step exampleHost) empty exampleRebound) exampleAddress
      (.upload exampleOperation) := by
    have : (resolveUploadAddress exampleHost (run (step exampleHost) empty exampleRebound) exampleAddress.1
        exampleAddress.2).map UploadRecord.channelID = .ok exampleOperation := by decide +kernel
    exact Lib.Fallible.map_eq_ok.mp this
  refine ⟨by decide +kernel, hbound, hres, ?_⟩
  intro h
  have := (h _ _ (List.take_prefix 1 _) (List.prefix_refl _) _ _ hres).1 _ hbound
  cases this

/-- If the request is refused, the reservations are the same as before. -/
def LeavesNoTrace (want : Reservation) (s : Files) (as : List Write) : Prop :=
  ∀ e, (ensureReservation want s as).1 = .error (.fail e) →
    (ensureReservation want s as).2.1.slugs = s.slugs ∧ (ensureReservation want s as).2.1.addresses = s.addresses

/-- No file that the call writes is in place when the call fails. -/
def Reservation.settles (want : Reservation) (s : Files) (as : List Write) : Prop :=
  match s.slugs.lookup (want.ownerRealm, want.slug), s.addresses.lookup (want.realmAlias, want.slug) with
  | some _, some _ => True
  | some old, none => old.agrees want = true → as.head? ≠ some .unsynced
  | none, some old => as.head? ≠ some .unsynced ∧ (as.head? = some .done → old.agrees want = true)
  | none, none => as.head? ≠ some .unsynced ∧ (as.head? = some .done → as.tail.head? = none ∨ as.tail.head? = some .done)

variable {get : Files → Option Reservation} {put : Files → Files} {want : Reservation} {as : List Write}

lemma reserve_run : reserve get put want s as = (match get s with
    | some old => check (old.agrees want) .slugTaken
    | none => save put) s as := rfl

lemma reserve_some {old : Reservation} (h : get s = some old) : reserve get put want s as =
    (if old.agrees want then .ok () else .error (.fail .slugTaken), s, as) := by
  rw [reserve_run, h]
  cases hw : old.agrees want <;> simp only [hw] <;> rfl

lemma reserve_none (h : get s = none) : reserve get put want s as = match as with
    | [] => (.error .crash, s, [])
    | w :: as => (if w.ok then .ok () else .error (.fail .file), w.store s (put s), as) := by
  rw [reserve_run, h]
  rcases as with _ | ⟨_ | _ | _, _⟩ <;> rfl

lemma insert_ne {m : Map (Str × Str) Reservation} {k : Str × Str} (h : m.lookup k = none) : m.insert k want ≠ m := by
  intro he
  have hl := AList.lookup_insert (b := want) (a := k) m
  rw [he, h] at hl
  cases hl

def exampleReserved : Files := step exampleHost empty
  (exampleEvent exampleOperation (.createPublicShare exampleDeclaration) 100)

def exampleWant (channelID : Str) : Reservation := ⟨slugSchema, exampleRepo, "studio", "plans", channelID, 200⟩

end FileES.Shares
