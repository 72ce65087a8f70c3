import FileES.Shares.Edits

/-! The store stays readable as long as identifiers come in the canonical spelling and the clock does not go back behind
the creation of a record. -/

namespace FileES.Shares

open Go Lib.Fallible Lib.Maps Lib.Runs

/-- Every stored record is accepted by the functions that read it back. -/
def Readable (H : Host) (s : Files) : Prop :=
  (∀ id r, s.records.lookup id = some r → loadPath H s id = .ok r) ∧
    ∀ id r, s.uploads.lookup id = some r → loadUploadPath s id = .ok r

/-- The lists and the count are available: to the operator, and to every realm that may ask for them. -/
def Answers (H : Host) (s : Files) : Prop :=
  (∃ rs, listAll H s = .ok rs) ∧ (∀ realm, ∃ n, channelCount H s realm = .ok n) ∧
    ∀ c realm repo, H.complete = true → isUUID realm = true → isUUID repo = true →
      c.authority.ownsActiveRepository realm repo = true →
      (∃ rs, listOwned H c s realm repo = .ok rs) ∧ ∃ rs, listOwnedUploads H c s realm repo = .ok rs

def InTime (H : Host) (s : Files) (e : Event) : Prop :=
  e.1.Canonical ∧ ∀ id r, s.records.lookup id = some r → e.1.Timely H id r

instance (o : Order) : Decidable o.Canonical := by
  unfold Order.Canonical
  split
  · split <;> infer_instance
  · infer_instance

instance (H : Host) (o : Order) (id : Str) (r : Record) : Decidable (o.Timely H id r) := by
  unfold Order.Timely
  split
  · split <;> infer_instance
  · infer_instance
  · infer_instance

instance (H : Host) (s : Files) (e : Event) : Decidable (InTime H s e) :=
  decidable_of_iff (e.1.Canonical ∧ ∀ x ∈ s.records.entries, e.1.Timely H x.1 x.2) (by
    refine and_congr_right (fun _ => ⟨fun h id r hr => h ⟨id, r⟩ (mem_entries_iff.mpr hr), ?_⟩)
    rintro h ⟨id, r⟩ hr
    exact h id r (mem_entries_iff.mp hr))

variable {H : Host} {s s' : Files} {o : Order}

lemma readable_iff : Readable H s ↔ (∀ id r, s.records.lookup id = some r → validateRecord H r = .ok ()) ∧
    ∀ id r, s.uploads.lookup id = some r → r.Good := by
  constructor
  · rintro ⟨hr, hu⟩
    exact ⟨fun id r h => (loadPath_eq_ok.mp (hr id r h)).2, fun id r h => (loadUploadPath_eq_ok.mp (hu id r h)).2⟩
  · rintro ⟨hr, hu⟩
    exact ⟨fun id r h => loadPath_eq_ok.mpr ⟨h, hr id r h⟩, fun id r h => loadUploadPath_eq_ok.mpr ⟨h, hu id r h⟩⟩

lemma mapM_names {V : Type} {m : Map Str V} {f : Str → Except StoreError V}
    (h : ∀ id v, m.lookup id = some v → f id = .ok v) : ∃ vs, (names m).mapM f = .ok vs := by
  refine exists_mapM_eq_ok (fun id hid => ?_)
  rw [names, List.mem_insertionSort, ← AList.mem_keys, ← AList.lookup_isSome] at hid
  obtain ⟨v, hv⟩ := Option.isSome_iff_exists.mp hid
  exact ⟨v, h id v hv⟩

lemma Readable.answers (h : Readable H s) : Answers H s := by
  obtain ⟨rs, hrs⟩ : ∃ rs, loadAll H s = .ok rs := mapM_names h.1
  obtain ⟨us, hus⟩ : ∃ us, loadAllUploads s = .ok us := mapM_names h.2
  refine ⟨⟨_, map_eq_ok.mpr ⟨rs, hrs, rfl⟩⟩, fun realm => ⟨_, map_eq_ok.mpr ⟨rs, hrs, rfl⟩⟩, ?_⟩
  intro c realm repo hcomplete hrealm hrepo howns
  constructor
  · rw [listOwned, hcomplete, hrealm, hrepo, howns, hrs]
    exact ⟨_, rfl⟩
  · rw [listOwnedUploads, hcomplete, hrealm, hrepo, howns, hus]
    exact ⟨_, rfl⟩

lemma timely_of_newShare {a : Str × Address} (h : o.newShare = some a) (id : Str) (r : Record) : o.Timely H id r := by
  cases o with
  | ticket q =>
    cases hq : q.ticket <;> simp [Order.newShare, hq] at h
    simp [Order.Timely, hq]
  | operatorDelete c channelID => cases h
  | removeRealm c realm => cases h

lemma Edit.readable (he : Edit H o s s') (ho : o.Canonical) (h : Readable H s)
    (ht : ∀ id r, s.records.lookup id = some r → o.Timely H id r) :
    Readable H s' ∧ ∀ id r, s'.records.lookup id = some r → o.Timely H id r := by
  obtain ⟨hr, hu⟩ := readable_iff.mp h
  rw [readable_iff]
  cases he with
  | slug k reservation hnew => exact ⟨⟨hr, hu⟩, ht⟩
  | address reservation hnew => exact ⟨⟨hr, hu⟩, ht⟩
  | newShare r hnew hborn hres hok =>
    refine ⟨⟨?_, hu⟩, fun id r _ => timely_of_newShare hborn id r⟩
    intro id r' hid
    rcases lookup_insert_eq_some.mp hid with ⟨_, rfl⟩ | ⟨_, hid⟩
    · exact hok ho
    · exact hr id r' hid
  | share id r r' hold hsame hok =>
    obtain ⟨hvalid, htimely⟩ := hok (ht id r hold)
    refine ⟨⟨?_, hu⟩, ?_⟩
    · intro id' r'' hid
      rcases lookup_insert_eq_some.mp hid with ⟨_, rfl⟩ | ⟨_, hid⟩
      · exact hvalid
      · exact hr id' r'' hid
    · intro id' r'' hid
      rcases lookup_insert_eq_some.mp hid with ⟨rfl, rfl⟩ | ⟨_, hid⟩
      · exact htimely
      · exact ht id' r'' hid
  | newUpload r hnew hborn hres hok =>
    refine ⟨⟨hr, ?_⟩, ht⟩
    intro id r' hid
    rcases lookup_insert_eq_some.mp hid with ⟨_, rfl⟩ | ⟨_, hid⟩
    · exact hok
    · exact hu id r' hid
  | upload id r r' hold hsame =>
    refine ⟨⟨hr, ?_⟩, ht⟩
    intro id' r'' hid
    rcases lookup_insert_eq_some.mp hid with ⟨_, rfl⟩ | ⟨_, hid⟩
    · exact hsame.good
    · exact hu id' r'' hid

lemma step_readable {e : Event} (h : Readable H s) (he : InTime H s e) : Readable H (step H s e) := by
  have hedited : Edited H e.1 s (step H s e) := step_edited s e
  have hall : ∀ s', Edited H e.1 s s' →
      Readable H s' ∧ ∀ id r, s'.records.lookup id = some r → e.1.Timely H id r := by
    intro s' hs'
    induction hs' with
    | refl => exact ⟨h, he.2⟩
    | tail _ hedit ih => exact hedit.readable he.1 ih.1 ih.2
  exact (hall _ hedited).1

/-- In a run whose orders are in time, everything that the store has written can be read back, and the lists and the
count stay available. -/
theorem channel_store_closed (H : Host) (s : Files) (hs : Readable H s) (es : List Event)
    (h : Admits (step H) (InTime H) s es) : Along (step H) (fun s => Readable H s ∧ Answers H s) s es := by
  have hread : Along (step H) (Readable H) s es := along_of_admits (step H) (fun _ _ h he => step_readable h he) hs h
  exact fun pre hpre => ⟨hread pre hpre, (hread pre hpre).answers⟩

def exampleHost : Host where
  complete := true
  maxChannelsPerRealm := 10
  passwordRequired := false
  lowering := .ascii
  recipientToken := fun channelID epoch email => channelID ++ epoch ++ email
  uploadRecipientToken := fun channelID epoch email => channelID ++ epoch ++ email
  sha256 := fun _ => List.Vector.replicate 32 7

def exampleRealm : Str := "11111111-1111-4111-8111-111111111111"

def exampleRepo : Str := "22222222-2222-4222-8222-222222222222"

def exampleOperation : Str := "aaaaaaaa-aaaa-4aaa-8aaa-aaaaaaaaaaaa"

def exampleCall (now : ℤ) : Call where
  authority := ⟨fun _ _ => true, fun _ => some "studio"⟩
  reservedAt := now
  now := now
  clock := fun _ => now

def exampleDeclaration : ShareDeclaration where
  manageInvitations := false
  invitationMessage := []
  resendInvitations := false
  repoID := exampleRepo
  sourceRoot := ['.']
  slug := "plans"
  recipients := ["Ann@Example.org"]
  passwordHash := []
  doNotFollow := none
  objects := []

def exampleEvent (operationID : Str) (t : Ticket) (now : ℤ) : Event :=
  (.ticket ⟨operationID, exampleRealm, t, exampleCall now, true, none⟩, List.replicate 8 .done)

def exampleUpper : Str := "AAAAAAAA-aaaa-4aaa-8aaa-aaaaaaaaaaaa"

def exampleRun : List Event :=
  [exampleEvent exampleOperation (.createPublicShare exampleDeclaration) 100,
    exampleEvent exampleRepo (.updatePublicShare exampleOperation false
      { exampleDeclaration with recipients := ["ann@example.org", "bob@example.org"] }) 120,
    exampleEvent exampleRealm (.deletePublicShare exampleOperation) 150]

/-- A share is created, its recipients are changed, and it is deleted. -/
theorem channel_store_closed_in_time :
    Admits (step exampleHost) (InTime exampleHost) Files.empty exampleRun ∧
      Along (step exampleHost) (fun s => Readable exampleHost s ∧ Answers exampleHost s) Files.empty exampleRun := by
  have hempty : Readable exampleHost Files.empty := by simp [readable_iff, Files.empty]
  have hadmits : Admits (step exampleHost) (InTime exampleHost) Files.empty exampleRun := by decide +kernel
  exact ⟨hadmits, channel_store_closed exampleHost Files.empty hempty _ hadmits⟩

/-- An identifier in capitals, or a clock that goes back, is accepted, and no list can be read afterwards. -/
theorem accepted_request_makes_store_unreadable :
    let upper := exampleEvent exampleUpper (.createPublicShare exampleDeclaration) 100
    let early := [exampleEvent exampleOperation (.createPublicShare exampleDeclaration) 100,
      exampleEvent exampleOperation (.revokePublicShare exampleOperation) 50]
    (Ticket.createPublicShare exampleDeclaration).validate .ascii exampleUpper = .ok () ∧
      (Ticket.revokePublicShare exampleOperation).validate .ascii exampleOperation = .ok () ∧
      (listAll exampleHost (run (step exampleHost) Files.empty [upper])).isOk = false ∧
      (channelCount exampleHost (run (step exampleHost) Files.empty [upper]) exampleRepo).isOk = false ∧
      (listAll exampleHost (run (step exampleHost) Files.empty early)).isOk = false ∧
      (channelCount exampleHost (run (step exampleHost) Files.empty early) exampleRepo).isOk = false := by
  decide +kernel

end FileES.Shares
