import FileES.Shares.Channel

/-! When the reader accepts a record, and what each writer puts into one. -/

namespace FileES.Shares

open Go Lib.Fallible Credential List Option

variable {H : Host}

lemma isOk_iff {ε α : Type} {x : Except ε α} : x.isOk = true ↔ ∃ a, x = .ok a := by
  cases x with
  | error e => simp [Except.isOk, Except.toBool]
  | ok a => simp [Except.isOk, Except.toBool]

structure Credential.Good (H : Host) (c : Credential) : Prop where
  email : c.email = H.email c.email
  hash : (bytes c.tokenHash).length = 64
  hex : isHex c.tokenHash = true
  epoch : canonicalUUID c.epoch = true

variable {want addresses : List Str} {cs old : List Credential} {token : Str → Str}
  {epoch repeated realm id : Str} {r : Record} {d m : Share} {issued : List Credential × List Delivery}
  {now : ℤ} {s : Files}

lemma credentialsMatch_good (h : credentialsMatch H want cs = .ok ()) : ∀ c ∈ cs, c.Good H := by
  induction cs generalizing want with
  | nil => simp
  | cons c cs ih =>
    obtain ⟨_, hc, _, hhex, _, hepoch, h⟩ := bind₃_ok.mp h
    have hc := require_ok.mp hc
    simp only [Bool.and_eq_true, decide_eq_true_eq] at hc
    intro c' hc'
    rcases mem_cons.mp hc' with rfl | hc'
    · exact ⟨hc.1.2, hc.2, require_ok.mp hhex, require_ok.mp hepoch⟩
    · exact ih h c' hc'

lemma credentialsMatch_of_perm (hn : want.Nodup) (hperm : (cs.map email).Perm want)
    (hgood : ∀ c ∈ cs, c.Good H) : credentialsMatch H want cs = .ok () := by
  induction cs generalizing want with
  | nil =>
    rw [map_nil, nil_perm] at hperm
    simp [credentialsMatch, hperm, require]
  | cons c cs ih =>
    have hc := hgood c (by simp)
    have hmem : c.email ∈ want := hperm.mem_iff.mp (by simp)
    have hnodup : (c.email :: cs.map email).Nodup := by
      rw [← map_cons]
      exact hperm.nodup_iff.mpr hn
    have hrest : (cs.map email).Perm (want.filter (· ≠ c.email)) := by
      have hf := hperm.filter (· ≠ c.email)
      have hself : (cs.map email).filter (· ≠ c.email) = cs.map email := by
        rw [filter_eq_self]
        intro e he
        have : e ≠ c.email := by
          rintro rfl
          exact (nodup_cons.mp hnodup).1 he
        simpa using this
      rw [map_cons, filter_cons_of_neg (by simp), hself] at hf
      exact hf
    refine bind_ok.mpr ⟨(), ?_, bind_ok.mpr ⟨(), require_ok.mpr hc.hex, bind_ok.mpr
      ⟨(), require_ok.mpr hc.epoch, ih (hn.filter _) hrest (fun c' hc' => hgood c' (by simp [hc']))⟩⟩⟩
    rw [require_ok]
    simp only [Bool.and_eq_true, decide_eq_true_eq, contains_iff_mem]
    exact ⟨⟨hmem, hc.email⟩, hc.hash⟩

lemma retained_good {email : Str} {c : Credential} (hold : ∀ c ∈ old, c.Good H)
    (h : retained H old email = some c) : c.Good H ∧ c.email = email := by
  have hmem : c ∈ old := by simpa using mem_of_find?_eq_some h
  have hemail : H.email c.email = email := by simpa using find?_some h
  exact ⟨hold c hmem, (hold c hmem).email.trans hemail⟩

lemma issued_good {raw : Str} (he : canonicalUUID epoch = true) :
    Good H ⟨H.email raw, hexEncode (H.sha256 (token (H.email raw))).toList, epoch⟩ where
  email := (canonicalEmail_idem H.lowering raw).symm
  hash := by rw [(bytes_hexEncode _).1, List.Vector.toList_length]
  hex := isHex_hexEncode _
  epoch := he

section

variable (hold : ∀ c ∈ old, c.Good H) (hnew : canonicalUUID epoch = true ∨ ∀ raw ∈ addresses, (retained H old (H.email raw)).isSome = true)
include hold hnew

lemma issueEach_good {seen : List Str}
    {r : List Credential × List Delivery} (h : issueEach H token repeated epoch old seen addresses = .ok r) :
    r.1.map email = addresses.map H.email ∧ ∀ c ∈ r.1, c.Good H := by
  induction addresses generalizing seen r with
  | nil =>
    cases h
    simp
  | cons raw rest ih =>
    obtain ⟨_, _, ⟨cs, ds⟩, hrest, h⟩ := bind₂_ok.mp h
    obtain ⟨hemails, hgood⟩ := ih (hnew.imp_right (fun hall x hx => hall x (by simp [hx]))) hrest
    cases hret : retained H old (H.email raw) with
    | some c =>
      simp only [hret] at h
      cases h
      obtain ⟨hc, hemail⟩ := retained_good hold hret
      refine ⟨by rw [map_cons, map_cons, hemail, hemails], ?_⟩
      intro c' hc'
      rcases mem_cons.mp hc' with rfl | hc'
      · exact hc
      · exact hgood c' hc'
    | none =>
      simp only [hret] at h
      cases h
      have he : canonicalUUID epoch = true := by
        rcases hnew with he | hall
        · exact he
        · have hsome := hall raw (by simp)
          rw [hret] at hsome
          cases hsome
      refine ⟨by rw [map_cons, map_cons, hemails], ?_⟩
      intro c' hc'
      rcases mem_cons.mp hc' with rfl | hc'
      · exact issued_good he
      · exact hgood c' hc'

lemma issue_good {r : List Credential × List Delivery} (h : issue H token repeated epoch addresses old = .ok r) :
    (r.1.map email).Perm (addresses.map H.email) ∧ ∀ c ∈ r.1, c.Good H := by
  obtain ⟨r', hr', rfl⟩ := map_eq_ok.mp h
  obtain ⟨hemails, hgood⟩ := issueEach_good hold hnew hr'
  have hperm := perm_insertionSort (fun a b : Credential => a.email ≤ b.email) r'.1
  refine ⟨hemails ▸ hperm.map _, ?_⟩
  intro c hc
  exact hgood c (hperm.mem_iff.mp hc)

end

lemma declarationMatches_iff : declarationMatches H r d = .ok () ↔
      (d.ownerRealm = r.ownerRealm ∧ d.repoID = r.repoID ∧ d.slug = r.slug ∧ d.validate H.lowering = .ok ()) ∧
      r.recipients.length = d.recipients.length ∧ credentialsMatch H (d.recipients.map H.email) r.recipients = .ok () := by
  simp only [declarationMatches, bind_ok, require_ok, Bool.and_eq_true, decide_eq_true_eq, isOk_iff, exists_const]
  constructor
  · rintro ⟨⟨⟨⟨ho, hr⟩, hs⟩, _, hv⟩, hl, hc⟩
    exact ⟨⟨ho, hr, hs, hv⟩, hl, hc⟩
  · rintro ⟨⟨ho, hr, hs, hv⟩, hl, hc⟩
    exact ⟨⟨⟨⟨ho, hr⟩, hs⟩, _, hv⟩, hl, hc⟩

lemma declarationMatches_of_issue (hsame : d.ownerRealm = r.ownerRealm ∧ d.repoID = r.repoID ∧ d.slug = r.slug)
    (hv : d.validate H.lowering = .ok ()) (hr : r.recipients = cs)
    (hperm : (cs.map email).Perm (d.recipients.map H.email)) (hgood : ∀ c ∈ cs, c.Good H) :
    declarationMatches H r d = .ok () := by
  refine declarationMatches_iff.mpr ⟨⟨hsame.1, hsame.2.1, hsame.2.2, hv⟩, ?_, ?_⟩
  · simpa [hr] using hperm.length_eq
  · rw [hr]
    exact credentialsMatch_of_perm (Share.validate_ok hv).2.2 hperm hgood

lemma validateRecord_iff : validateRecord H r = .ok () ↔
    (r.schema = recordSchema ∧ r.createdAt ≠ 0 ∧ r.createdAt ≤ r.updatedAt) ∧
    (canonicalUUID r.channelID = true ∧ canonicalUUID r.ownerRealm = true ∧ canonicalUUID r.repoID = true) ∧
    (∃ path, slugPath H.lowering r.realmAlias r.slug = .ok path) ∧ lifecycleOk H r = .ok () := by
  simp only [validateRecord, bind_ok, require_ok, Bool.and_eq_true, decide_eq_true_eq, exists_const, all_cons,
    all_nil, Bool.and_true, and_assoc, exists_and_right]

lemma manifest_of_valid (h : validateRecord H r = .ok ()) (hm : r.manifest = some m) :
    declarationMatches H r m = .ok () := by
  have hl := (validateRecord_iff.mp h).2.2.2
  unfold lifecycleOk at hl
  rw [hm] at hl
  cases hs : r.state with
  | active =>
    simp only [hs] at hl
    split at hl
    · cases hl
    · exact hl
  | revoked =>
    simp only [hs] at hl
    split at hl
    · cases hl
    · exact hl
  | deleted =>
    simp only [hs] at hl
    cases hl

lemma newRecord_valid {c : Call} {op realmAlias path : Str} (hop : canonicalUUID op = true)
    (hnow : c.now ≠ 0) (howner : d.ownerRealm = realm) (hd : d.validate H.lowering = .ok ())
    (hpath : slugPath H.lowering realmAlias d.slug = .ok path)
    (hissued : issueRecipients H op op d.recipients [] = .ok issued) :
    validateRecord H (newRecord c op realm realmAlias d issued.1) = .ok () := by
  obtain ⟨hcanon, hrepo, _⟩ := Share.validate_ok hd
  obtain ⟨hperm, hgood⟩ := issue_good (by simp) (.inl hop) hissued
  refine validateRecord_iff.mpr ⟨⟨rfl, hnow, le_rfl⟩, ⟨hop, howner ▸ hcanon, hrepo⟩, ⟨path, hpath⟩, ?_⟩
  exact declarationMatches_of_issue ⟨howner, rfl, rfl⟩ hd rfl hperm hgood

section

variable (h : validateRecord H r = .ok ())
include h

lemma updated_valid {current : Share} (hm : r.manifest = some current) (hs : r.state = .active)
    (hsame : d.ownerRealm = current.ownerRealm ∧ d.repoID = current.repoID ∧ d.slug = current.slug)
    (hd : d.validate H.lowering = .ok ()) (hnow : r.createdAt ≤ now)
    (hnew : canonicalUUID epoch = true ∨ ∀ raw ∈ d.recipients, (retained H r.recipients (H.email raw)).isSome = true)
    (hissued : issue H token repeated epoch d.recipients r.recipients = .ok issued) :
    validateRecord H { r with manifest := some d, recipients := issued.1, updatedAt := now } = .ok () := by
  obtain ⟨⟨hschema, hcreated, _⟩, hids, hpath, hlife⟩ := validateRecord_iff.mp h
  obtain ⟨⟨ho, hr, hsl, _⟩, _, hcs⟩ := declarationMatches_iff.mp (manifest_of_valid h hm)
  obtain ⟨hperm, hgood⟩ := issue_good (credentialsMatch_good hcs) hnew hissued
  refine validateRecord_iff.mpr ⟨⟨hschema, hcreated, hnow⟩, hids, hpath, ?_⟩
  have hdel : r.deletedAt.isSome = false := by
    unfold lifecycleOk at hlife
    rw [hm, hs] at hlife
    simp only at hlife
    split at hlife
    · cases hlife
    · simpa using ‹¬ r.deletedAt.isSome = true›
  unfold lifecycleOk
  simp only [hs, hdel]
  exact declarationMatches_of_issue ⟨hsame.1.trans ho, hsame.2.1.trans hr, hsame.2.2.trans hsl⟩ hd rfl hperm hgood

lemma revoked_valid (hm : r.manifest = some m) (hs : r.state = .active)
    (hnow : r.createdAt ≤ now) : validateRecord H (r.revoke now) = .ok () := by
  obtain ⟨⟨hschema, hcreated, _⟩, hids, hpath, hlife⟩ := validateRecord_iff.mp h
  refine validateRecord_iff.mpr ⟨⟨hschema, hcreated, hnow⟩, hids, hpath, ?_⟩
  have hmatch := manifest_of_valid h hm
  unfold lifecycleOk at hlife ⊢
  simp only [hs, hm] at hlife
  split at hlife
  · cases hlife
  · rename_i hdel
    simp only [Record.revoke, hm, isNone_some, Bool.false_or, hdel]
    exact declarationMatches_iff.mpr (declarationMatches_iff.mp hmatch)

lemma deleted_valid (hnow : r.createdAt ≤ now) : validateRecord H (r.delete now) = .ok () := by
  obtain ⟨⟨hschema, hcreated, _⟩, hids, hpath, _⟩ := validateRecord_iff.mp h
  exact validateRecord_iff.mpr ⟨⟨hschema, hcreated, hnow⟩, hids, hpath, rfl⟩

end

lemma loadPath_eq_ok : loadPath H s id = .ok r ↔ s.records.lookup id = some r ∧ validateRecord H r = .ok () := by
  unfold loadPath
  cases hl : s.records.lookup id with
  | none => simp
  | some r' =>
    simp only [ite_ok, Except.ok.injEq, some.injEq]
    constructor
    · rintro ⟨hok, rfl⟩
      obtain ⟨_, hok⟩ := isOk_iff.mp hok
      exact ⟨rfl, hok⟩
    · rintro ⟨rfl, hv⟩
      exact ⟨isOk_iff.mpr ⟨_, hv⟩, rfl⟩

lemma load_eq_ok (h : load H s id = .ok r) : s.records.lookup id = some r ∧ validateRecord H r = .ok () :=
  loadPath_eq_ok.mp (ite_ok.mp h).2

lemma loadPath_notFound (h : loadPath H s id = .error .notFound) : s.records.lookup id = none := by
  unfold loadPath at h
  cases hl : s.records.lookup id with
  | none => rfl
  | some r =>
    simp only [hl] at h
    split at h <;> cases h

def UploadRecord.Good (r : UploadRecord) : Prop := r.schema = uploadRecordSchema ∧ r.channelID ≠ []

lemma loadUploadPath_eq_ok {r : UploadRecord} :
    loadUploadPath s id = .ok r ↔ s.uploads.lookup id = some r ∧ r.Good := by
  unfold loadUploadPath UploadRecord.Good
  cases hl : s.uploads.lookup id with
  | none => simp
  | some r' =>
    simp only [Bool.and_eq_true, decide_eq_true_eq, ite_ok, Except.ok.injEq, some.injEq]
    exact ⟨fun ⟨hok, hr⟩ => ⟨hr, hr ▸ hok⟩, fun ⟨hr, hok⟩ => ⟨hr ▸ hok, hr⟩⟩

lemma loadUpload_eq_ok {r : UploadRecord} (h : loadUpload s id = .ok r) :
    s.uploads.lookup id = some r ∧ r.Good := loadUploadPath_eq_ok.mp (ite_ok.mp h).2

lemma loadUploadPath_notFound (h : loadUploadPath s id = .error .notFound) : s.uploads.lookup id = none := by
  unfold loadUploadPath at h
  cases hl : s.uploads.lookup id with
  | none => rfl
  | some r =>
    simp only [hl] at h
    split at h <;> cases h

lemma ownedManifest_eq_ok (h : ownedManifest r realm = .ok m) : r.manifest = some m ∧ m.ownerRealm = realm := by
  unfold ownedManifest at h
  split at h
  · rename_i m' hm'
    obtain ⟨ho, h⟩ := ite_ok.mp h
    cases h
    exact ⟨hm', ho⟩
  · cases h

end FileES.Shares
