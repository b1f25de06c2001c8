-- The records of the child-budget ledger: what a check takes, what is signed
-- and read back, and which STARTs have children.
import VerifyRun.ChildLedger
import VerifyRun.RoundTrip

namespace vfy.child_ledger

open python keys outcomes load

/-! ## Checks -/

@[simp] theorem needOr_eq_ok {v : Prop} [Decidable v] {message : Str} :
    needOr v message = .ok () ↔ v := by
  simp [needOr]

@[simp] theorem need_eq_ok {v : Prop} [Decidable v] : need v = .ok () ↔ v := by
  simp [need]

@[simp] theorem lift_eq_ok {α : Type} {x : Except Exn α} {a : α} : lift x = .ok a ↔ x = .ok a := by
  cases x <;> simp [lift, Except.mapError]

/-- What two values with the same bytes hold is the same. -/
theorem normalize_eq_of_raw {v w : Value} (hv : v.DistinctKeys) (hw : w.DistinctKeys) {b : ByteArray}
    (h : raw v = .ok b) (h' : raw w = .ok b) : v.normalize = w.normalize := by
  obtain ⟨t, ht, hb⟩ := canon.canonical_bytes_eq_ok.mp (lift_eq_ok.mp h)
  obtain ⟨t', ht', hb'⟩ := canon.canonical_bytes_eq_ok.mp (lift_eq_ok.mp h')
  have hbytes : (String.ofList t).toByteArray = (String.ofList t').toByteArray := by
    rw [String.toByteArray_ofList, String.toByteArray_ofList, hb, hb']
  obtain rfl : t = t' := String.ofList_injective (String.toByteArray_inj.mp hbytes)
  have hv' := load.loads_encode (canon.canonical_of_encode hv ht) ht
  rw [load.loads_encode (canon.canonical_of_encode hw ht') ht'] at hv'
  exact (Except.ok.inj hv').symm

@[simp] theorem lift_ok {α : Type} (a : α) : lift (.ok a) = .ok a := rfl

theorem needKeys_eq_ok {v : Value} {names : List Str} {members : List (Str × Value)} :
    needKeys v names = .ok members ↔ v = .dict members ∧ sameKeys members names = true := by
  unfold needKeys
  split
  · simp only [bind_eq_ok, exists_unit, need_eq_ok, pure_eq_ok, Value.dict.injEq]
    constructor
    · rintro ⟨h, rfl⟩
      exact ⟨rfl, h⟩
    · rintro ⟨rfl, h⟩
      exact ⟨h, rfl⟩
  · rename_i hv
    constructor
    · intro h
      cases h
    · rintro ⟨rfl, -⟩
      exact absurd rfl (hv members)

/-! ## Bytes -/

/-- The canonical bytes of a value. -/
def bytesOf (v : Value) : ByteArray := (canon.canonical_bytes v).toOption.getD .empty

theorem bytesOf_eq {v : Value} (h : v.Canonical) : canon.canonical_bytes v = .ok (bytesOf v) := by
  obtain ⟨t, ht⟩ := canon.encode_of_canonical h
  have hb := canon.canonical_bytes_eq_ok.mpr ⟨t, ht, rfl⟩
  unfold bytesOf
  rw [hb]
  rfl

/-- The canonical text of a value, as the numbers of its bytes. -/
def textBytes (v : Value) : List Nat :=
  (((canon.encode v).toOption.getD []).flatMap String.utf8EncodeChar).map UInt8.toNat

/-- The digest of a value, without its bytes as an array. -/
theorem sha_bytesOf (v : Value) : sha (bytesOf v) = ofText (sha256.hexdigest (textBytes v)) := by
  have hdata : (bytesOf v).data.toList = ((canon.encode v).toOption.getD []).flatMap String.utf8EncodeChar := by
    unfold bytesOf canon.canonical_bytes
    rw [canon.canonicalize_eq_encode]
    cases canon.encode v with
    | error e => rfl
    | ok t =>
      show (String.ofList t).toByteArray.data.toList = _
      rw [String.toByteArray_ofList, List.utf8Encode, List.data_toByteArray]
      rfl
  unfold sha canon.sha256_hexdigest textBytes
  rw [hdata]

/-- The text of bytes is not longer than the bytes allow. -/
theorem size_utf8Encode (t : Text) : t.utf8Encode.size ≤ 4 * t.length := by
  rw [List.utf8Encode, ← ByteArray.size_data, ← Array.length_toList, List.toList_data_toByteArray]
  induction t with
  | nil => simp
  | cons c t ih =>
    rw [List.flatMap_cons, List.length_append, List.length_cons]
    have hchar : (String.utf8EncodeChar c).length ≤ 4 := by
      rw [String.length_utf8EncodeChar]
      exact Char.utf8Size_le_four c
    omega

theorem encodable_sha (b : ByteArray) : Encodable (sha b) := encodable_ofText _

/-- A digest text. -/
def zeros : Str := "0000000000000000000000000000000000000000000000000000000000000000"

theorem hex64_zeros : hex64 zeros := by decide +kernel

/-! ## Records -/

section Records

variable {β : Type} [Encoded β] {host : Host}

/-- A record that is accepted carries its own body. -/
theorem authenticate_eq_ok {record : Envelope β} {trust : Trust} {body : β}
    (h : authenticate host record trust = .ok body) : body = record.body := by
  unfold authenticate at h
  simp only [bind_eq_ok, exists_unit] at h
  obtain ⟨_, -, -, h⟩ := h
  split at h
  · cases h
  · simp only [bind_eq_ok, exists_unit, pure_eq_ok] at h
    obtain ⟨-, _, -, -, _, -, -, rfl⟩ := h
    rfl

theorem envelope_eq_ok {body : β} {key : List UInt8} {issuer : Str} {record : Envelope β}
    (h : envelope host body key issuer = .ok record) : record.body = body := by
  simp only [envelope, bind_eq_ok, pure_eq_ok] at h
  obtain ⟨_, -, _, -, rfl⟩ := h
  rfl

/-- A record that is signed and trusted, whatever its body. -/
structure Trusted (host : Host) (record : Envelope β) (trust : Trust) : Prop where
  digest : digest (.dict record.unsigned) = .ok record.sha256
  signed : ∃ entry bytes, trust.lookup record.issuer_identity = some entry ∧
    python.eq entry.producer_identity record.producer_identity = true ∧
    signedBytes record = .ok bytes ∧ host.verify entry.public_key_hex record.signature bytes = true

/-- What is left to check of such a record. -/
theorem Trusted.authenticate {record : Envelope β} {trust : Trust} (h : Trusted host record trust) :
    authenticate host record trust = (do
      let authority ← lift (getMethod (value record.body) "authority_granted")
      need (isFalse authority = true)
      pure record.body) := by
  obtain ⟨hdigest, entry, bytes, hentry, hproducer, hbytes, hverify⟩ := h
  unfold child_ledger.authenticate
  rw [hdigest, ok_bind, need_eq_ok.mpr rfl, ok_bind, hentry]
  dsimp only
  rw [needOr_eq_ok.mpr hproducer, ok_bind, hbytes, ok_bind, needOr_eq_ok.mpr hverify, ok_bind]

theorem trusted_of_authenticate {record : Envelope β} {trust : Trust} {body : β}
    (h : authenticate host record trust = .ok body) : Trusted host record trust := by
  unfold authenticate at h
  obtain ⟨sha256, hdigest, h⟩ := bind_eq_ok.mp h
  obtain ⟨hsame, h⟩ := seq_eq_ok.mp h
  split at h
  · cases h
  · rename_i entry hentry
    obtain ⟨hproducer, h⟩ := seq_eq_ok.mp h
    obtain ⟨bytes, hbytes, h⟩ := bind_eq_ok.mp h
    obtain ⟨hverify, -⟩ := seq_eq_ok.mp h
    refine ⟨?_, entry, bytes, hentry, needOr_eq_ok.mp hproducer, hbytes, needOr_eq_ok.mp hverify⟩
    rw [hdigest, need_eq_ok.mp hsame]

/-- A record that was signed is trusted by one who trusts its issuer. -/
theorem trusted_envelope {body : β} {key : List UInt8} {issuer : Str} {record : Envelope β} {trust : Trust}
    {entry : TrustEntry} (h : envelope host body key issuer = .ok record)
    (htrust : trust.lookup issuer = some entry)
    (hproducer : python.eq entry.producer_identity host.producer = true)
    (hverify : ∀ bytes, host.verify entry.public_key_hex (host.sign key bytes) bytes = true) :
    Trusted host record trust := by
  obtain ⟨bytes, hbytes, h⟩ := bind_eq_ok.mp h
  obtain ⟨sha256, hdigest, h⟩ := bind_eq_ok.mp h
  obtain rfl := pure_eq_ok.mp h
  exact ⟨hdigest, entry, bytes, htrust, hproducer, hbytes, hverify bytes⟩

end Records

theorem raw_of_canonical {v : Value} (h : v.Canonical) : ∃ b, raw v = .ok b := by
  obtain ⟨t, ht⟩ := canon.encode_of_canonical h
  exact ⟨_, lift_eq_ok.mpr (canon.canonical_bytes_eq_ok.mpr ⟨t, ht, rfl⟩)⟩

/-- A body that can be written is signed. -/
theorem envelope_ok {β : Type} [Encoded β] {host : Host} {body : β} (hbody : (value body).Canonical)
    (hproducer : host.producer.Canonical) (hsign : ∀ key bytes, Encodable (host.sign key bytes))
    {issuer : Str} (hissuer : Encodable issuer) (key : List UInt8) :
    ∃ record, envelope host body key issuer = .ok record := by
  have hmessage : ∀ record : Envelope β, record.issuer_identity = issuer →
      record.producer_identity = host.producer → record.body = body →
      (Value.dict record.message).Canonical := by
    intro record h₁ h₂ h₃
    unfold Envelope.message
    rw [h₁, h₂, h₃]
    simp [Distinct, hissuer, hproducer, hbody]
  obtain ⟨b, hb⟩ := raw_of_canonical
    (hmessage ⟨issuer, host.producer, body, [], []⟩ rfl rfl rfl)
  have hunsigned : ∀ signature : Str, Encodable signature → (Value.dict (Envelope.unsigned
      (⟨issuer, host.producer, body, signature, []⟩ : Envelope β))).Canonical := by
    intro signature hsignature
    simp [Envelope.unsigned, Envelope.message, Distinct, hissuer, hproducer, hbody, hsignature]
  obtain ⟨d, hd⟩ := raw_of_canonical (hunsigned (host.sign key (DOMAIN ++ b.data.toList)) (hsign _ _))
  have hbytes : signedBytes (⟨issuer, host.producer, body, [], []⟩ : Envelope β) =
      .ok (DOMAIN ++ b.data.toList) := bind_eq_ok.mpr ⟨b, hb, rfl⟩
  unfold envelope
  dsimp only
  rw [hbytes, ok_bind]
  exact ⟨_, bind_eq_ok.mpr ⟨sha d, bind_eq_ok.mpr ⟨d, hd, rfl⟩, rfl⟩⟩

/-- A record that was signed is accepted by one who trusts its issuer. -/
theorem authenticate_envelope {β : Type} [Encoded β] {host : Host} {body : β} {key : List UInt8}
    {issuer : Str} {record : Envelope β} {trust : Trust} {entry : TrustEntry}
    (h : envelope host body key issuer = .ok record) (htrust : trust.lookup issuer = some entry)
    (hproducer : python.eq entry.producer_identity host.producer = true)
    (hverify : ∀ bytes, host.verify entry.public_key_hex (host.sign key bytes) bytes = true)
    (hauthority : getMethod (value body) "authority_granted" = .ok (some (.bool false))) :
    authenticate host record trust = .ok body := by
  have hbody := envelope_eq_ok h
  rw [(trusted_envelope h htrust hproducer hverify).authenticate, hbody, hauthority, lift_ok, ok_bind,
    need_eq_ok.mpr (show child_ledger.isFalse (some (.bool false)) = true from rfl)]
  rfl

/-- What a signed record looks like. -/
theorem envelope_shape {β : Type} [Encoded β] {host : Host} {body : β} {key : List UInt8} {issuer : Str}
    {record : Envelope β} (h : envelope host body key issuer = .ok record) :
    ∃ bytes b, record = ⟨issuer, host.producer, body, host.sign key bytes, sha b⟩ := by
  obtain ⟨bytes, -, h⟩ := bind_eq_ok.mp h
  obtain ⟨sha256, hdigest, h⟩ := bind_eq_ok.mp h
  obtain ⟨b, -, hb⟩ := bind_eq_ok.mp hdigest
  obtain rfl := pure_eq_ok.mp hb
  exact ⟨bytes, b, (pure_eq_ok.mp h).symm⟩

/-- What can be signed gives a record that can be written. -/
theorem envelope_canonical {β : Type} [Encoded β] {host : Host} {body : β}
    (hbody : (value body).Canonical) (hproducer : host.producer.Canonical)
    (hsign : ∀ key bytes, Encodable (host.sign key bytes)) {issuer : Str} (hissuer : Encodable issuer)
    (key : List UInt8) :
    ∃ record, envelope host body key issuer = .ok record ∧ (value record).Canonical := by
  obtain ⟨record, hrecord⟩ := envelope_ok hbody hproducer hsign hissuer key
  refine ⟨record, hrecord, ?_⟩
  obtain ⟨bytes, b, rfl⟩ := envelope_shape hrecord
  have hsignature := hsign key bytes
  have hdigest := encodable_sha b
  simp [value, Envelope.unsigned, Envelope.message, Distinct, hissuer, hproducer, hsignature, hdigest]
  exact hbody

/-! ## The parent START -/

theorem readsInts_start : ReadsInts start_integer := by
  rintro i ⟨hlo, hhi⟩
  have hdigits : (Nat.toDigits 10 i.natAbs).length ≤ 16 :=
    (Nat.length_toDigits_le_iff (by norm_num) (by norm_num)).mpr (by omega)
  have hlength : (canon.decimal i).length ≤ 20 := by
    cases i with
    | ofNat n => exact le_trans hdigits (by norm_num)
    | negSucc n => exact le_trans (Nat.succ_le_succ hdigits) (by norm_num)
  have hzero : canon.decimal i ≠ ['-', '0'] := by
    intro h
    have hi := decimalValue_decimal i
    rw [h, show decimalValue ['-', '0'] = 0 from rfl] at hi
    rw [← hi] at h
    cases h
  unfold start_integer
  simp only [outcome_bind, outcome_lift, outcome_int, convert_decimal ⟨hlo, hhi⟩, ok_bind]
  rw [raiseIf_neg (not_not_intro ⟨hlength, hzero⟩), ok_bind, raiseIf_neg, ok_bind]
  · rfl
  · rw [not_not]
    unfold MAX_START_NS
    omega

/-- A START in its canonical form is read back. -/
theorem decode_parent_start_canonical {members : List (Str × Value)}
    (hc : (Value.dict members).Canonical) (hns : ∀ m ∈ members, m.1 ∉ START_NS_FIELDS)
    (hdepth : (Value.dict members).depth ≤ 64) {b : ByteArray}
    (hb : canon.canonical_bytes (.dict members) = .ok b) (hsize : b.size ≤ MAX_BYTES) :
    decode_parent_start b = .ok (Value.dict members).normalize := by
  obtain ⟨t, ht, rfl⟩ := canon.canonical_bytes_eq_ok.mp hb
  unfold decode_parent_start
  rw [need_eq_ok.mpr hsize, ok_bind, decode_encode ht, lift_ok, ok_bind,
    reject_excess_depth_encode ht, if_pos hdepth, lift_ok, ok_bind]
  rw [show outcome (json.loads { hooks with parse_int := start_integer } t) = _ from
    loads_encode_with readsInts_start hc ht]
  have hcn := hc.normalize
  rw [Value.normalize_dict'] at hcn ⊢
  simp only [Except.mapError, lift_ok, ok_bind]
  rw [forM_eq_ok.mpr, ok_bind]
  · rfl
  · intro m hm
    obtain ⟨-, hk, hv⟩ := Value.canonical_dict.mp hcn
    unfold check_start_member
    obtain ⟨t₁, ht₁⟩ := canon.encode_of_canonical (Value.canonical_str.mpr (hk m hm))
    obtain ⟨t₂, ht₂⟩ := canon.encode_of_canonical (hv m hm)
    rw [canon.canonicalize_eq_encode, ht₁, lift_ok, ok_bind, if_neg, canon.canonicalize_eq_encode, ht₂]
    · rfl
    · obtain ⟨m', hm', rfl⟩ := List.mem_map.mp hm
      exact hns m' (mem_sortByKey.mp hm')


/-- A START that `parent_binding` takes. -/
structure IsStart (s : Value) (basis : Artifact) (task_key operation_id attempt_id : Str)
    (ids : List Str) : Prop where
  state : s.get? "state" = some (.str "STARTED")
  automatic_retry : s.get? "automatic_retry" = some (.bool false)
  task_key : s.get? "task_key" = some (.str task_key) ∧ text task_key
  operation_id : s.get? "operation_id" = some (.str operation_id) ∧ text operation_id
  attempt_id : s.get? "attempt_id" = some (.str attempt_id) ∧ text attempt_id
  subject : ∃ subject_sha256, ((s.get? "task_identity").getD .null).get? "subject_sha256" =
    some (.str subject_sha256) ∧ hex64 subject_sha256
  population : ∃ members, s.get? "native_child_population" = some (.dict members) ∧
    members.lookup (lit "state") = some (.str "DECLARED_BEFORE_DISPATCH") ∧
    members.lookup (lit "expected_child_ids") = some (.list (ids.map .str))
  ids : 0 < ids.length ∧ ids.length ≤ 128 ∧ (∀ id ∈ ids, text id) ∧ ids.Nodup
  named : text basis.path ∧ hex64 basis.sha256
  artifacts : ∃ rows, s.get? "input_artifacts" = some (.list rows) ∧ namesArtifact rows basis = true

theorem textOf_str {s : Str} (h : text s) : textOf (.str s) = .ok s := by
  show (need (text s) >>= fun _ => pure s) = _
  rw [need_eq_ok.mpr h]
  rfl

theorem mapM_textOf {ids : List Str} (h : ∀ id ∈ ids, text id) : (ids.map .str).mapM textOf = .ok ids := by
  refine mapM_eq_ok.mpr (List.forall₂_map_left_iff.mpr (List.forall₂_same.mpr fun id hid => ?_))
  exact textOf_str (h id hid)

theorem IsStart.bound {s : Value} {basis : Artifact} {task_key operation_id attempt_id : Str}
    {ids : List Str} (h : IsStart s basis task_key operation_id attempt_id ids)
    {start_bytes : ByteArray} (hdecode : decode_parent_start start_bytes = .ok s) :
    parent_binding start_bytes basis = .ok
      { task_key, task_identity := (s.get? "task_identity").getD .null,
        parent_binding := { operation_id, attempt_id, start_sha256 := sha start_bytes,
                            basis_artifact := basis },
        expected_child_ids := ids } := by
  obtain ⟨subject, hsubject, hhex⟩ := h.subject
  obtain ⟨members, hpopulation, hstate, hids⟩ := h.population
  obtain ⟨rows, hrows, hnames⟩ := h.artifacts
  obtain ⟨hpos, hmany, htext, hnodup⟩ := h.ids
  have hhexOf : hex64Of (.str subject) = .ok subject := by
    show (need (hex64 subject) >>= fun _ => pure subject) = _
    rw [need_eq_ok.mpr hhex]
    rfl
  unfold parent_binding
  rw [hdecode, ok_bind, h.state, h.automatic_retry, h.task_key.1, h.operation_id.1, h.attempt_id.1]
  rw [need_eq_ok.mpr ⟨by simp, rfl⟩, ok_bind]
  simp only [Option.getD_some, textOf_str h.task_key.2, textOf_str h.operation_id.2,
    textOf_str h.attempt_id.2, ok_bind]
  rw [hsubject]
  simp only [Option.getD_some, hhexOf, ok_bind, hpopulation, getMethod, lift_ok, hstate, hids]
  rw [need_eq_ok.mpr (by simp), ok_bind, need_eq_ok.mpr (by simpa using ⟨hpos, hmany⟩), ok_bind,
    mapM_textOf htext, ok_bind, need_eq_ok.mpr hnodup, ok_bind, need_eq_ok.mpr h.named, ok_bind,
    hrows]
  simp only [Option.getD_some, iterate, lift_ok, ok_bind]
  rw [need_eq_ok.mpr hnames]
  rfl

end vfy.child_ledger
