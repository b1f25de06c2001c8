-- Signed documents: the key registry, the one accepted encoding of a
-- signature, and the steps that authorizations and receipts share when they
-- are signed and when their signature is checked.
import VerifyRun.Canon
import VerifyRun.Dynamic
import VerifyRun.RoundTrip
import VerifyRun.Lib.Base64

namespace vfy.canon

open python keys outcomes

/-- `decode_signature`: the text must be the one canonical encoding of its bytes. -/
def decode_signature (text : Value) : Except Exn (List UInt8) :=
  match text with
  | .str s =>
    match (toText? s).bind base64.decode? with
    | none => .error (fail .canonical_form_invalid "The signature value is not valid base64.")
    | some raw =>
      if ofText (base64.encode raw) ≠ s then .error (fail .canonical_form_invalid
        "The signature value is not the canonical base64 encoding of its own bytes.")
      else .ok raw
  | _ => .error (fail .canonical_form_invalid "A signature value must be a string.")

theorem decode_signature_eq_ok {v : Value} {raw : List UInt8} :
    decode_signature v = .ok raw ↔ v = .str (ofText (base64.encode raw)) := by
  unfold decode_signature
  constructor
  · intro h
    split at h
    · split at h
      · cases h
      · split at h
        · cases h
        · rename_i heq
          cases h
          rw [not_not.mp heq]
    · cases h
  · rintro rfl
    simp [base64.decode_encode]

end vfy.canon

namespace vfy.authorization

open python keys outcomes

def ALGORITHM : Str := "ed25519"

def KEY_LENGTH : Nat := 32

def ACTIVE : Str := "active"
def RETIRED : Str := "retired"
def REVOKED : Str := "revoked"

/-- What the interpreter and the cryptography package supply: the `repr` of a
key identity and Ed25519. `sign` and `usable` fail on a key that is not usable. -/
structure Host where
  repr : Str × Int → Str
  sign : List UInt8 → ByteArray → Option (List UInt8)
  usable : List UInt8 → Bool
  verify : List UInt8 → List UInt8 → ByteArray → Bool

/-- An entry of a key registry. -/
structure KeyEntry where
  public_key : List UInt8
  status : Option Str

/-- A key registry: entries by key id and key version. -/
abbrev KeyRegistry := List ((Str × Int) × KeyEntry)

/-- `check_key_status`. -/
def check_key_status (entry : KeyEntry) (historical : Bool) : Except Exn Unit := do
  let status := entry.status.getD ACTIVE
  raiseIf (status ∉ [ACTIVE, RETIRED, REVOKED])
    (fail .signing_key_invalid "A key status is active, retired, or revoked.")
  raiseIf (status = REVOKED)
    (fail .signing_key_revoked "The signing key is revoked; trusted verification is refused.")
  raiseIf (status = RETIRED ∧ ¬ historical)
    (fail .signing_key_retired "The signing key is retired and authorizes nothing.")

/-- The private key, the signature over the payload, and the payload with its
signature block. -/
def sign_payload (host : Host) (payload : List (Str × Value)) (key_id : Str) (key_version : Int)
    (private_key : List UInt8) : Except Exn Value := do
  let signing_bytes ← canon.canonical_bytes (.dict payload)
  match host.sign private_key signing_bytes with
  | none => .error (fail .signing_key_invalid "The private key is not a usable Ed25519 key.")
  | some signature =>
    pure (.dict (payload ++ [(lit "signature", .dict
      [("alg", .str ALGORITHM), ("key_id", .str key_id), ("key_version", .int key_version),
       ("value", .str (ofText (base64.encode signature)))])]))

/-- The members that a signature covers. -/
def payloadOf (value : Value) : Value :=
  match value with
  | .dict members => .dict (members.filter fun m => m.1 ≠ lit "signature")
  | other => other

/-- The key identity that a signature block names. -/
def identity_of (block : Value) : Except Exn (Str × Int) := do
  let key_id ← string (← getItem block "key_id")
  let key_version ← number (← getItem block "key_version")
  pure (key_id, key_version)

/-- The signature that a signature block carries. -/
def signature_of (block : Value) : Except Exn (List UInt8) := do
  match canon.decode_signature (← getItem block "value") with
  | .error (.verify failure) => .error (fail .signature_malformed failure.message)
  | other => other

/-- The registered key of the document, and the signature over its payload. -/
def check_signature (host : Host) (value : Value) (keys : KeyRegistry) (historical : Bool)
    (unknown invalid : String) : Except Exn Unit := do
  let block ← getItem value "signature"
  let identity ← identity_of block
  match keys.lookup identity with
  | none => .error (fail .signing_key_unknown (lit unknown ++ host.repr identity))
  | some entry => do
    check_key_status entry historical
    let signature ← signature_of block
    let signing_bytes ← canon.canonical_bytes (payloadOf value)
    raiseIf (¬ host.usable entry.public_key)
      (fail .signing_key_invalid "The registered key is not a usable Ed25519 key.")
    raiseIf (¬ host.verify entry.public_key signature signing_bytes)
      (fail .signature_invalid invalid)

/-! ## What a payload is -/

theorem payloadOf_dict (members : List (Str × Value)) :
    payloadOf (.dict members) = .dict (members.filter fun m => m.1 ≠ lit "signature") := rfl

theorem distinctKeys_payloadOf {v : Value} (h : v.DistinctKeys) : (payloadOf v).DistinctKeys := by
  cases h with
  | dict hd hv =>
    exact .dict (hd.sublist (List.filter_sublist.map _)) fun m hm => hv m (List.mem_filter.mp hm).1
  | null => exact .null
  | bool b => exact .bool b
  | int i => exact .int i
  | str s => exact .str s
  | list hl => exact .list hl

/-- A mapping that was read back is read back without one of its members. -/
theorem normalize_without {members : List (Str × Value)} (hd : Distinct members) (k : Str) :
    Value.dict ((sortByKey (members.map fun m => (m.1, m.2.normalize))).filter fun m => m.1 ≠ k) =
      (Value.dict (members.filter fun m => m.1 ≠ k)).normalize := by
  rw [Value.normalize_dict]
  congr 1
  have hfilter : (members.map fun m => (m.1, m.2.normalize)).filter (fun m => m.1 ≠ k) =
      (members.filter fun m => m.1 ≠ k).map fun m => (m.1, m.2.normalize) := by
    rw [List.filter_map]
    rfl
  have hperm := (sortByKey_perm (members.map fun m => (m.1, m.2.normalize))).filter
    fun m => m.1 ≠ k
  rw [hfilter] at hperm
  have hrest : Distinct (members.filter fun m => m.1 ≠ k) :=
    hd.sublist (List.filter_sublist.map _)
  have hdistinct := hrest.map_snd Value.normalize
  rw [← sortByKey_eq_of_perm (hdistinct.perm hperm.symm) hperm]
  exact (sortByKey_eq_self ((sortByKey_strict (hd.map_snd _)).filter _)).symm

theorem payloadOf_normalize {v : Value} (h : v.DistinctKeys) :
    payloadOf v.normalize = (payloadOf v).normalize := by
  cases h with
  | dict hd _ =>
    rw [Value.normalize_dict, payloadOf_dict, payloadOf_dict]
    exact normalize_without hd "signature"
  | null => rfl
  | bool b => rfl
  | int i => rfl
  | str s => rfl
  | list hl => rfl

/-- A mapping is its member under a key, and its other members. -/
theorem perm_of_lookup {ms : List (Str × Value)} (h : Distinct ms) {k : Str} {v : Value}
    (hl : ms.lookup k = some v) : ms.Perm ((k, v) :: ms.filter fun m => m.1 ≠ k) := by
  obtain ⟨l₁, l₂, rfl, hne⟩ := List.lookup_eq_some_iff.mp hl
  have hd : Distinct ((k, v) :: (l₁ ++ l₂)) := h.perm List.perm_middle
  have hrest : ∀ m ∈ l₁ ++ l₂, m.1 ≠ k := by
    intro m hm heq
    refine (List.nodup_cons.mp hd).1 ?_
    rw [List.mem_map]
    exact ⟨m, hm, heq⟩
  have hfilter : (l₁ ++ (k, v) :: l₂).filter (fun m => m.1 ≠ k) = l₁ ++ l₂ := by
    rw [List.filter_append, List.filter_cons_of_neg (by simp), ← List.filter_append,
      List.filter_eq_self]
    simpa using hrest
  rw [hfilter]
  exact List.perm_middle

/-- A document is its signature block and its payload. -/
theorem normalize_eq_of_payload {v w a b : Value} (hv : v.DistinctKeys) (hw : w.DistinctKeys)
    (ha : v.get? "signature" = some a) (hb : w.get? "signature" = some b)
    (hblock : a.normalize = b.normalize)
    (hpayload : (payloadOf v).normalize = (payloadOf w).normalize) : v.normalize = w.normalize := by
  cases hv with
  | @dict ms hms _ =>
    cases hw with
    | @dict ns hns _ =>
      rw [payloadOf_dict, payloadOf_dict, Value.normalize_dict, Value.normalize_dict,
        Value.dict.injEq] at hpayload
      have hpm := (perm_of_lookup hms ha).map fun m => (m.1, m.2.normalize)
      have hpn := (perm_of_lookup hns hb).map fun m => (m.1, m.2.normalize)
      have hrest := ((sortByKey_perm _).symm.trans (List.Perm.of_eq hpayload)).trans
        (sortByKey_perm _)
      have hperm : (ms.map fun m => (m.1, m.2.normalize)).Perm
          (ns.map fun m => (m.1, m.2.normalize)) := by
        refine hpm.trans (List.Perm.trans ?_ hpn.symm)
        rw [List.map_cons, List.map_cons, hblock]
        exact hrest.cons _
      rw [Value.normalize_dict, Value.normalize_dict, sortByKey_eq_of_perm (hms.map_snd _) hperm]
    | _ => cases hb
  | _ => cases ha

/-! ## Checking a signature -/

theorem signature_of_eq_ok {block : Value} {signature : List UInt8} :
    signature_of block = .ok signature ↔
      block.get? "value" = some (.str (ofText (base64.encode signature))) := by
  unfold signature_of
  simp only [bind_eq_ok, getItem_eq_ok]
  constructor
  · rintro ⟨text, htext, h⟩
    split at h
    · cases h
    · rw [htext, canon.decode_signature_eq_ok.mp h]
  · intro h
    exact ⟨_, h, by rw [canon.decode_signature_eq_ok.mpr rfl]⟩

/-- The document carries a signature over its payload that verifies under the
registered key that its signature block names. -/
structure SignedUnder (host : Host) (value : Value) (keys : KeyRegistry) (historical : Bool)
    (block : Value) (identity : Str × Int) (entry : KeyEntry) (signature : List UInt8)
    (signing_bytes : ByteArray) : Prop where
  carries : value.get? "signature" = some block
  names : identity_of block = .ok identity
  registered : keys.lookup identity = some entry
  accepted : check_key_status entry historical = .ok ()
  decoded : block.get? "value" = some (.str (ofText (base64.encode signature)))
  covers : canon.canonical_bytes (payloadOf value) = .ok signing_bytes
  usable : host.usable entry.public_key = true
  verifies : host.verify entry.public_key signature signing_bytes = true

section Checks

variable {host : Host} {value : Value} {keys : KeyRegistry} {historical : Bool}
  {unknown invalid : String}

theorem check_signature_eq_ok :
    check_signature host value keys historical unknown invalid = .ok () ↔
      ∃ block identity entry signature signing_bytes,
        SignedUnder host value keys historical block identity entry signature signing_bytes := by
  unfold check_signature
  simp only [bind_eq_ok, getItem_eq_ok]
  constructor
  · rintro ⟨block, hblock, identity, hidentity, h⟩
    cases hentry : keys.lookup identity with
    | none => simp [hentry] at h
    | some entry =>
      rw [hentry] at h
      simp only [bind_eq_ok, exists_unit, raiseIf_eq_ok, not_not, signature_of_eq_ok] at h
      obtain ⟨hstatus, signature, hsignature, signing_bytes, hbytes, husable, hverifies⟩ := h
      exact ⟨block, identity, entry, signature, signing_bytes, hblock, hidentity, hentry, hstatus,
        hsignature, hbytes, husable, hverifies⟩
  · rintro ⟨block, identity, entry, signature, signing_bytes, h⟩
    refine ⟨block, h.carries, identity, h.names, ?_⟩
    rw [h.registered]
    simp only [bind_eq_ok, exists_unit, raiseIf_eq_ok, not_not, signature_of_eq_ok]
    exact ⟨h.accepted, signature, h.decoded, signing_bytes, h.covers, h.usable, h.verifies⟩

theorem number_normalize (v : Value) : number v.normalize = number v := by
  cases v <;> simp [number]

theorem identity_of_normalize {block : Value} (h : block.DistinctKeys) :
    identity_of block.normalize = identity_of block := by
  unfold identity_of
  rw [getItem_normalize h, getItem_normalize h]
  cases getItem block "key_id" with
  | error e => rfl
  | ok key_id =>
    cases getItem block "key_version" with
    | error e => simp [Except.map, string_normalize]
    | ok key_version => simp [Except.map, string_normalize, number_normalize]

/-- A signed document stays signed when its members are sorted. -/
theorem SignedUnder.normalize {block : Value} {identity : Str × Int} {entry : KeyEntry}
    {signature : List UInt8} {signing_bytes : ByteArray} (hv : value.DistinctKeys)
    (h : SignedUnder host value keys historical block identity entry signature signing_bytes) :
    SignedUnder host value.normalize keys historical block.normalize identity entry signature
      signing_bytes where
  carries := by rw [Value.get?_normalize hv, h.carries]; rfl
  names := by rw [identity_of_normalize (hv.get? h.carries), h.names]
  registered := h.registered
  accepted := h.accepted
  decoded := by
    rw [Value.get?_normalize (hv.get? h.carries), h.decoded]
    rfl
  covers := by
    rw [payloadOf_normalize hv, ← h.covers, canon.canonical_bytes, canon.canonical_bytes,
      canon.canonicalize_eq_encode, canon.canonicalize_eq_encode,
      canon.encode_normalize (distinctKeys_payloadOf hv)]
  usable := h.usable
  verifies := h.verifies

end Checks

/-! ## Signing -/

/-- The key pair: what the private key signs verifies under the public key. -/
def Host.Pair (host : Host) (private_key public_key : List UInt8) : Prop :=
  host.usable public_key = true ∧ ∀ message signature,
    host.sign private_key message = some signature → host.verify public_key signature message = true

/-- The signature block of a signed payload. -/
def signatureBlock (key_id : Str) (key_version : Int) (signature : List UInt8) : Value := .dict
  [("alg", .str ALGORITHM), ("key_id", .str key_id), ("key_version", .int key_version),
   ("value", .str (ofText (base64.encode signature)))]

theorem sign_payload_eq_ok {host : Host} {payload : List (Str × Value)} {key_id : Str}
    {key_version : Int} {private_key : List UInt8} {completed : Value} :
    sign_payload host payload key_id key_version private_key = .ok completed ↔
      ∃ signing_bytes signature, canon.canonical_bytes (.dict payload) = .ok signing_bytes ∧
        host.sign private_key signing_bytes = some signature ∧
        completed = .dict (payload ++ [(lit "signature", signatureBlock key_id key_version
          signature)]) := by
  unfold sign_payload
  simp only [bind_eq_ok]
  constructor
  · rintro ⟨signing_bytes, hbytes, h⟩
    cases hsign : host.sign private_key signing_bytes with
    | none => simp [hsign] at h
    | some signature =>
      rw [hsign] at h
      exact ⟨signing_bytes, signature, hbytes, hsign, (Except.ok.inj h).symm⟩
  · rintro ⟨signing_bytes, signature, hbytes, hsign, rfl⟩
    refine ⟨signing_bytes, hbytes, ?_⟩
    rw [hsign]
    rfl

/-- A document that was signed with a key is signed under that key. -/
theorem signedUnder_of_sign {host : Host} {payload : List (Str × Value)} {key_id : Str}
    {key_version : Int} {private_key : List UInt8} {completed : Value}
    (h : sign_payload host payload key_id key_version private_key = .ok completed)
    (hfree : payload.lookup (lit "signature") = none) {keys : KeyRegistry} {entry : KeyEntry}
    (hkey : keys.lookup (key_id, key_version) = some entry) {historical : Bool}
    (hstatus : check_key_status entry historical = .ok ())
    (hpair : host.Pair private_key entry.public_key) : ∃ block signature signing_bytes,
      SignedUnder host completed keys historical block (key_id, key_version) entry signature
        signing_bytes := by
  obtain ⟨signing_bytes, signature, hbytes, hsign, rfl⟩ := sign_payload_eq_ok.mp h
  have hpayload : payloadOf (.dict (payload ++
      [(lit "signature", signatureBlock key_id key_version signature)])) = .dict payload := by
    rw [payloadOf_dict, List.filter_append, List.filter_eq_self.mpr, List.filter_eq_nil_iff.mpr,
      List.append_nil]
    · intro m hm
      rw [List.mem_singleton.mp hm]
      simp only [ne_eq, not_true_eq_false, decide_false, Bool.false_eq_true, not_false_eq_true]
    · intro m hm
      have hne := List.lookup_eq_none_iff.mp hfree m hm
      refine decide_eq_true fun heq => ?_
      rw [heq] at hne
      simp at hne
  refine ⟨signatureBlock key_id key_version signature, signature, signing_bytes, ?_, ?_, hkey,
    hstatus, ?_, ?_, hpair.1, hpair.2 _ _ hsign⟩
  · rw [Value.get?_dict, List.lookup_append, hfree, Option.none_or, List.lookup_cons_self]
  · simp [identity_of, signatureBlock, string, number, pure, Except.pure]
  · simp [signatureBlock]
  · rw [hpayload, hbytes]

/-! ## A host -/

/-- A host whose signature of a message is the key with the message. -/
def plainHost : Host where
  repr identity := lit "('" ++ identity.1 ++ lit "', " ++ ofText (toString identity.2).toList ++ lit ")"
  sign key message := if key.length = KEY_LENGTH then some (key ++ message.data.toList) else none
  usable key := decide (key.length = KEY_LENGTH)
  verify key signature message := decide (signature = key ++ message.data.toList)

/-- A key of that host, which signs and verifies. -/
def PLAIN_KEY : List UInt8 := List.replicate KEY_LENGTH 7

theorem pair_plain : plainHost.Pair PLAIN_KEY PLAIN_KEY := by
  refine ⟨by decide, fun message signature h => ?_⟩
  simpa [plainHost, PLAIN_KEY, eq_comm] using h

/-- The host signs every payload that has a canonical text. -/
theorem sign_plain {payload : List (Str × Value)} (h : (Value.dict payload).Canonical)
    (hfree : payload.lookup (lit "signature") = none) {key_id : Str} (hid : Encodable key_id)
    {key_version : Int} (hversion : Value.SafeInteger key_version) :
    ∃ signature, sign_payload plainHost payload key_id key_version PLAIN_KEY =
        .ok (.dict (payload ++ [(lit "signature", signatureBlock key_id key_version signature)])) ∧
      (Value.dict (payload ++
        [(lit "signature", signatureBlock key_id key_version signature)])).Canonical := by
  obtain ⟨t, ht⟩ := canon.encode_of_canonical h
  have hbytes : canon.canonical_bytes (.dict payload) = .ok (String.ofList t).toByteArray := by
    rw [canon.canonical_bytes, canon.canonicalize_eq_encode, ht]
    rfl
  refine ⟨PLAIN_KEY ++ (String.ofList t).toByteArray.data.toList, sign_payload_eq_ok.mpr
    ⟨_, _, hbytes, by simp [plainHost, PLAIN_KEY], rfl⟩, ?_⟩
  obtain ⟨hdistinct, hkeys, hmembers⟩ := Value.canonical_dict.mp h
  refine Value.canonical_dict.mpr ⟨?_, ?_, ?_⟩
  · unfold Distinct at hdistinct ⊢
    rw [List.map_append, List.nodup_append]
    refine ⟨hdistinct, by simp, ?_⟩
    rintro k hk k' hk' rfl
    obtain ⟨m, hm, rfl⟩ := List.mem_map.mp hk
    have hne := List.lookup_eq_none_iff.mp hfree m hm
    simp at hk'
    simp [hk'] at hne
  · rw [List.forall_mem_append]
    exact ⟨hkeys, by simp [encodable_lit]⟩
  · rw [List.forall_mem_append]
    refine ⟨hmembers, ?_⟩
    simp [signatureBlock, Distinct, encodable_lit, hid, hversion, ALGORITHM]

end vfy.authorization
