-- The key registry: one identity for each public key. A signature block is
-- not covered by its signature, and still no signer can be relabelled: the
-- signature value selects the identity, and its bytes select its text.
import VerifyRun.TamperEvidence

namespace vfy.authorization

open python keys outcomes

/-! ## Building a registry -/

/-- An entry of the mapping that a registry is built from. -/
structure RegistryEntry where
  key_id : Str
  key_version : Int
  /-- Nothing for a value that is not bytes. -/
  public_key : Option (List UInt8)
  /-- Nothing for an entry with no status. -/
  status : Option Str

/-- The registry so far, and the identity of each public key in it. -/
structure Building where
  registry : KeyRegistry
  identities : List (List UInt8 × (Str × Int))

/-- One turn of the loop of `build_key_registry`. -/
def register_key (host : Host) (building : Building) (entry : RegistryEntry) :
    Except Exn Building := do
  let identity := (entry.key_id, entry.key_version)
  raiseIf (building.registry.lookup identity).isSome
    (fail .signing_key_invalid "Duplicate key identity in the registry.")
  match entry.public_key with
  | none => .error (fail .signing_key_invalid "An Ed25519 public key is 32 bytes.")
  | some public_key =>
    raiseIf (public_key.length ≠ KEY_LENGTH)
      (fail .signing_key_invalid "An Ed25519 public key is 32 bytes.")
    match building.identities.lookup public_key with
    | some registered => .error (fail .signing_key_invalid
        (lit "One public key carries one identity; this key is already registered as " ++
          host.repr registered ++ lit "."))
    | none =>
      let status := entry.status.getD ACTIVE
      raiseIf (status ∉ [ACTIVE, RETIRED, REVOKED])
        (fail .signing_key_invalid "A key status is active, retired, or revoked.")
      pure { registry := building.registry ++ [(identity, ⟨public_key, some status⟩)],
             identities := building.identities ++ [(public_key, identity)] }

/-- `build_key_registry`. -/
def build_key_registry (host : Host) (entries : List RegistryEntry) : Except Exn KeyRegistry := do
  let built ← entries.foldlM (register_key host) ⟨[], []⟩
  pure built.registry

/-! ## What a registry is -/

/-- No identity is registered twice, no public key carries two identities, and
every entry is one that a key can have. -/
structure Building.Sound (building : Building) : Prop where
  distinct : Distinct building.registry
  carried : ∀ m ∈ building.registry, building.identities.lookup m.2.public_key = some m.1
  length : ∀ m ∈ building.registry, m.2.public_key.length = KEY_LENGTH
  status : ∀ m ∈ building.registry, m.2.status.getD ACTIVE ∈ [ACTIVE, RETIRED, REVOKED]

theorem sound_register {host : Host} {building built : Building} {entry : RegistryEntry}
    (h : building.Sound) (hr : register_key host building entry = .ok built) : built.Sound := by
  unfold register_key at hr
  simp only [bind_eq_ok, exists_unit, raiseIf_eq_ok] at hr
  obtain ⟨hnew, hr⟩ := hr
  cases hkey : entry.public_key with
  | none => simp [hkey] at hr
  | some public_key =>
    rw [hkey] at hr
    simp only [bind_eq_ok, exists_unit, raiseIf_eq_ok, not_not] at hr
    obtain ⟨hlen, hr⟩ := hr
    cases hid : building.identities.lookup public_key with
    | some registered => simp [hid] at hr
    | none =>
      rw [hid] at hr
      simp only [bind_eq_ok, exists_unit, raiseIf_eq_ok, not_not, pure_eq_ok] at hr
      obtain ⟨hstatus, rfl⟩ := hr
      constructor
      · have hfree : ∀ m ∈ building.registry, m.1 ≠ (entry.key_id, entry.key_version) := by
          intro m hm heq
          have hnone := List.lookup_eq_none_iff.mp (Option.not_isSome_iff_eq_none.mp hnew) m hm
          simp [heq] at hnone
        unfold Distinct
        rw [List.map_append, List.nodup_append]
        refine ⟨h.distinct, by simp, ?_⟩
        rintro k hk k' hk' rfl
        obtain ⟨m, hm, rfl⟩ := List.mem_map.mp hk
        exact hfree m hm (by simpa using hk')
      · intro m hm
        rw [List.lookup_append]
        rcases List.mem_append.mp hm with hm | hm
        · rw [h.carried m hm, Option.some_or]
        · rw [List.mem_singleton.mp hm, hid, Option.none_or, List.lookup_cons_self]
      · intro m hm
        rcases List.mem_append.mp hm with hm | hm
        · exact h.length m hm
        · rw [List.mem_singleton.mp hm]
          exact hlen
      · intro m hm
        rcases List.mem_append.mp hm with hm | hm
        · exact h.status m hm
        · rw [List.mem_singleton.mp hm]
          exact hstatus

theorem sound_of_build {host : Host} {entries : List RegistryEntry} {keys : KeyRegistry}
    (h : build_key_registry host entries = .ok keys) :
    ∃ building : Building, building.Sound ∧ building.registry = keys := by
  unfold build_key_registry at h
  simp only [bind_eq_ok, pure_eq_ok] at h
  obtain ⟨built, hbuilt, rfl⟩ := h
  refine ⟨built, ?_, rfl⟩
  refine foldlM_invariant (fun s a s' hs hr => sound_register hs hr) ?_ hbuilt
  exact ⟨List.nodup_nil, by simp, by simp, by simp⟩

/-- One public key carries one identity. -/
theorem identity_of_key {host : Host} {entries : List RegistryEntry} {keys : KeyRegistry}
    (h : build_key_registry host entries = .ok keys) {identity identity' : Str × Int}
    {entry entry' : KeyEntry} (hi : keys.lookup identity = some entry)
    (hi' : keys.lookup identity' = some entry') (hkey : entry.public_key = entry'.public_key) :
    identity = identity' := by
  obtain ⟨building, hsound, rfl⟩ := sound_of_build h
  have hc := hsound.carried _ (mem_of_lookup hi)
  have hc' := hsound.carried _ (mem_of_lookup hi')
  dsimp only at hc hc'
  rw [hkey, hc'] at hc
  exact (Option.some.inj hc).symm

/-! ## Who signed -/

/-- A signature value verifies for one payload under at most one public key. -/
def Host.OneKey (host : Host) : Prop :=
  ∀ key key' signature message, host.verify key signature message = true →
    host.verify key' signature message = true → key = key'

/-- The documents differ in their signature blocks at most. -/
def SamePayload (v w : Value) : Prop :=
  canon.canonical_bytes (payloadOf v) = canon.canonical_bytes (payloadOf w)

/-- The document names a registered identity, and carries a signature over its
payload that verifies under the key of it. Whether the key may be used is
another matter. -/
structure SignedBy (host : Host) (keys : KeyRegistry) (v : Value) (identity : Str × Int)
    (entry : KeyEntry) (signature : List UInt8) : Prop where
  block : ∃ block, v.get? "signature" = some block ∧ identity_of block = .ok identity ∧
    block.get? "value" = some (.str (ofText (base64.encode signature)))
  registered : keys.lookup identity = some entry
  verifies : ∃ message, canon.canonical_bytes (payloadOf v) = .ok message ∧
    host.verify entry.public_key signature message = true

/-- The key may not be used. -/
def Barred (entry : KeyEntry) (historical : Bool) : Prop :=
  entry.status.getD ACTIVE = REVOKED ∨ entry.status.getD ACTIVE = RETIRED ∧ historical = false

theorem not_barred_of_check {entry : KeyEntry} {historical : Bool}
    (h : check_key_status entry historical = .ok ()) : ¬ Barred entry historical := by
  unfold check_key_status at h
  simp only [bind_eq_ok, exists_unit, raiseIf_eq_ok] at h
  obtain ⟨-, hrevoked, hretired⟩ := h
  rintro (hbar | ⟨hbar, hspend⟩)
  · exact hrevoked hbar
  · apply hretired
    rw [hspend]
    exact ⟨hbar, by simp⟩

section

variable {host : Host} {keys : KeyRegistry} {v w : Value} {identity identity' : Str × Int}
  {entry entry' : KeyEntry} {signature : List UInt8}

theorem SignedUnder.signedBy {keys' : KeyRegistry} {historical : Bool} {block : Value}
    {message : ByteArray}
    (h : SignedUnder host v keys' historical block identity entry' signature message)
    (hkey : keys.lookup identity = some entry) (hsame : entry.public_key = entry'.public_key) :
    SignedBy host keys v identity entry signature where
  block := ⟨block, h.carries, h.names, h.decoded⟩
  registered := hkey
  verifies := ⟨message, h.covers, hsame ▸ h.verifies⟩

/-- A document whose signature is accepted is signed by an identity whose key
may be used. -/
theorem signedBy_of_check {historical : Bool} {unknown invalid : String}
    (h : check_signature host v keys historical unknown invalid = .ok ()) :
    ∃ identity entry signature, SignedBy host keys v identity entry signature ∧
      ¬ Barred entry historical := by
  obtain ⟨block, identity, entry, signature, message, h⟩ := check_signature_eq_ok.mp h
  exact ⟨identity, entry, signature, h.signedBy h.registered rfl, not_barred_of_check h.accepted⟩

/-- A signature value over a payload is of one identity. -/
theorem SignedBy.identity_eq (hone : host.OneKey) {entries : List RegistryEntry}
    (hkeys : build_key_registry host entries = .ok keys) (hpayload : SamePayload v w)
    (hv : SignedBy host keys v identity entry signature)
    (hw : SignedBy host keys w identity' entry' signature) : identity = identity' := by
  obtain ⟨message, hm, hverifies⟩ := hv.verifies
  obtain ⟨message', hm', hverifies'⟩ := hw.verifies
  have hmessage : message = message' := by
    unfold SamePayload at hpayload
    rw [hm, hm'] at hpayload
    exact Except.ok.inj hpayload
  subst hmessage
  exact identity_of_key hkeys hv.registered hw.registered (hone _ _ _ _ hverifies hverifies')

end

end vfy.authorization

namespace vfy.receipt

open python keys outcomes authorization

/-- The document is accepted as a receipt or as an authorization. To be spent,
it has to be an authorization. -/
def Accepted (host : Host) (keys : KeyRegistry) (historical : Bool) (v : Value) : Prop :=
  (historical = true ∧ ∃ registry report, verify_receipt host v keys registry = .ok report) ∨
  ∃ P candidate snap result runtime_id time registry nonces A,
    verify_authorization host v P candidate snap result runtime_id time keys registry nonces
      historical = .ok A

theorem Accepted.signedBy {host : Host} {keys : KeyRegistry} {historical : Bool} {v : Value}
    (h : Accepted host keys historical v) : ∃ identity entry signature,
      SignedBy host keys v identity entry signature ∧ ¬ Barred entry historical := by
  rcases h with ⟨rfl, _, _, h⟩ | ⟨_, _, _, _, _, _, _, _, _, h⟩
  · exact signedBy_of_check (signed_of_verify h)
  · exact signedBy_of_check (authorization.signed_of_verify h)

/-- The identity that a document names. -/
def Names (v : Value) (identity : Str × Int) : Prop :=
  ∃ block, v.get? "signature" = some block ∧ identity_of block = .ok identity

/-- The text of the signature that a document carries. -/
def Carries (v : Value) (text : Str) : Prop :=
  ∃ block, v.get? "signature" = some block ∧ block.get? "value" = some (.str text)

section

variable {host : Host} {keys : KeyRegistry} {v : Value} {identity : Str × Int} {entry : KeyEntry}
  {signature : List UInt8}

theorem Names.eq {named : Str × Int} (hn : Names v named)
    (h : SignedBy host keys v identity entry signature) : named = identity := by
  obtain ⟨block, hb, hi⟩ := hn
  obtain ⟨block', hb', hi', -⟩ := h.block
  rw [hb, Option.some.injEq] at hb'
  subst hb'
  rw [hi] at hi'
  exact Except.ok.inj hi'

theorem Carries.eq {text : Str} (hc : Carries v text)
    (h : SignedBy host keys v identity entry signature) :
    text = ofText (base64.encode signature) := by
  obtain ⟨block, hb, ht⟩ := hc
  obtain ⟨block', hb', -, hs⟩ := h.block
  rw [hb, Option.some.injEq] at hb'
  subst hb'
  rw [ht] at hs
  exact Value.str.inj (Option.some.inj hs)

end

/-- The base64 text, as a reader that takes more than one text for the same
bytes decodes it. -/
def decoded (text : Str) : Option (List UInt8) := (toText? text).bind base64.decode?

theorem decoded_encode (raw : List UInt8) : decoded (ofText (base64.encode raw)) = some raw := by
  simp [decoded, base64.decode_encode]

/-- No signer is relabelled: a payload is accepted with a signature value
under one identity, the bytes of a signature are accepted in one text, and a
document whose signer is barred is refused. What is accepted with its payload
carries another signature, of another identity that is not barred. -/
structure NoRelabelling (host : Host) (keys : KeyRegistry) : Prop where
  one_identity : ∀ v w text identity identity' historical historical', SamePayload v w →
    Carries v text → Carries w text → Names v identity → Names w identity' →
    Accepted host keys historical v → Accepted host keys historical' w → identity = identity'
  one_text : ∀ v w text text' historical historical', Carries v text → Carries w text' →
    decoded text = decoded text' → Accepted host keys historical v →
    Accepted host keys historical' w → text = text'
  refused : ∀ v identity entry signature historical,
    SignedBy host keys v identity entry signature → Barred entry historical →
    ¬ Accepted host keys historical v
  other_signer : ∀ v w identity entry signature historical,
    SignedBy host keys v identity entry signature → Barred entry historical → SamePayload v w →
    Accepted host keys historical w → ∃ identity' entry' signature',
      SignedBy host keys w identity' entry' signature' ∧ ¬ Barred entry' historical ∧
        identity' ≠ identity ∧ signature' ≠ signature

/-- Under a scheme with one key for each signature of a payload, no registry
that was built lets a signer be relabelled. -/
theorem signers_are_not_relabelled {host : Host} (hone : host.OneKey)
    {entries : List RegistryEntry} {keys : KeyRegistry}
    (hkeys : build_key_registry host entries = .ok keys) : NoRelabelling host keys := by
  have hother : ∀ v w identity entry signature historical,
      SignedBy host keys v identity entry signature → Barred entry historical → SamePayload v w →
      Accepted host keys historical w → ∃ identity' entry' signature',
        SignedBy host keys w identity' entry' signature' ∧ ¬ Barred entry' historical ∧
          identity' ≠ identity ∧ signature' ≠ signature := by
    intro v w identity entry signature historical hsv hbarred hpayload hw
    obtain ⟨identity', entry', signature', hsw, hfree⟩ := hw.signedBy
    have hidentity : identity' ≠ identity := by
      rintro rfl
      have heq := hsv.registered.symm.trans hsw.registered
      rw [Option.some.injEq] at heq
      exact hfree (heq ▸ hbarred)
    refine ⟨identity', entry', signature', hsw, hfree, hidentity, ?_⟩
    rintro rfl
    exact hidentity (hsv.identity_eq hone hkeys hpayload hsw).symm
  refine ⟨?_, ?_, ?_, hother⟩
  · intro v w text identity identity' historical historical' hpayload hcv hcw hnv hnw hv hw
    obtain ⟨_, _, signature, hsv, -⟩ := hv.signedBy
    obtain ⟨_, _, signature', hsw, -⟩ := hw.signedBy
    have hsignature : signature = signature' := by
      have htext := (hcv.eq hsv).symm.trans (hcw.eq hsw)
      exact base64.encode_injective (ofText_injective htext)
    subst hsignature
    rw [hnv.eq hsv, hnw.eq hsw]
    exact hsv.identity_eq hone hkeys hpayload hsw
  · intro v w text text' historical historical' hcv hcw hsame hv hw
    obtain ⟨_, _, signature, hsv, -⟩ := hv.signedBy
    obtain ⟨_, _, signature', hsw, -⟩ := hw.signedBy
    rw [hcv.eq hsv, hcw.eq hsw, decoded_encode, decoded_encode, Option.some.injEq] at hsame
    rw [hcv.eq hsv, hcw.eq hsw, hsame]
  · intro v identity entry signature historical hsv hbarred hv
    obtain ⟨identity', entry', signature', hsv', -, hidentity, -⟩ :=
      hother v v identity entry signature historical hsv hbarred rfl hv
    obtain ⟨block, hb, hi, -⟩ := hsv'.block
    exact hidentity (Names.eq ⟨block, hb, hi⟩ hsv)

/-! ## Another signer -/

/-- A key that is no longer trusted. -/
def OLD_KEY : List UInt8 := List.replicate KEY_LENGTH 8

def TWO_ENTRIES : List RegistryEntry :=
  [⟨"old", 1, some OLD_KEY, some REVOKED⟩, ⟨"key", 1, some PLAIN_KEY, none⟩]

def TWO_KEYS : KeyRegistry :=
  [(("old", 1), ⟨OLD_KEY, some REVOKED⟩), (("key", 1), ⟨PLAIN_KEY, some ACTIVE⟩)]

theorem build_two : build_key_registry plainHost TWO_ENTRIES = .ok TWO_KEYS := by rfl

theorem oneKey_plain : plainHost.OneKey := by
  intro key key' signature message h h'
  have heq := (of_decide_eq_true h).symm.trans (of_decide_eq_true h')
  exact List.append_cancel_right heq

theorem signers_are_not_relabelled_two : NoRelabelling plainHost TWO_KEYS :=
  signers_are_not_relabelled oneKey_plain build_two

/-- The schema takes any signature block for another one. -/
theorem isAuthorization_block {payload : List (Str × Value)} {block block' : Value}
    (h : schema.IsAuthorization (.dict (payload ++ [(lit "signature", block)])))
    (hblock : schema.IsSignature block') :
    schema.IsAuthorization (.dict (payload ++ [(lit "signature", block')])) := by
  obtain ⟨members, hmembers, hrequired, hfields⟩ := h
  cases hmembers
  refine ⟨_, rfl, ?_, ?_⟩
  · intro r hr
    obtain ⟨w, hw⟩ := hrequired r hr
    rw [List.lookup_append] at hw ⊢
    cases hl : payload.lookup (lit r) with
    | some u => exact ⟨u, rfl⟩
    | none =>
      rw [hl, Option.none_or] at hw
      have hr : lit r = lit "signature" := by
        by_contra hne
        rw [List.lookup_cons, beq_false_of_ne hne] at hw
        cases hw
      rw [hr]
      exact ⟨block', by simp⟩
  · intro m hm
    rcases List.mem_append.mp hm with hm | hm
    · exact hfields m (List.mem_append_left _ hm)
    · rw [List.mem_singleton.mp hm]
      exact ⟨("signature", .dict [("$ref", .str "#/$defs/sig")], schema.IsSignature),
        by simp [schema.authorizationFields], rfl, hblock⟩

/-- The key that is no longer trusted signs what the other key signed. -/
theorem exists_old_signer {P : rulebook.LoadedRulebook} {candidate : Value}
    {snap : snapshot.FrozenSnapshot} {authorization_id nonce runtime_id issued_at action_digest : Str}
    {A : FrozenAuthorization} {issued frozen ttl : Int} {completed : Value}
    (h : authorization.Issued plainHost P candidate snap authorization_id nonce runtime_id issued_at
      "key" 1 PLAIN_KEY A issued frozen ttl action_digest completed) : ∃ members signature,
      SignedBy plainHost TWO_KEYS (.dict members) ("old", 1) ⟨OLD_KEY, some REVOKED⟩ signature ∧
      schema.validate (.dict members) schema.AUTHORIZATION_SCHEMA_ID schema.REGISTRY = .ok () ∧
      payloadOf completed.normalize = payloadOf (.dict members) := by
  obtain ⟨message, signature, hmessage, -, hcompleted⟩ := sign_payload_eq_ok.mp h.signed
  generalize rendered (civil (expirySecond issued ttl / 86400)) (expirySecond issued ttl % 86400) =
    expires_at at hmessage hcompleted
  have hold : sign_payload plainHost (payload authorization_id nonce issued_at expires_at runtime_id
      action_digest P.digest snap.digest) "old" 1 OLD_KEY = .ok (.dict (payload authorization_id nonce
        issued_at expires_at runtime_id action_digest P.digest snap.digest ++
        [(lit "signature", signatureBlock "old" 1 (OLD_KEY ++ message.data.toList))])) :=
    sign_payload_eq_ok.mpr ⟨message, _, hmessage, by simp [plainHost, OLD_KEY], rfl⟩
  have hdistinct : (Value.dict (payload authorization_id nonce issued_at expires_at runtime_id
      action_digest P.digest snap.digest ++
      [(lit "signature", signatureBlock "old" 1 (OLD_KEY ++ message.data.toList))])).DistinctKeys := by
    simp [payload, signatureBlock, Distinct]
  have hvalid : schema.IsAuthorization (.dict (payload authorization_id nonce issued_at expires_at
      runtime_id action_digest P.digest snap.digest ++
      [(lit "signature", signatureBlock "old" 1 (OLD_KEY ++ message.data.toList))])) := by
    refine isAuthorization_block (hcompleted ▸ (schema.validate_authorization_iff _).mp h.valid) ?_
    refine ⟨_, rfl, by simp, ?_⟩
    simp [schema.signatureFields, schema.IsText, schema.IsNatural, ALGORITHM]
  have hpair : plainHost.Pair OLD_KEY OLD_KEY := by
    refine ⟨by decide, fun message signature h => ?_⟩
    simpa [plainHost, OLD_KEY, eq_comm] using h
  -- The signature does not depend on the status, so it is read under an active key first.
  have hkey : ([((lit "old", 1), ⟨OLD_KEY, none⟩)] : KeyRegistry).lookup (lit "old", 1) =
      some ⟨OLD_KEY, none⟩ := rfl
  have hactive : check_key_status ⟨OLD_KEY, none⟩ false = .ok () := by decide
  obtain ⟨block, signature', message', hsigned⟩ :=
    signedUnder_of_sign hold (by simp [payload]) hkey hactive hpair
  have hpayload : payloadOf completed = payloadOf (.dict (payload authorization_id nonce issued_at
      expires_at runtime_id action_digest P.digest snap.digest ++
      [(lit "signature", signatureBlock "old" 1 (OLD_KEY ++ message.data.toList))])) := by
    rw [hcompleted]
    simp [payloadOf_dict, List.filter_append]
  have hnormal := hsigned.normalize hdistinct
  rw [← schema.validate_authorization_iff, ← schema.validate_normalize hdistinct] at hvalid
  have hsame := payloadOf_normalize hdistinct
  rw [← hpayload, ← payloadOf_normalize (h.document.distinct)] at hsame
  rw [Value.normalize_dict] at hnormal hvalid hsame
  exact ⟨_, signature', hnormal.signedBy rfl rfl, hvalid, hsame.symm⟩

/-- A document of a revoked signer is refused as such. -/
theorem verify_revoked {host : Host} {keys : KeyRegistry} {members : List (Str × Value)}
    {identity : Str × Int} {entry : KeyEntry} {signature : List UInt8} {registry : schema.Registry}
    (hs : SignedBy host keys (.dict members) identity entry signature)
    (hrevoked : entry.status = some REVOKED)
    (hvalid : schema.validate (.dict members) schema.AUTHORIZATION_SCHEMA_ID registry = .ok ())
    (P : rulebook.LoadedRulebook) (candidate : Value) (snap : snapshot.FrozenSnapshot)
    (result : gate.EvaluationResult) (runtime_id : Str) (time : Option Value)
    (nonces : Option (List Str)) (historical : Bool) :
    verify_authorization host (.dict members) P candidate snap result runtime_id time keys registry
      nonces historical = .error (fail .signing_key_revoked
        "The signing key is revoked; trusted verification is refused.") := by
  obtain ⟨block, hblock, hidentity, -⟩ := hs.block
  have hstatus : check_key_status entry historical = .error (fail .signing_key_revoked
      "The signing key is revoked; trusted verification is refused.") := by
    unfold check_key_status
    rw [hrevoked, Option.getD_some]
    dsimp only
    rw [raiseIf_neg (by simp), ok_bind, raiseIf_pos rfl, error_bind]
  unfold verify_authorization
  dsimp only
  rw [hvalid, ok_bind, check_signature, getItem_eq_ok.mpr hblock, ok_bind, hidentity, ok_bind,
    hs.registered]
  dsimp only
  rw [hstatus, error_bind, error_bind]

/-- A payload that was signed with a key that is now revoked is refused, and it
is accepted with the signature of the other key. -/
theorem revoked_signer_is_replaced : plainHost.OneKey ∧
    build_key_registry plainHost TWO_ENTRIES = .ok TWO_KEYS ∧
    ∃ P S r A v w signature,
      SignedBy plainHost TWO_KEYS v ("old", 1) ⟨OLD_KEY, some REVOKED⟩ signature ∧
      verify_authorization plainHost v P (.dict gate.smallCandidate) S r "runtime" none TWO_KEYS
        schema.REGISTRY none false = .error (fail .signing_key_revoked
          "The signing key is revoked; trusted verification is refused.") ∧
      payloadOf w = payloadOf v ∧
      verify_authorization plainHost w P (.dict gate.smallCandidate) S r "runtime" none TWO_KEYS
        schema.REGISTRY none false = .ok A := by
  have ht : rulebook.instant (.str "2026-01-02T00:00:00Z") = .ok 1767312000000000000 := by
    decide +kernel
  have hexpires : add_seconds (.str "2026-01-02T00:00:00Z") DEFAULT_TTL_SECONDS =
      .ok "2026-01-02T00:05:00Z" := by decide +kernel
  obtain ⟨P, S, r, A, hP, -, hvalue, hr, hallow, httl, hA⟩ := issued_on
    (encodable_lit "2026-01-01T00:00:00Z") (by decide +kernel)
    (encodable_lit "2026-01-02T00:00:00Z") (by decide +kernel)
    (show rulebook.instant (.str "2026-01-01T00:00:00Z") = .ok 1767225600000000000 by
      decide +kernel) ht (by norm_num) hexpires (by decide +kernel) (encodable_lit _)
  obtain ⟨-, issued, frozen, ttl, action_digest, completed, h⟩ := issue_authorization_ok hA
  obtain rfl := Except.ok.inj (ht.symm.trans h.issued_instant)
  obtain rfl := Except.ok.inj (httl.symm.trans h.lifetime)
  obtain ⟨members, signature, hsigned, hvalid, hpayload⟩ := exists_old_signer h
  refine ⟨oneKey_plain, build_two, P, S, r, A, _, completed.normalize, signature, hsigned,
    verify_revoked hsigned rfl hvalid _ _ _ _ _ _ _ _, hpayload, ?_⟩
  have hkey : TWO_KEYS.lookup (lit "key", 1) = some ⟨PLAIN_KEY, some ACTIVE⟩ := rfl
  rw [h.verify hvalue hr hallow hkey (by decide) pair_plain, h.interval (by decide) (instant_expiry (by decide) (by decide +kernel))]
  rfl

end vfy.receipt
