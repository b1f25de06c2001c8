-- Tamper evidence: under an ideal signature scheme an accepted signature pins
-- every other member of the document, at any depth.
import VerifyRun.AuthorizationLaws
import VerifyRun.Receipt

namespace vfy.authorization

open python keys outcomes

/-- One signature verifies under one key for at most one message. -/
def Host.Ideal (host : Host) : Prop :=
  ∀ key signature message message', host.verify key signature message = true →
    host.verify key signature message' = true → message = message'

/-- Two documents carry the same signature block. -/
def SameSignature (v w : Value) : Prop :=
  (v.get? "signature").map Value.normalize = (w.get? "signature").map Value.normalize

theorem canonical_payloadOf {v : Value} (h : v.Canonical) : (payloadOf v).Canonical := by
  cases v with
  | dict members =>
    obtain ⟨hd, hkeys, hvalues⟩ := Value.canonical_dict.mp h
    rw [payloadOf_dict, Value.canonical_dict]
    exact ⟨hd.sublist (List.filter_sublist.map _), fun m hm => hkeys m (List.mem_filter.mp hm).1,
      fun m hm => hvalues m (List.mem_filter.mp hm).1⟩
  | _ => exact h

section

variable {host : Host} {keys : KeyRegistry} {v w : Value}

/-- Two documents of one signature block, signed under one registry, are the
same document. -/
theorem canonicalize_eq_of_signed (hideal : host.Ideal) (hv : v.Canonical) (hw : w.Canonical)
    (hsame : SameSignature v w) {historical historical' : Bool} {unknown invalid : String}
    {unknown' invalid' : String}
    (hsv : check_signature host v keys historical unknown invalid = .ok ())
    (hsw : check_signature host w keys historical' unknown' invalid' = .ok ()) :
    canon.canonicalize v = canon.canonicalize w := by
  obtain ⟨a, identity, entry, signature, message, h⟩ := check_signature_eq_ok.mp hsv
  obtain ⟨b, identity', entry', signature', message', h'⟩ := check_signature_eq_ok.mp hsw
  have hblock : a.normalize = b.normalize := by
    unfold SameSignature at hsame
    rw [h.carries, h'.carries] at hsame
    exact Option.some.inj hsame
  have hdv := hv.distinctKeys
  have hdw := hw.distinctKeys
  have hidentity : identity = identity' := by
    have hn := h.names
    have hn' := h'.names
    rw [← identity_of_normalize (hdv.get? h.carries), hblock,
      identity_of_normalize (hdw.get? h'.carries), hn'] at hn
    exact (Except.ok.inj hn).symm
  have hentry : entry = entry' := by
    have hr := h.registered
    rw [hidentity, h'.registered] at hr
    exact (Option.some.inj hr).symm
  have hsignature : signature = signature' := by
    have hn := (h.normalize hdv).decoded
    rw [hblock, (h'.normalize hdw).decoded] at hn
    simp only [Option.some.injEq, Value.str.injEq] at hn
    exact (base64.encode_injective (ofText_injective hn)).symm
  have hmessage : message = message' := by
    refine hideal entry.public_key signature _ _ h.verifies ?_
    rw [hentry, hsignature]
    exact h'.verifies
  have hpayload : canon.canonicalize (payloadOf v) = canon.canonicalize (payloadOf w) := by
    obtain ⟨t, ht, hmt⟩ := canon.canonical_bytes_eq_ok.mp h.covers
    obtain ⟨t', ht', hmt'⟩ := canon.canonical_bytes_eq_ok.mp h'.covers
    have htext : t = t' := by
      have hbytes : (String.ofList t).toByteArray = (String.ofList t').toByteArray := by
        rw [String.toByteArray_ofList, String.toByteArray_ofList, hmt, hmt', hmessage]
      exact String.ofList_injective (String.toByteArray_inj.mp hbytes)
    rw [canon.canonicalize_eq_encode, canon.canonicalize_eq_encode, ht, ht', htext]
  have hsamePayload := load.same_of_canonicalize_eq (canonical_payloadOf hv)
    (canonical_payloadOf hw) hpayload
  have hnormal := normalize_eq_of_payload hdv hdw h.carries h'.carries hblock
    (hsamePayload.normalize_eq (canonical_payloadOf hv).distinctKeys)
  exact load.canonicalize_eq_of_same hv hw (Value.same_of_normalize_eq hnormal)

end

/-- An authorization that is accepted is signed. -/
theorem signed_of_verify {host : Host} {v : Value} {P : rulebook.LoadedRulebook} {candidate : Value}
    {snap : snapshot.FrozenSnapshot} {result : gate.EvaluationResult} {runtime_id : Str}
    {time : Option Value} {keys : KeyRegistry} {registry : schema.Registry} {nonces : Option (List Str)}
    {historical : Bool} {A : FrozenAuthorization}
    (h : verify_authorization host v P candidate snap result runtime_id time keys registry nonces
      historical = .ok A) :
    check_signature host v keys historical "No key in the registry matches "
      "The signature does not verify over the authorization's payload." = .ok () := by
  unfold verify_authorization at h
  split at h
  · simp only [bind_eq_ok, exists_unit] at h
    exact h.2.1
  · cases h

end vfy.authorization

namespace vfy.receipt

open python keys outcomes authorization

/-- A receipt that is accepted is signed. -/
theorem signed_of_verify {host : Host} {v : Value} {keys : KeyRegistry} {registry : schema.Registry}
    {report : ReceiptVerification} (h : verify_receipt host v keys registry = .ok report) :
    check_signature host v keys true "No receipt key in the registry matches "
      "The signature does not verify over the receipt's payload." = .ok () := by
  unfold verify_receipt at h
  split at h
  · simp only [bind_eq_ok, exists_unit] at h
    obtain ⟨-, _, -, _, -, -, hsigned, -⟩ := h
    exact hsigned
  · cases h

/-- Under an ideal scheme and one key registry, an accepted receipt or
authorization is the only document, as a canonical value, that is ever accepted
with its signature block. -/
theorem accepted_signature_binds_the_document {host : Host} (hideal : host.Ideal)
    (keys : KeyRegistry) {v w : Value} (hv : v.Canonical) (hw : w.Canonical)
    (hsame : SameSignature v w) (hdiffer : canon.canonicalize v ≠ canon.canonicalize w) :
    (∀ registry report, verify_receipt host v keys registry = .ok report →
      ∀ registry', ∃ e, verify_receipt host w keys registry' = .error e) ∧
    (∀ P candidate snap result runtime_id time registry nonces historical A,
      verify_authorization host v P candidate snap result runtime_id time keys registry nonces
        historical = .ok A →
      ∀ P' candidate' snap' result' runtime_id' time' registry' nonces' historical', ∃ e,
        verify_authorization host w P' candidate' snap' result' runtime_id' time' keys registry'
          nonces' historical' = .error e) := by
  refine ⟨fun registry report haccept registry' => ?_, ?_⟩
  · cases hverify : verify_receipt host w keys registry' with
    | error e => exact ⟨e, rfl⟩
    | ok report' =>
      exact absurd (canonicalize_eq_of_signed hideal hv hw hsame (signed_of_verify haccept)
        (signed_of_verify hverify)) hdiffer
  · intro P candidate snap result runtime_id time registry nonces historical A haccept P' candidate'
      snap' result' runtime_id' time' registry' nonces' historical'
    cases hverify : verify_authorization host w P' candidate' snap' result' runtime_id' time' keys
        registry' nonces' historical' with
    | error e => exact ⟨e, rfl⟩
    | ok A' =>
      exact absurd (canonicalize_eq_of_signed hideal hv hw hsame
        (authorization.signed_of_verify haccept) (authorization.signed_of_verify hverify)) hdiffer

theorem ideal_plain : plainHost.Ideal := by
  intro key signature message message' h h'
  have hbytes : message.data.toList = message'.data.toList := by
    have heq := (of_decide_eq_true h).symm.trans (of_decide_eq_true h')
    exact List.append_cancel_left heq
  exact ByteArray.ext (Array.toList_inj.mp hbytes)

/-- The document with another nonce. -/
def withNonce (v : Value) : Value :=
  match v with
  | .dict members => .dict (members.map fun m =>
      (m.1, if m.1 = lit "nonce" then .str "tampered-with-nonce" else m.2))
  | other => other

theorem get?_withNonce (v : Value) (k : Str) : (withNonce v).get? k =
    (v.get? k).map fun w => if k = lit "nonce" then .str "tampered-with-nonce" else w := by
  cases v with
  | dict members =>
    rw [withNonce, Value.get?_dict, Value.get?_dict]
    induction members with
    | nil => rfl
    | cons m members ih =>
      obtain ⟨key, value⟩ := m
      by_cases hk : k = key
      · subst hk
        simp
      · have hk' : (k == key) = false := by simpa using hk
        simp only [List.map_cons, List.lookup_cons, hk']
        exact ih
  | _ => rfl

theorem canonical_withNonce {v : Value} (h : v.Canonical) : (withNonce v).Canonical := by
  cases v with
  | dict members =>
    obtain ⟨hd, hkeys, hvalues⟩ := Value.canonical_dict.mp h
    rw [withNonce, Value.canonical_dict]
    refine ⟨?_, ?_, ?_⟩
    · unfold Distinct at hd ⊢
      rw [List.map_map]
      exact hd
    · intro m hm
      obtain ⟨m', hm', rfl⟩ := List.mem_map.mp hm
      exact hkeys m' hm'
    · intro m hm
      obtain ⟨m', hm', rfl⟩ := List.mem_map.mp hm
      dsimp only
      split
      · simp [encodable_lit]
      · exact hvalues m' hm'
  | _ => exact h

/-- An authorization is accepted, and with another nonce it is refused. -/
theorem accepted_signature_binds_the_nonce : ∃ P S r A v,
    verify_authorization plainHost v P (.dict gate.smallCandidate) S r "runtime" none PLAIN_KEYS
      schema.REGISTRY none false = .ok A ∧
    ∃ e, verify_authorization plainHost (withNonce v) P (.dict gate.smallCandidate) S r "runtime"
      none PLAIN_KEYS schema.REGISTRY none false = .error e := by
  have ht : rulebook.instant (.str "2026-01-02T00:00:00Z") = .ok 1767312000000000000 := by
    decide +kernel
  have hexpires : add_seconds (.str "2026-01-02T00:00:00Z") DEFAULT_TTL_SECONDS =
      .ok "2026-01-02T00:05:00Z" := by decide +kernel
  obtain ⟨P, S, r, A, hP, -, hvalue, hr, hallow, httl, hA⟩ := issued_on
    (encodable_lit "2026-01-01T00:00:00Z") (by decide +kernel)
    (encodable_lit "2026-01-02T00:00:00Z") (by decide +kernel)
    (show rulebook.instant (.str "2026-01-01T00:00:00Z") = .ok 1767225600000000000 by
      decide +kernel) ht (by norm_num) hexpires (by decide +kernel) (encodable_lit _)
  obtain ⟨-, issued, frozen, ttl, action_digest, completed, h⟩ := issue_authorization_ok hA
  obtain rfl := Except.ok.inj (ht.symm.trans h.issued_instant)
  obtain rfl := Except.ok.inj (httl.symm.trans h.lifetime)
  have hcanonical := load.canonical_of_load h.document.reads_back
  have haccept : verify_authorization plainHost completed.normalize P (.dict gate.smallCandidate) S
      r "runtime" none PLAIN_KEYS schema.REGISTRY none false = .ok A := by
    rw [h.verify hvalue hr hallow lookup_plain (by decide) pair_plain,
      h.interval (by decide) (instant_expiry (by decide) (by decide +kernel))]
    rfl
  have hsame : SameSignature completed.normalize (withNonce completed.normalize) := by
    unfold SameSignature
    rw [get?_withNonce]
    simp
  have hdiffer : canon.canonicalize completed.normalize ≠
      canon.canonicalize (withNonce completed.normalize) := by
    intro heq
    have hnormal := (load.same_of_canonicalize_eq hcanonical (canonical_withNonce hcanonical)
      heq).normalize_eq hcanonical.distinctKeys
    have hget := congrArg (fun v => v.get? (lit "nonce")) hnormal
    rw [Value.get?_normalize hcanonical.distinctKeys,
      Value.get?_normalize (canonical_withNonce hcanonical).distinctKeys, get?_withNonce,
      Value.get?_normalize h.document.distinct, h.document.nonce] at hget
    simp at hget
  obtain ⟨-, hrefuse⟩ := accepted_signature_binds_the_document ideal_plain PLAIN_KEYS hcanonical
    (canonical_withNonce hcanonical) hsame hdiffer
  exact ⟨P, S, r, A, _, haccept, hrefuse _ _ _ _ _ _ _ _ _ _ haccept _ _ _ _ _ _ _ _ _⟩

end vfy.receipt
