-- Replay completeness: a receipt that was issued for a decision replays, from
-- the recorded inputs, to the decision that it records, however much later.
import VerifyRun.AuthorizationLaws
import VerifyRun.Receipt
import VerifyRun.LoaderFailures
import VerifyRun.YamlValues

/-! ## What a result records -/

namespace vfy.gate

open python keys outcomes schema

/-- The document of a result. -/
structure Records (r : EvaluationResult) (d : Value) : Prop where
  distinct : d.DistinctKeys
  valid : IsOutcome d
  text : canon.canonicalize d = .ok r.canonical
  outcome : d.get? "outcome" = some (.str r.outcome)

theorem distinctKeys_reason (code message : Str) (rule_id evidence_id : Option Str) :
    (reason code message rule_id evidence_id).DistinctKeys := by
  cases rule_id <;> cases evidence_id <;> simp [reason, Distinct]

theorem records_result {outcome : Str} {reasons : List Value}
    (hr : ∀ x ∈ reasons, x.DistinctKeys) {matched_rule : Option Str} {trace : Option (List Str)}
    {r : EvaluationResult} (h : result REGISTRY outcome reasons matched_rule trace = .ok r) :
    r.outcome = outcome ∧ Records r (documentOf outcome reasons matched_rule trace) := by
  unfold result at h
  simp only [bind_eq_ok, exists_unit, pure_eq_ok] at h
  obtain ⟨hvalid, t, ht, rfl⟩ := h
  refine ⟨rfl, ?_, (validate_outcome_iff _).mp hvalid, ht, ?_⟩
  · cases matched_rule <;> cases trace <;> simp_all [documentOf, Distinct]
  · simp [documentOf]

/-- The walk ends with a result, whatever the rules are. -/
theorem walk_records {context : Context} {rules : List Value} :
    ∀ {ordinal : Nat} {trace : List Str} {r : EvaluationResult},
      walk context REGISTRY rules ordinal trace = .ok r → ∃ d, Records r d := by
  induction rules with
  | nil =>
    intro ordinal trace r h
    simp only [walk, bind_eq_ok] at h
    obtain ⟨outcome, -, _, -, _, -, h⟩ := h
    exact ⟨_, (records_result (by simp [distinctKeys_reason]) h).2⟩
  | cons rule rules ih =>
    intro ordinal trace r h
    simp only [walk, bind_eq_ok] at h
    obtain ⟨⟨state, causes⟩, -, id, -, rule_id, -, h⟩ := h
    cases state with
    | true =>
      simp only [bind_eq_ok] at h
      obtain ⟨_, -, outcome, -, _, -, _, -, _, -, h⟩ := h
      exact ⟨_, (records_result (by simp [distinctKeys_reason]) h).2⟩
    | unsettled =>
      refine ⟨_, (records_result (fun x hx => ?_) h).2⟩
      obtain ⟨cause, -, rfl⟩ := List.mem_map.mp hx
      exact distinctKeys_reason _ _ _ _
    | false => exact ih h

/-- A decision records the document of its result. -/
theorem records_of_evaluate {P : rulebook.LoadedRulebook} {candidate snapshot : Value}
    {r : EvaluationResult} (h : evaluate P candidate snapshot REGISTRY = .ok r)
    (hr : r.outcome ≠ lit "ERROR") : ∃ d, Records r d := by
  unfold evaluate evaluateWith at h
  split at h
  · obtain ⟨failure, -, h⟩ := bind_eq_ok.mp h
    cases failure with
    | some failure =>
      simp only [result, bind_eq_ok, exists_unit, pure_eq_ok] at h
      obtain ⟨-, t, -, rfl⟩ := h
      exact absurd rfl hr
    | none =>
      simp only [bind_eq_ok] at h
      obtain ⟨_, -, _, -, _, -, _, -, h⟩ := h
      exact walk_records h
  · cases h

theorem depth_isOutcome {v : Value} (h : IsOutcome v) : v.depth ≤ 3 := by
  refine rulebook.depth_closedObject h fun f hf w hw => ?_
  simp only [outcomeFields, List.mem_cons, List.not_mem_nil, or_false] at hf
  rcases hf with rfl | rfl | rfl | rfl
  · exact rulebook.depth_isOneOf hw 2
  · refine rulebook.depth_isList (rulebook.isList_of_isLongList hw) fun x hx => ?_
    refine rulebook.depth_closedObject hx fun f hf w hw => ?_
    simp only [reasonFields, List.mem_cons, List.not_mem_nil, or_false] at hf
    rcases hf with rfl | rfl | rfl | rfl
    all_goals exact rulebook.depth_isText hw 0
  · exact rulebook.depth_isText hw 2
  · exact (rulebook.depth_isList hw fun x hx => rulebook.depth_isText hx 0).trans (by omega)

theorem Records.canonical {r : EvaluationResult} {d : Value} (h : Records r d) : d.Canonical :=
  canon.canonical_of_encode h.distinct (canon.canonicalize_eq_encode d ▸ h.text)

/-- A result reads back as its document. -/
theorem Records.value {r : EvaluationResult} {d : Value} (h : Records r d) :
    r.value = .ok d.normalize := by
  have hbytes : canon.canonical_bytes d = .ok r.canonical_bytes := by
    rw [canon.canonical_bytes, h.text]
    rfl
  rw [EvaluationResult.value, load.load_canonical_bytes h.canonical hbytes,
    if_pos ((depth_isOutcome h.valid).trans (by omega))]

end vfy.gate

/-! ## An authorization, later -/

namespace vfy.authorization

open python keys outcomes schema

/-- The key that a signed document names is still in a later registry, as an
active or a retired one. -/
def StillHeld (keys later : KeyRegistry) (v : Value) : Prop :=
  ∀ block identity entry, v.get? "signature" = some block → identity_of block = .ok identity →
    keys.lookup identity = some entry → ∃ entry', later.lookup identity = some entry' ∧
      entry'.public_key = entry.public_key ∧ entry'.status.getD ACTIVE ∈ [ACTIVE, RETIRED]

theorem check_key_status_historical {entry : KeyEntry} :
    check_key_status entry true = .ok () ↔ entry.status.getD ACTIVE ∈ [ACTIVE, RETIRED] := by
  have hactive : ACTIVE ≠ REVOKED := by decide
  have hretired : RETIRED ≠ REVOKED := by decide
  unfold check_key_status
  simp only [bind_eq_ok, exists_unit, raiseIf_eq_ok, List.mem_cons, List.not_mem_nil, or_false,
    not_not, not_true_eq_false, and_false, not_false_eq_true, and_true]
  constructor
  · rintro ⟨h | h | h, hnot⟩
    · exact Or.inl h
    · exact Or.inr h
    · exact absurd h hnot
  · rintro (h | h)
    · refine ⟨Or.inl h, ?_⟩
      rw [h]
      exact hactive
    · refine ⟨Or.inr (Or.inl h), ?_⟩
      rw [h]
      exact hretired

section

variable {host : Host} {keys later : KeyRegistry} {v : Value} {P : rulebook.LoadedRulebook}
  {candidate : Value} {snap : snapshot.FrozenSnapshot} {r : gate.EvaluationResult} {runtime_id : Str}
  {time : Value} {nonces : Option (List Str)} {A : FrozenAuthorization} {registry : Registry}

/-- A signature that was accepted is accepted later, as a historical one. -/
theorem check_signature_later {historical : Bool} {unknown invalid : String}
    (h : check_signature host v keys historical unknown invalid = .ok ())
    (hheld : StillHeld keys later v) : check_signature host v later true unknown invalid = .ok () := by
  obtain ⟨block, identity, entry, signature, bytes, h⟩ := check_signature_eq_ok.mp h
  obtain ⟨entry', hlookup, hpublic, hstatus⟩ := hheld block identity entry h.carries h.names
    h.registered
  exact check_signature_eq_ok.mpr ⟨block, identity, entry', signature, bytes, h.carries, h.names,
    hlookup, check_key_status_historical.mpr hstatus, h.decoded, h.covers, hpublic ▸ h.usable,
    hpublic ▸ h.verifies⟩

theorem bind_field_eq_ok {field : String} {bound : Value} {expected : Str} :
    bind_field field bound expected = .ok () ↔ bound = .str expected := by
  unfold bind_field
  rw [raiseIf_eq_ok, not_not]
  exact gate.isStr_iff

/-- The interval of an authorization does not depend on the instant that it is
spent at. -/
theorem check_interval_later {spent : Option Value} (h : check_interval P snap v spent = .ok ()) :
    check_interval P snap v none = .ok () := by
  unfold check_interval at h ⊢
  simp only [bind_eq_ok, exists_unit, raiseIf_eq_ok] at h ⊢
  obtain ⟨_, hissued, issued, hi, _, hexpires, expires, he, frozen, hf, hle, hlt, ttl, httl, heq,
    -⟩ := h
  exact ⟨_, hissued, issued, hi, _, hexpires, expires, he, frozen, hf, hle, hlt, ttl, httl, heq,
    rfl⟩

/-- The members of an accepted authorization that a receipt is checked against. -/
structure Bound (v : Value) (P : rulebook.LoadedRulebook) (action_digest : Str)
    (snap : snapshot.FrozenSnapshot) (runtime_id : Str) (A : FrozenAuthorization) : Prop where
  members : ∃ members, v = .dict members
  authorization_id : v.get? "authorization_id" = some (.str A.authorization_id)
  rulebook_digest : v.get? "rulebook_digest" = some (.str P.digest)
  action_digest : v.get? "action_digest" = some (.str action_digest)
  evidence_digest : v.get? "evidence_digest" = some (.str snap.digest)
  runtime_id : v.get? "runtime_id" = some (.str runtime_id)

theorem bound_of_verify {spent : Option Value} {historical : Bool} {action_digest : Str}
    (haction : canon.digest candidate = .ok action_digest)
    (h : verify_authorization host v P candidate snap r runtime_id spent keys registry nonces
      historical = .ok A) : Bound v P action_digest snap runtime_id A := by
  unfold verify_authorization at h
  split at h
  · simp only [bind_eq_ok, exists_unit, raiseIf_eq_ok, getItem_eq_ok, bind_field_eq_ok,
      check_bindings, freeze, pure_eq_ok, rulebook.string_eq_ok] at h
    obtain ⟨-, -, ⟨_, hrulebook, rfl, _, haction', digest, hdigest, rfl, _, hevidence, rfl, -⟩, _,
      hruntime, rfl, -, _, -, _, -, -, _, -, _, hid, _, rfl, _, -, _, -, _, -, _, -, _, -, _, -,
      rfl⟩ := h
    obtain rfl := Except.ok.inj (haction.symm.trans hdigest)
    exact ⟨⟨_, rfl⟩, hid, hrulebook, haction', hevidence, hruntime⟩
  · cases h

/-- An authorization that was accepted for spending verifies later, when nothing
is spent and its key may be retired. -/
theorem verify_later (h : verify_authorization host v P candidate snap r runtime_id (some time) keys
      registry nonces false = .ok A) (hheld : StillHeld keys later v) :
    verify_authorization host v P candidate snap r runtime_id none later registry none true =
      .ok A := by
  unfold verify_authorization at h ⊢
  split at h
  · simp only [bind_eq_ok, exists_unit, raiseIf_eq_ok] at h ⊢
    obtain ⟨hvalid, hsigned, hbound, runtime, hruntime, hbind, hinterval, _, hnonce, nonce, hs, -,
      hfreeze⟩ := h
    exact ⟨hvalid, check_signature_later hsigned hheld, hbound, runtime, hruntime, hbind,
      check_interval_later hinterval, _, hnonce, nonce, hs, by simp, hfreeze⟩
  · cases h

end

end vfy.authorization

/-! ## What issuing a receipt returns -/

namespace vfy.receipt

open python keys outcomes schema authorization

theorem depth_isReceipt {v : Value} (h : IsReceipt v) : v.depth ≤ 4 := by
  have hdigest : ∀ {w : Value} (d : Nat), IsDigest w → w.depth ≤ d := by
    rintro w d ⟨s, rfl, -⟩
    exact Nat.zero_le d
  have hdate : ∀ {w : Value} (d : Nat), IsDate w → w.depth ≤ d := by
    rintro w d ⟨s, rfl, -⟩
    exact Nat.zero_le d
  refine rulebook.depth_closedObject h fun f hf w hw => ?_
  simp only [receiptFields, List.mem_cons, List.not_mem_nil, or_false] at hf
  rcases hf with rfl | rfl | rfl | rfl | rfl | rfl | rfl | rfl | rfl | rfl | rfl
  · exact rulebook.depth_isText hw 3
  · rw [show w = .str "1" from hw]
    exact Nat.zero_le _
  · exact hdate 3 hw
  · refine (rulebook.depth_closedObject (d := 0) hw fun f hf w hw => ?_).trans (by omega)
    simp only [recordedRulebookFields, List.mem_cons, List.not_mem_nil, or_false] at hf
    rcases hf with rfl | rfl | rfl
    · exact rulebook.depth_isText hw 0
    · exact rulebook.depth_isText hw 0
    · exact hdigest 0 hw
  · exact hdigest 3 hw
  · exact hdigest 3 hw
  · exact gate.depth_isOutcome hw
  · exact rulebook.depth_isText hw 3
  · refine (rulebook.depth_closedObject (d := 0) hw fun f hf w hw => ?_).trans (by omega)
    simp only [executionFields, List.mem_cons, List.not_mem_nil, or_false] at hf
    rcases hf with rfl | rfl | rfl | rfl
    · obtain ⟨b, rfl⟩ := hw
      exact le_rfl
    · exact hdate 0 hw
    · obtain ⟨i, rfl⟩ := hw
      exact le_rfl
    · exact rulebook.depth_isText hw 0
  · refine (rulebook.depth_closedObject (d := 0) hw fun f hf w hw => ?_).trans (by omega)
    simp only [replayFields, List.mem_cons, List.not_mem_nil, or_false] at hf
    rw [hf] at hw
    rw [show w = .str "recompute-decision" from hw]
    exact le_rfl
  · refine (rulebook.depth_closedObject (d := 0) hw fun f hf w hw => ?_).trans (by omega)
    simp only [signatureFields, List.mem_cons, List.not_mem_nil, or_false] at hf
    rcases hf with rfl | rfl | rfl | rfl
    · rw [show w = .str "ed25519" from hw]
      exact le_rfl
    · exact rulebook.depth_isText hw 0
    · obtain ⟨i, rfl, -⟩ := hw
      exact le_rfl
    · exact rulebook.depth_isText hw 0

/-- The members that a receipt records of a decision. -/
def recordedMembers (receipt_id created_at : Str) (rulebook_id version : Value)
    (rulebook_digest candidate_digest evidence_digest : Str) (result : Value)
    (authorization : Option FrozenAuthorization) (execution : Option Value) : List (Str × Value) :=
  ([("receipt_id", .str receipt_id), ("spec_version", .str SPEC_VERSION),
    ("created_at", .str created_at),
    ("rulebook", .dict [("rulebook_id", rulebook_id), ("version", version),
      ("digest", .str rulebook_digest)]),
    ("candidate_digest", .str candidate_digest), ("evidence_digest", .str evidence_digest),
    ("result", result), ("replay", .dict [("mode", .str REPLAY_MODE)])] : List (Str × Value)) ++
  (authorization.map fun a => (lit "authorization_id", Value.str a.authorization_id)).toList ++
  (execution.map fun e => (lit "execution", e)).toList

section Issue

variable {host : Host} {P : rulebook.LoadedRulebook} {V candidate W : Value}
  {snap : snapshot.FrozenSnapshot} {result : gate.EvaluationResult}
  {authorization : Option FrozenAuthorization} {execution : Option Value}
  {receipt_id created_at key_id : Str} {key_version : Int} {private_key : List UInt8}
  {R : FrozenReceipt} {candidate_digest : Str} {completed : Value}

/-- What an issued receipt was made from. -/
structure Issued (host : Host) (P : rulebook.LoadedRulebook) (candidate : Value)
    (snap : snapshot.FrozenSnapshot) (result : gate.EvaluationResult)
    (authorization : Option FrozenAuthorization) (execution : Option Value)
    (receipt_id created_at key_id : Str) (key_version : Int) (private_key : List UInt8)
    (R : FrozenReceipt) (W rulebook_id version : Value) (candidate_digest : Str)
    (completed : Value) : Prop where
  decision : result.outcome ∈ DECISION_OUTCOMES
  shape : check_shape_for_outcome result.outcome authorization execution = .ok ()
  pinned : ∃ V, P.value = .ok V ∧ V.get? "rulebook_id" = some rulebook_id ∧
    V.get? "version" = some version
  candidate : canon.digest candidate = .ok candidate_digest
  recorded : result.value = .ok W
  signed : sign_payload host (recordedMembers receipt_id created_at rulebook_id version P.digest
    candidate_digest snap.digest W authorization execution) key_id key_version private_key =
      .ok completed
  valid : schema.validate completed RECEIPT_SCHEMA_ID REGISTRY = .ok ()
  sealed : canon.canonicalize completed = .ok R.canonical

theorem issue_receipt_ok (h : issue_receipt host P candidate snap result authorization execution
    receipt_id created_at key_id key_version private_key REGISTRY = .ok R) :
    ∃ W rulebook_id version candidate_digest completed,
      Issued host P candidate snap result authorization execution receipt_id created_at key_id
        key_version private_key R W rulebook_id version candidate_digest completed := by
  unfold issue_receipt payload_of at h
  simp only [bind_eq_ok, exists_unit, raiseIf_eq_ok, not_not, pure_eq_ok, getItem_eq_ok] at h
  obtain ⟨-, hdecision, hshape, _, ⟨V, hV, rulebook_id, hid, version, hversion, candidate_digest,
    hcandidate, W, hW, rfl⟩, completed, hsigned, hvalid, canonical, hsealed, rfl⟩ := h
  exact ⟨W, rulebook_id, version, candidate_digest, completed, hdecision, hshape,
    ⟨V, hV, hid, hversion⟩, hcandidate, hW, hsigned, hvalid, hsealed⟩

/-- An issued receipt, read back: its members, without their order. -/
structure Document (host : Host) (P : rulebook.LoadedRulebook) (snap : snapshot.FrozenSnapshot)
    (result : gate.EvaluationResult) (authorization : Option FrozenAuthorization)
    (execution : Option Value) (candidate_digest : Str) (R : FrozenReceipt) (D : Value) : Prop where
  reads_back : R.value = .ok D
  valid : IsReceipt D
  rulebook : ∃ recorded, D.get? "rulebook" = some recorded ∧
    recorded.get? "rulebook_id" = some (.str P.rulebook_id) ∧
    recorded.get? "version" = some (.str P.version) ∧
    recorded.get? "digest" = some (.str P.digest)
  candidate : D.get? "candidate_digest" = some (.str candidate_digest)
  evidence : D.get? "evidence_digest" = some (.str snap.digest)
  result : ∃ W, D.get? "result" = some W ∧ canon.canonicalize W = .ok result.canonical ∧
    W.get? "outcome" = some (.str result.outcome)
  authorization : D.get? "authorization_id" = authorization.map fun a => .str a.authorization_id
  execution : (D.get? "execution").isSome = execution.isSome

theorem lookup_signature_recorded (receipt_id created_at : Str) {rulebook_id version : Value}
    {rulebook_digest candidate_digest evidence_digest : Str} {W : Value} :
    (recordedMembers receipt_id created_at rulebook_id version rulebook_digest candidate_digest
      evidence_digest W authorization execution).lookup (lit "signature") = none := by
  cases authorization <;> cases execution <;> simp [recordedMembers]

theorem Issued.distinct {rulebook_id version d : Value} (hd : gate.Records result d)
    (hexecution : ∀ e ∈ execution, e.DistinctKeys)
    (h : Issued host P candidate snap result authorization execution receipt_id created_at key_id
      key_version private_key R W rulebook_id version candidate_digest completed) :
    completed.DistinctKeys := by
  obtain rfl := Except.ok.inj (hd.value.symm.trans h.recorded)
  obtain ⟨V, hV, hid, hversion⟩ := h.pinned
  have hread := (load.canonical_of_load hV).distinctKeys
  have hid := hread.get? hid
  have hversion := hread.get? hversion
  obtain ⟨_, signature, -, -, hcompleted⟩ := sign_payload_eq_ok.mp h.signed
  rw [hcompleted]
  cases authorization <;> cases execution <;>
    simp_all [recordedMembers, signatureBlock, Distinct, hd.canonical.normalize.distinctKeys]

/-- A receipt issued over a pinned rulebook reads back as its document. -/
theorem Issued.document {v rulebook_id version : Value} (hv : v.DistinctKeys)
    (hP : rulebook.pin v REGISTRY = .ok P) {d : Value} (hd : gate.Records result d)
    (hexecution : ∀ e ∈ execution, e.DistinctKeys)
    (h : Issued host P candidate snap result authorization execution receipt_id created_at key_id
      key_version private_key R W rulebook_id version candidate_digest completed) :
    Document host P snap result authorization execution candidate_digest R completed.normalize := by
  obtain ⟨V, hV, hid, hversion⟩ := h.pinned
  obtain rfl := Except.ok.inj ((rulebook.value_of_pin hv hP).symm.trans hV)
  obtain ⟨-, -, -, -, hidentity⟩ := rulebook.pin_eq_ok.mp hP
  rw [Value.get?_normalize hv, hidentity.rulebook_id] at hid
  rw [Value.get?_normalize hv, hidentity.version] at hversion
  simp only [Option.map_some, Value.normalize_str, Option.some.injEq] at hid hversion
  subst hid hversion
  obtain rfl := Except.ok.inj (hd.value.symm.trans h.recorded)
  have hdc := hd.canonical
  obtain ⟨_, signature, -, -, hcompleted⟩ := sign_payload_eq_ok.mp h.signed
  have hdistinct := h.distinct hd hexecution
  have hreceipt := (validate_receipt_iff completed).mp h.valid
  refine ⟨?_, ?_, ?_, ?_, ?_, ?_, ?_, ?_⟩
  · have hcan := canon.canonical_of_encode hdistinct
      (canon.canonicalize_eq_encode completed ▸ h.sealed)
    have hbytes : canon.canonical_bytes completed = .ok R.canonical_bytes := by
      rw [canon.canonical_bytes, h.sealed]
      rfl
    rw [FrozenReceipt.value, load.load_canonical_bytes hcan hbytes,
      if_pos ((depth_isReceipt hreceipt).trans (by omega))]
  · rw [← validate_receipt_iff, validate_normalize hdistinct]
    exact h.valid
  all_goals
    rw [Value.get?_normalize hdistinct, hcompleted, Value.get?_dict, recordedMembers]
  · have hkeys : (Value.dict [("rulebook_id", .str P.rulebook_id), ("version", .str P.version),
        ("digest", .str P.digest)]).DistinctKeys := by simp [Distinct]
    refine ⟨(Value.dict [("rulebook_id", .str P.rulebook_id), ("version", .str P.version),
      ("digest", .str P.digest)]).normalize, by simp, ?_⟩
    simp only [Value.get?_normalize hkeys]
    simp
  · simp
  · simp
  · refine ⟨d.normalize.normalize, by simp, ?_, ?_⟩
    · rw [canon.canonicalize_eq_encode, canon.encode_normalize hdc.normalize.distinctKeys,
        canon.encode_normalize hd.distinct, ← canon.canonicalize_eq_encode, hd.text]
    · rw [Value.get?_normalize hdc.normalize.distinctKeys, Value.get?_normalize hd.distinct,
        hd.outcome]
      simp
  · cases authorization <;> cases execution <;> simp
  · cases execution <;> cases authorization <;> simp

/-! ## Verifying an issued receipt -/

theorem getMethod_isReceipt {D : Value} (h : IsReceipt D) (k : Str) :
    getMethod D k = .ok (D.get? k) := by
  obtain ⟨members, rfl, -⟩ := h
  rfl

theorem check_shape_members {outcome : Str} {D : Value}
    (hauthorization : D.get? "authorization_id" =
      authorization.map fun a => .str a.authorization_id)
    (hexecution : (D.get? "execution").isSome = execution.isSome)
    (h : check_shape_for_outcome outcome authorization execution = .ok ()) :
    check_shape_for_outcome outcome (present (D.get? "authorization_id"))
      (present (D.get? "execution")) = .ok () := by
  unfold check_shape_for_outcome at h ⊢
  by_cases hnegative : outcome = lit "BLOCK" ∨ outcome = lit "HOLD"
  · rw [if_pos hnegative] at h ⊢
    simp only [bind_eq_ok, exists_unit, raiseIf_eq_ok, Bool.not_eq_true, Option.isSome_eq_false_iff,
      Option.isNone_iff_eq_none] at h
    obtain ⟨rfl, rfl⟩ := h
    have hnone : D.get? "execution" = none := by simpa using hexecution
    rw [hauthorization, hnone]
    rfl
  · rw [if_neg hnegative]

/-- An issued receipt verifies under a registry that holds its key as active or
retired. -/
theorem Document.verify {D : Value}
    (h : Document host P snap result authorization execution candidate_digest R D)
    (hdecision : result.outcome ∈ DECISION_OUTCOMES)
    (hshape : check_shape_for_outcome result.outcome authorization execution = .ok ())
    {keys : KeyRegistry} (hsigned : check_signature host D keys true
      "No receipt key in the registry matches "
      "The signature does not verify over the receipt's payload." = .ok ()) :
    ∃ report, verify_receipt host D keys REGISTRY = .ok report := by
  obtain ⟨replay, hreplay, hclosed⟩ := ClosedObject.require h.valid
    (f := ("replay", closed ["mode"] (replayFields.map fun f => (lit f.1, f.2.1)),
      ClosedObject ["mode"] replayFields)) (by simp [RECEIPT_REQUIRED]) (by simp [receiptFields])
    (by decide)
  obtain ⟨mode, hmode, rfl⟩ := ClosedObject.require hclosed
    (f := ("mode", exactly "recompute-decision", fun v => v = .str "recompute-decision"))
    (by simp) (by simp [replayFields]) (by decide)
  obtain ⟨_, hid, receipt_id, rfl⟩ := ClosedObject.require h.valid (f := ("receipt_id", TEXT, IsText))
    (by simp [RECEIPT_REQUIRED]) (by simp [receiptFields]) (by decide)
  obtain ⟨W, hW, -, houtcome⟩ := h.result
  obtain ⟨block, identity, _, _, _, hsignature⟩ := check_signature_eq_ok.mp hsigned
  have hmembers := check_shape_members h.authorization h.execution hshape
  have hvalid := (validate_receipt_iff D).mpr h.valid
  have hget := getMethod_isReceipt h.valid
  refine ⟨⟨receipt_id, result.outcome, identity.1, identity.2, "recompute-decision", true, false⟩, ?_⟩
  obtain ⟨members, rfl, -⟩ := h.valid
  unfold verify_receipt
  dsimp only
  rw [hvalid, ok_bind, getItem_eq_ok.mpr hreplay, ok_bind, getItem_eq_ok.mpr hmode, ok_bind,
    raiseIf_neg (by decide), ok_bind, hsigned, ok_bind, getItem_eq_ok.mpr hW, ok_bind,
    getItem_eq_ok.mpr houtcome, ok_bind, show string (.str result.outcome) = .ok result.outcome
      from rfl, ok_bind, raiseIf_neg (not_not.mpr hdecision), ok_bind, hget, ok_bind, hget, ok_bind,
    hmembers, ok_bind, report_of, getItem_eq_ok.mpr hid, ok_bind]
  simp [string, getItem_eq_ok.mpr hsignature.carries, hsignature.names, getItem_eq_ok.mpr hreplay,
    getItem_eq_ok.mpr hmode, pure, Except.pure]

/-! ## Replaying an issued receipt -/

theorem getMethod_orEmpty {value : Option Value} (h : ∀ v ∈ value, ∃ members, v = .dict members)
    (k : Str) : ∃ member, getMethod (orEmpty value) k = .ok member := by
  unfold orEmpty
  split
  · rename_i v
    obtain ⟨members, rfl⟩ := h v rfl
    split
    · exact ⟨_, rfl⟩
    · exact ⟨_, rfl⟩
  · exact ⟨_, rfl⟩

/-- The timeline of a receipt can always be drawn up. -/
theorem timeline_ok {D : Value} (h : IsReceipt D) {snapshot supplied : Option Value}
    (hs : ∀ v ∈ snapshot, ∃ members, v = .dict members)
    (ha : ∀ v ∈ supplied, ∃ members, v = .dict members) :
    ∃ anomalies, timeline_anomalies D snapshot supplied = .ok anomalies := by
  have hexecution : ∀ v ∈ D.get? "execution", ∃ members, v = .dict members := by
    intro v hv
    obtain ⟨members, rfl, -⟩ := ClosedObject.accepted h
      (f := ("execution", .dict [("type", .str "object"), ("additionalProperties", .bool false),
        ("properties", .dict (executionFields.map fun f => (lit f.1, f.2.1)))],
        ClosedObject [] executionFields)) (by simp [receiptFields]) (by decide) hv
    exact ⟨members, rfl⟩
  obtain ⟨acknowledged, hacknowledged⟩ := getMethod_orEmpty hexecution "acknowledged_at"
  obtain ⟨frozen, hfrozen⟩ := getMethod_orEmpty hs "frozen_at"
  obtain ⟨issued, hissued⟩ := getMethod_orEmpty ha "issued_at"
  unfold timeline_anomalies
  rw [getMethod_isReceipt h, ok_bind, getMethod_isReceipt h, ok_bind, hacknowledged, ok_bind,
    hfrozen, ok_bind, hissued, ok_bind]
  exact ⟨_, rfl⟩

theorem eq_str (s : Str) : python.eq (.str s) (.str s) = true := gate.isStr_iff.mpr rfl

/-- The recorded bodies are accepted. -/
theorem Document.bodies {D S : Value}
    (h : Document host P snap result authorization execution candidate_digest R D)
    (hcandidate : canon.digest candidate = .ok candidate_digest)
    (hS : snapshot.verify_snapshot_value S P REGISTRY = .ok snap) :
    check_bodies D P candidate S REGISTRY = .ok snap := by
  obtain ⟨recorded, hrecorded, hid, hversion, hdigest⟩ := h.rulebook
  unfold check_bodies
  rw [getItem_eq_ok.mpr hrecorded, ok_bind, getItem_eq_ok.mpr hdigest, ok_bind,
    getItem_eq_ok.mpr hid, ok_bind, getItem_eq_ok.mpr hversion, ok_bind,
    raiseIf_neg (by simp [eq_str]), ok_bind, hcandidate, ok_bind, getItem_eq_ok.mpr h.candidate,
    ok_bind, raiseIf_neg (by simp [eq_str]), ok_bind, hS, ok_bind, getItem_eq_ok.mpr h.evidence,
    ok_bind, raiseIf_neg (by simp [eq_str])]
  rfl

/-- The authorization that the receipt names is accepted. -/
theorem Document.authorized {D av : Value} {A : FrozenAuthorization} {runtime_id : Str}
    (h : Document host P snap result (some A) execution candidate_digest R D)
    (hbound : Bound av P candidate_digest snap runtime_id A) {keys : KeyRegistry}
    (hverify : verify_authorization host av P candidate snap result runtime_id none keys REGISTRY
      none true = .ok A) :
    check_authorization host D av P candidate snap result (some keys) none REGISTRY = .ok () := by
  obtain ⟨recorded, hrecorded, -, -, hdigest⟩ := h.rulebook
  have hmethod : ∀ k : Str, getMethod av k = .ok (av.get? k) := by
    obtain ⟨members, rfl⟩ := hbound.members
    exact fun k => rfl
  have hcheck : ∀ {field : String} {s : Str}, av.get? (lit field) = some (.str s) →
      check_digest av field (.str s) = .ok () := by
    intro field s hs
    unfold check_digest
    rw [hmethod, ok_bind, hs, raiseIf_neg (by simp [eq_str])]
  have hname := h.authorization
  rw [Option.map_some] at hname
  unfold check_authorization
  dsimp only
  rw [hmethod, ok_bind, hbound.authorization_id, getItem_eq_ok.mpr hname, ok_bind,
    raiseIf_neg (by simp [eq_str]), ok_bind, getItem_eq_ok.mpr h.candidate, ok_bind,
    hcheck hbound.action_digest, ok_bind, getItem_eq_ok.mpr hrecorded, ok_bind,
    getItem_eq_ok.mpr hdigest, ok_bind, hcheck hbound.rulebook_digest, ok_bind,
    getItem_eq_ok.mpr h.evidence, ok_bind, hcheck hbound.evidence_digest, ok_bind,
    getItem_eq_ok.mpr hbound.runtime_id, ok_bind, show string (.str runtime_id) = .ok runtime_id
      from rfl, ok_bind, hverify]
  rfl

/-- An issued receipt, replayed over what it records, gives a report. -/
theorem Document.replay {D S : Value}
    (h : Document host P snap result authorization execution candidate_digest R D)
    {receipt_keys : KeyRegistry} {report : ReceiptVerification}
    (hverify : verify_receipt host D receipt_keys REGISTRY = .ok report)
    {yaml : load.Yaml} {source : ByteArray}
    (hsource : rulebook.load_rulebook_bytes yaml source REGISTRY = .ok P)
    (hcandidate : canon.digest candidate = .ok candidate_digest)
    (hS : snapshot.verify_snapshot_value S P REGISTRY = .ok snap)
    (hresult : gate.evaluate P candidate S REGISTRY = .ok result) {supplied : Option Value}
    (hdict : ∀ v ∈ supplied, ∃ members, v = .dict members) {keys : Option KeyRegistry}
    (hcheck : ∀ av ∈ supplied, authorization.isSome →
      check_authorization host D av P candidate snap result keys none REGISTRY = .ok ()) :
    ∃ replayed, replay_receipt host yaml D (some source) candidate S receipt_keys REGISTRY supplied
        keys none = .ok replayed ∧ replayed.result_matched = true ∧
      replayed.authorization_verified = (authorization.isSome && supplied.isSome) := by
  obtain ⟨W, hW, hcanonical, -⟩ := h.result
  obtain ⟨ms, ns, rfl, rfl⟩ : ∃ ms ns, candidate = .dict ms ∧ S = .dict ns := by
    unfold gate.evaluate gate.evaluateWith at hresult
    split at hresult
    · exact ⟨_, _, rfl, rfl⟩
    · cases hresult
  have hpresent : present supplied = supplied := by
    cases supplied with
    | none => rfl
    | some v =>
      obtain ⟨members, rfl⟩ := hdict v rfl
      rfl
  have hsupplied : supplied_authorization D supplied =
      .ok (if authorization.isSome then supplied else none) := by
    unfold supplied_authorization
    rw [getMethod_isReceipt h.valid, ok_bind, h.authorization, hpresent]
    cases authorization <;> rfl
  have hchecks : (forM (if authorization.isSome then supplied else none).toList fun av =>
      check_authorization host D av P (.dict ms) snap result keys none REGISTRY) = .ok () := by
    cases authorization with
    | none => rfl
    | some A =>
      cases supplied with
      | none => rfl
      | some av =>
        have hav := hcheck av rfl rfl
        simp [hav, pure, Except.pure]
  have hns : ∀ v ∈ some (Value.dict ns), ∃ members, v = .dict members := by simp
  obtain ⟨anomalies, hanomalies⟩ := timeline_ok h.valid hns hdict
  have hrecompute : ∀ report : ReceiptVerification, ∃ replayed, recompute host yaml report D source (.dict ms) (.dict ns) REGISTRY
      supplied keys none = .ok replayed ∧ replayed.result_matched = true ∧
        replayed.authorization_verified = (authorization.isSome && supplied.isSome) := by
    intro report
    unfold recompute
    rw [hsource, ok_bind, h.bodies hcandidate hS, ok_bind, hresult, ok_bind,
      getItem_eq_ok.mpr hW, ok_bind, hcanonical, ok_bind, raiseIf_neg (by simp), ok_bind, hsupplied,
      ok_bind, hchecks, ok_bind, hanomalies, ok_bind]
    refine ⟨_, rfl, rfl, ?_⟩
    cases authorization <;> cases supplied <;> rfl
  obtain ⟨replayed, hreplayed, hmatched⟩ := hrecompute report
  refine ⟨replayed, ?_, hmatched⟩
  unfold replay_receipt
  rw [hverify, ok_bind]
  exact hreplayed

end Issue

/-! ## Replay completeness -/

/-- SHA-256 does not collide on the two texts. -/
def NoCollision (t t' : Text) : Prop :=
  canon.sha256_hexdigest (String.ofList t).toByteArray =
    canon.sha256_hexdigest (String.ofList t').toByteArray → t = t'

/-- Rulebooks of one digest are one rulebook. -/
theorem pin_eq_of_digest {v v' : Value} (hv : v.DistinctKeys) (hv' : v'.DistinctKeys)
    {P P' : rulebook.LoadedRulebook} (hP : rulebook.pin v REGISTRY = .ok P)
    (hP' : rulebook.pin v' REGISTRY = .ok P') (hdigest : P'.digest = P.digest)
    (hcollision : NoCollision P'.canonical P.canonical) : P' = P := by
  obtain ⟨-, -, hc, hd, hid⟩ := rulebook.pin_eq_ok.mp hP
  obtain ⟨-, -, hc', hd', hid'⟩ := rulebook.pin_eq_ok.mp hP'
  have htext : P'.canonical = P.canonical := by
    apply hcollision
    simp only [canon.digest, canon.canonical_bytes, hc, ok_bind] at hd
    simp only [canon.digest, canon.canonical_bytes, hc', ok_bind] at hd'
    have hd := Except.ok.inj hd
    have hd' := Except.ok.inj hd'
    rw [← hd, ← hd'] at hdigest
    exact ofText_injective (List.append_cancel_left hdigest)
  have hnormal : v'.normalize = v.normalize := by
    have h := rulebook.value_of_pin hv hP
    have h' := rulebook.value_of_pin hv' hP'
    unfold rulebook.LoadedRulebook.value rulebook.LoadedRulebook.canonical_bytes at h h'
    rw [htext, h] at h'
    exact (Except.ok.inj h').symm
  have hsame : ∀ (k s s' : Str), v.get? k = some (.str s) → v'.get? k = some (.str s') → s' = s := by
    intro k s s' hs hs'
    have h := Value.get?_normalize hv k
    rw [← hnormal, Value.get?_normalize hv' k, hs, hs'] at h
    simpa using h
  have hrulebook_id := hsame _ _ _ hid.rulebook_id hid'.rulebook_id
  have hversion := hsame _ _ _ hid.version hid'.version
  have hadopted := hsame _ _ _ hid.adopted_at hid'.adopted_at
  cases P
  cases P'
  simp_all

/-- An authorization, as a mapping and frozen, was accepted over these inputs for
spending at some instant. -/
def AcceptedAtSpending (host : Host) (P : rulebook.LoadedRulebook) (candidate : Value)
    (snap : snapshot.FrozenSnapshot) (result : gate.EvaluationResult) (keys : KeyRegistry)
    (permit : Value × FrozenAuthorization) : Prop :=
  ∃ runtime_id time nonces, verify_authorization host permit.1 P candidate snap result runtime_id
    (some time) keys REGISTRY nonces false = .ok permit.2

/-- A receipt issued for a decision replays, over the recorded inputs and any
source of the rulebook, to a match; and with the authorization that it names, to
one that is verified. The keys may have been retired since. -/
theorem issued_receipt_replays {host : Host} {yaml : load.Yaml} (hy : yaml.Streams) {v : Value}
    (hv : v.DistinctKeys) {P : rulebook.LoadedRulebook} (hP : rulebook.pin v REGISTRY = .ok P)
    {candidate S : Value} {snap : snapshot.FrozenSnapshot} {result : gate.EvaluationResult}
    (hS : snapshot.verify_snapshot_value S P REGISTRY = .ok snap)
    (hresult : gate.evaluate P candidate S REGISTRY = .ok result)
    (hdecision : result.outcome ∈ DECISION_OUTCOMES)
    {permit : Option (Value × FrozenAuthorization)} {keys later : KeyRegistry}
    (hpermit : ∀ p ∈ permit, AcceptedAtSpending host P candidate snap result keys p ∧
      StillHeld keys later p.1)
    {execution : Option Value} (hexecution : ∀ e ∈ execution, e.DistinctKeys)
    {receipt_id created_at key_id : Str} {key_version : Int} {private_key : List UInt8}
    {R : FrozenReceipt}
    (hR : issue_receipt host P candidate snap result (permit.map Prod.snd) execution receipt_id
      created_at key_id key_version private_key REGISTRY = .ok R)
    {receipt_keys : KeyRegistry} {entry : KeyEntry}
    (hentry : receipt_keys.lookup (key_id, key_version) = some entry)
    (hstatus : entry.status.getD ACTIVE ∈ [ACTIVE, RETIRED])
    (hpair : host.Pair private_key entry.public_key) {source : ByteArray}
    {P' : rulebook.LoadedRulebook}
    (hsource : rulebook.load_rulebook_bytes yaml source REGISTRY = .ok P')
    (hdigest : P'.digest = P.digest) (hcollision : NoCollision P'.canonical P.canonical) :
    ∃ value, R.value = .ok value ∧
      (∃ report, replay_receipt host yaml value (some source) candidate S receipt_keys REGISTRY none
        none none = .ok report ∧ report.result_matched = true) ∧
      ∀ p ∈ permit, ∃ report, replay_receipt host yaml value (some source) candidate S receipt_keys
        REGISTRY (some p.1) (some later) none = .ok report ∧ report.result_matched = true ∧
          report.authorization_verified = true := by
  obtain ⟨v', hload, hP'⟩ := bind_eq_ok.mp hsource
  obtain rfl : P' = P := by
    refine pin_eq_of_digest hv ?_ hP hP' hdigest hcollision
    rcases outcome_sat (load.loading_yaml_sat hy source) with ⟨w, hw, hc⟩ | ⟨e, he, -⟩
    · have hload : outcome (load.loading_yaml yaml source) = .ok v' := hload
      rw [hw] at hload
      exact Except.ok.inj hload ▸ hc.distinctKeys
    · have hload : outcome (load.loading_yaml yaml source) = .ok v' := hload
      rw [he] at hload
      cases hload
  obtain ⟨d, hd⟩ := gate.records_of_evaluate hresult (by
    rintro heq
    rw [heq] at hdecision
    revert hdecision
    decide)
  obtain ⟨W, rulebook_id, version, candidate_digest, completed, h⟩ := issue_receipt_ok hR
  have hdocument := h.document hv hP hd hexecution
  have hdistinct := h.distinct hd hexecution
  have hsigned : check_signature host completed.normalize receipt_keys true
      "No receipt key in the registry matches "
      "The signature does not verify over the receipt's payload." = .ok () := by
    obtain ⟨block, signature, bytes, hsigned⟩ := signedUnder_of_sign h.signed
      (lookup_signature_recorded _ _) hentry (check_key_status_historical.mpr hstatus) hpair
    exact check_signature_eq_ok.mpr ⟨_, _, _, _, _, hsigned.normalize hdistinct⟩
  obtain ⟨verified, hverified⟩ := hdocument.verify h.decision h.shape hsigned
  refine ⟨completed.normalize, hdocument.reads_back, ?_, ?_⟩
  · obtain ⟨report, hreport, hmatched, -⟩ := @Document.replay _ _ _ _ _ _ _ _ _ _ _ hdocument
      _ _ hverified _ _ hsource h.candidate hS hresult none (by simp) none (by simp)
    exact ⟨report, hreport, hmatched⟩
  · rintro ⟨av, A⟩ hp
    obtain rfl := Option.mem_def.mp hp
    obtain ⟨⟨runtime_id, time, nonces, haccept⟩, hheld⟩ := hpermit _ rfl
    have hbound := bound_of_verify h.candidate haccept
    have hlater := verify_later haccept hheld
    obtain ⟨report, hreport, hmatched, hverified⟩ := @Document.replay _ _ _ _ _ _ _ _ _ _ _ hdocument
      _ _ hverified _ _ hsource h.candidate hS hresult (some av) (by simpa using hbound.members)
      (some later) (fun w hw _ => by
        obtain rfl := Option.some.inj hw
        exact hdocument.authorized hbound hlater)
    exact ⟨report, hreport, hmatched, hverified⟩

/-! ## A receipt of the host -/

/-- The host issues a receipt for a permitted action. -/
theorem issue_receipt_plain {v : Value} (hv : v.DistinctKeys) {P : rulebook.LoadedRulebook}
    (hP : rulebook.pin v REGISTRY = .ok P) {r : gate.EvaluationResult} {d : Value}
    (hd : gate.Records r d) (hallow : r.outcome = lit "ALLOW") {snap : snapshot.FrozenSnapshot}
    (hS : Encodable snap.digest ∧ IsDigest (.str snap.digest)) {A : FrozenAuthorization}
    (hA : Encodable A.authorization_id) {day : Str} (hday : Encodable day)
    (hdate : is_date_time day = true) :
    ∃ R, issue_receipt plainHost P (.dict gate.smallCandidate) snap r (some A) none "receipt" day
      "key" 1 PLAIN_KEY REGISTRY = .ok R := by
  obtain ⟨-, -, -, hdigest, hid⟩ := rulebook.pin_eq_ok.mp hP
  have hV := gate.readsBack_of_pin hv hP
  have hrulebook_id : v.normalize.get? "rulebook_id" = some (.str P.rulebook_id) := by
    rw [Value.get?_normalize hv, hid.rulebook_id]
    simp
  have hversion : v.normalize.get? "version" = some (.str P.version) := by
    rw [Value.get?_normalize hv, hid.version]
    simp
  have hei := gate.encodable_of_get? hV.canonical hrulebook_id
  have hev := gate.encodable_of_get? hV.canonical hversion
  have hed := encodable_digest hdigest
  obtain ⟨candidate_digest, hcandidate, hec⟩ :=
    canon.digest_of_canonical gate.canonical_smallCandidate
  have hpayload : (Value.dict (recordedMembers "receipt" day (.str P.rulebook_id) (.str P.version)
      P.digest candidate_digest snap.digest d.normalize (some A) none)).Canonical := by
    simp [recordedMembers, Distinct, encodable_lit, hday, hei, hev, hed, hec, hS.1, hA,
      hd.canonical.normalize, SPEC_VERSION, REPLAY_MODE]
  obtain ⟨signature, hsigned, hcanonical⟩ := @sign_plain _ hpayload
    (lookup_signature_recorded _ _) "key" (encodable_lit _) 1 (by decide)
  have houtcome : IsOutcome d.normalize := by
    rw [← validate_outcome_iff, validate_normalize hd.distinct, validate_outcome_iff]
    exact hd.valid
  have hvalid : schema.validate (.dict (recordedMembers "receipt" day (.str P.rulebook_id)
      (.str P.version) P.digest candidate_digest snap.digest d.normalize (some A) none ++
        [(lit "signature", signatureBlock "key" 1 signature)])) RECEIPT_SCHEMA_ID REGISTRY =
      .ok () := by
    have hblock : IsSignature (signatureBlock "key" 1 signature) := by
      refine ⟨_, rfl, by simp, ?_⟩
      simp [signatureFields, IsText, IsNatural, ALGORITHM]
    have hrecorded : ClosedObject ["rulebook_id", "version", "digest"] recordedRulebookFields
        (.dict [("rulebook_id", .str P.rulebook_id), ("version", .str P.version),
          ("digest", .str P.digest)]) := by
      refine ⟨_, rfl, by simp, ?_⟩
      simp [recordedRulebookFields, IsText, isDigest_digest hdigest]
    have hreplay : ClosedObject ["mode"] replayFields (.dict [("mode", .str REPLAY_MODE)]) := by
      refine ⟨_, rfl, by simp, ?_⟩
      simp [replayFields, REPLAY_MODE]
    refine (validate_receipt_iff _).mpr ⟨_, rfl, by simp [RECEIPT_REQUIRED, recordedMembers], ?_⟩
    simp [recordedMembers, receiptFields, IsText, IsDate, hdate, hblock, hrecorded, hreplay, hS.2,
      isDigest_digest hcandidate, houtcome, SPEC_VERSION]
  obtain ⟨t, ht⟩ := canon.encode_of_canonical hcanonical
  rw [← canon.canonicalize_eq_encode] at ht
  refine ⟨⟨t, "receipt", r.outcome⟩, ?_⟩
  unfold issue_receipt payload_of
  rw [raiseIf_neg (by decide), ok_bind, raiseIf_neg (by rw [hallow]; decide), ok_bind,
    show check_shape_for_outcome r.outcome (some A) (none : Option Value) = .ok () by
      rw [hallow]; rfl, ok_bind]
  simp only [rulebook.value_of_pin hv hP, ok_bind, getItem_eq_ok.mpr hrulebook_id,
    getItem_eq_ok.mpr hversion, hcandidate, hd.value, pure, Except.pure]
  show (sign_payload plainHost (recordedMembers "receipt" day (.str P.rulebook_id)
    (.str P.version) P.digest candidate_digest snap.digest d.normalize (some A) none) "key" 1
      PLAIN_KEY >>= _) = _
  rw [hsigned, ok_bind, hvalid, ok_bind, ht]
  rfl

/-- A registry that holds the key of the host as retired. -/
def RETIRED_KEYS : KeyRegistry := [(("key", 1), ⟨PLAIN_KEY, some RETIRED⟩)]

/-- A receipt is issued over an authorization that was accepted for spending,
both keys are retired, and the receipt replays. -/
theorem issued_receipt_replays_retired :
    ∃ yaml source S, ∃ R : FrozenReceipt, ∃ value av report, R.value = .ok value ∧
      replay_receipt plainHost yaml value (some source) (.dict gate.smallCandidate) S RETIRED_KEYS
        REGISTRY (some av) (some RETIRED_KEYS) none = .ok report ∧
      report.result_matched = true ∧ report.authorization_verified = true := by
  have hadopted : is_date_time "2026-01-01T00:00:00Z" = true := by decide +kernel
  have hdate : is_date_time "2026-01-02T00:00:00Z" = true := by decide +kernel
  have hsince : rulebook.instant (.str "2026-01-01T00:00:00Z") = .ok 1767225600000000000 := by
    decide +kernel
  have ht : rulebook.instant (.str "2026-01-02T00:00:00Z") = .ok 1767312000000000000 := by
    decide +kernel
  have hexpires : add_seconds (.str "2026-01-02T00:00:00Z") DEFAULT_TTL_SECONDS =
      .ok "2026-01-02T00:05:00Z" := by decide +kernel
  obtain ⟨P, S, r, A, hP, hS, hvalue, hr, hallow, httl, hA⟩ := issued_on
    (encodable_lit "2026-01-01T00:00:00Z") hadopted (encodable_lit "2026-01-02T00:00:00Z") hdate
    hsince ht (by norm_num) hexpires (by decide +kernel) (encodable_lit _)
  have hc := rulebook.canonical_rulebookSince (encodable_lit "2026-01-01T00:00:00Z")
    gate.encodable_presentReport
  have hw : load.Written (rulebook.rulebookSince "2026-01-01T00:00:00Z" gate.presentReport) := by
    simp [rulebook.rulebookSince, Distinct]
  have hload : load.load_yaml_bytes (load.readsValue "rulebook".toList _)
      (load.bytesOf "rulebook".toList) = .ok _ :=
    load.load_eventsOf (if_pos rfl) hw hc (by decide) (by
      rw [load.bytesOf_eq]
      exact load.decode_text (by decide) _)
  have hsource : rulebook.load_rulebook_bytes (load.readsValue "rulebook".toList
      (rulebook.rulebookSince "2026-01-01T00:00:00Z" gate.presentReport))
      (load.bytesOf "rulebook".toList) REGISTRY = .ok P := by
    unfold rulebook.load_rulebook_bytes
    refine bind_eq_ok.mpr ⟨_, hload, hP⟩
  obtain ⟨V, hverify, hshallow, -⟩ := snapshot.load_built
    (by simp [snapshot.acquiredOn, Distinct]) hS
  have hV : S.value = .ok V := hshallow (by
    simp [snapshot.NestsAtMost, snapshot.acquiredOn, Value.depth])
  obtain rfl := Except.ok.inj (hvalue.symm.trans hV)
  obtain ⟨-, issued, frozen, ttl, action_digest, completed, h⟩ := issue_authorization_ok hA
  obtain rfl := Except.ok.inj (ht.symm.trans h.issued_instant)
  obtain rfl := Except.ok.inj (httl.symm.trans h.lifetime)
  have hspend : verify_authorization plainHost completed.normalize P (.dict gate.smallCandidate) S
      r "runtime" (some (.str "2026-01-02T00:00:00Z")) PLAIN_KEYS REGISTRY none false = .ok A := by
    rw [h.verify hvalue hr hallow lookup_plain (by decide) pair_plain,
      h.interval (by decide) (instant_expiry (by decide) (by decide +kernel))]
    dsimp only
    rw [(check_spendable_iff ht).1.mpr (by decide)]
    rfl
  have hheld : StillHeld PLAIN_KEYS RETIRED_KEYS completed.normalize := by
    intro block identity entry _ _ hentry
    have hmem := mem_of_lookup hentry
    simp only [PLAIN_KEYS, List.mem_singleton, Prod.mk.injEq] at hmem
    obtain ⟨rfl, rfl⟩ := hmem
    exact ⟨⟨PLAIN_KEY, some RETIRED⟩, rfl, rfl, by decide⟩
  obtain ⟨d, hd⟩ := gate.records_of_evaluate hr (by rw [hallow]; decide)
  obtain ⟨_, _, _, _, _, -, -, -, -, -, -, -, -, hseal⟩ := snapshot.build_snapshot_ok hS
  obtain ⟨hSd, -⟩ := snapshot.seal_payload_eq_ok.mp hseal
  obtain ⟨action_digest', haction⟩ := canon.digest_of_canonical gate.canonical_smallCandidate
  have hbound := bound_of_verify haction.1 hspend
  have hA := gate.encodable_of_get? (load.canonical_of_load h.document.reads_back)
    hbound.authorization_id
  obtain ⟨R, hR⟩ := issue_receipt_plain hc.distinctKeys hP hd hallow
    ⟨encodable_digest hSd, isDigest_digest hSd⟩ hA (encodable_lit "2026-01-02T00:00:00Z") hdate
  obtain ⟨value, hread, -, hreplay⟩ := @issued_receipt_replays plainHost _
    (load.streams_readsValue "rulebook".toList hw) _ hc.distinctKeys P hP _ _ S r hverify hr
    (by rw [hallow]; decide) (some (completed.normalize, A)) PLAIN_KEYS RETIRED_KEYS (by
      rintro p hp
      obtain rfl := Option.some.inj hp
      exact ⟨⟨_, _, _, hspend⟩, hheld⟩) none (by simp) _ _ _ _ _ R hR RETIRED_KEYS
    ⟨PLAIN_KEY, some RETIRED⟩ rfl (by decide) pair_plain _ P hsource rfl fun _ => rfl
  obtain ⟨report, hreport, hmatched, hverified⟩ := hreplay _ rfl
  exact ⟨_, _, _, R, value, _, report, hread, hreport, hmatched, hverified⟩

end vfy.receipt
