-- An issued authorization is accepted exactly inside its window, whenever its
-- expiry is one that the source renders right.
import VerifyRun.Authorization
import VerifyRun.SettledDecisions
import VerifyRun.SignedSchemas

namespace vfy.authorization

open python keys outcomes schema

/-! ## Time to live -/

theorem ttl_seconds_ok {P : rulebook.LoadedRulebook} {V : Value} (h : gate.ReadsBack P V) :
    ∃ ttl, ttl_seconds P = .ok ttl ∧ 1 ≤ ttl := by
  obtain ⟨members, rfl, -, -⟩ := (show ClosedObject _ _ V from h.valid)
  unfold ttl_seconds
  rw [h.value, ok_bind]
  cases hs : members.lookup (lit "authorization") with
  | none =>
    refine ⟨300, ?_, by omega⟩
    simp [getOr, getMethod, hs, number, DEFAULT_TTL_SECONDS, pure, Except.pure]
  | some settings =>
    have hsettings : ClosedObject [] settingsFields settings :=
      ClosedObject.accepted h.valid (f := ("authorization", .dict [("type", .str "object"),
        ("additionalProperties", .bool false),
        ("properties", .dict (settingsFields.map fun f => (lit f.1, f.2.1)))],
        ClosedObject [] settingsFields)) (by simp [rulebookFields]) (by decide) hs
    obtain ⟨inner, rfl, -, -⟩ := id hsettings
    cases ht : inner.lookup (lit "ttl_seconds") with
    | none =>
      refine ⟨300, ?_, by omega⟩
      simp [getOr, getMethod, hs, ht, number, DEFAULT_TTL_SECONDS, pure, Except.pure]
    | some w =>
      obtain ⟨ttl, rfl, hle⟩ := ClosedObject.accepted hsettings
        (f := ("ttl_seconds", .dict [("type", .str "integer"), ("minimum", .int 1),
          ("default", .int 300)], IsNatural 1)) (by simp [settingsFields]) (by decide) ht
      refine ⟨ttl, ?_, hle⟩
      simp [getOr, getMethod, hs, ht, number, pure, Except.pure]

/-! ## What issuing returns -/

/-- The payload of an authorization. -/
def payload (authorization_id nonce issued_at expires_at runtime_id action_digest rulebook_digest
    evidence_digest : Str) : List (Str × Value) :=
  [("authorization_id", .str authorization_id), ("nonce", .str nonce),
   ("issued_at", .str issued_at), ("expires_at", .str expires_at),
   ("runtime_id", .str runtime_id), ("action_digest", .str action_digest),
   ("rulebook_digest", .str rulebook_digest), ("evidence_digest", .str evidence_digest)]

section Issue

variable {host : Host} {P : rulebook.LoadedRulebook} {candidate : Value}
  {snap : snapshot.FrozenSnapshot} {result : gate.EvaluationResult}
  {authorization_id nonce runtime_id issued_at key_id : Str} {key_version : Int}
  {private_key : List UInt8} {A : FrozenAuthorization}

theorem instant_of_eq_ok {text : Value} {field : String} {t : Int} :
    instant_of text field = .ok t ↔ rulebook.instant text = .ok t := by
  unfold instant_of
  split
  · simp [*]
  · simp [*]
  · simp [*]

/-- What an issued authorization was made from. -/
structure Issued (host : Host) (P : rulebook.LoadedRulebook) (candidate : Value)
    (snap : snapshot.FrozenSnapshot) (authorization_id nonce runtime_id issued_at key_id : Str)
    (key_version : Int) (private_key : List UInt8) (A : FrozenAuthorization)
    (issued frozen ttl : Int) (action_digest : Str) (completed : Value) : Prop where
  issued_instant : rulebook.instant (.str issued_at) = .ok issued
  frozen_instant : rulebook.instant (.str snap.frozen_at) = .ok frozen
  ordered : frozen ≤ issued
  lifetime : ttl_seconds P = .ok ttl
  action : canon.digest candidate = .ok action_digest
  signed : sign_payload host (payload authorization_id nonce issued_at
    (rendered (civil (expirySecond issued ttl / 86400)) (expirySecond issued ttl % 86400))
    runtime_id action_digest P.digest snap.digest) key_id key_version private_key = .ok completed
  valid : schema.validate completed AUTHORIZATION_SCHEMA_ID REGISTRY = .ok ()
  sealed : freeze completed = .ok A

theorem issue_authorization_ok (h : issue_authorization host P candidate snap result
    authorization_id nonce runtime_id issued_at key_id key_version private_key REGISTRY = .ok A) :
    result.outcome = lit "ALLOW" ∧ ∃ issued frozen ttl action_digest completed,
      Issued host P candidate snap authorization_id nonce runtime_id issued_at key_id key_version
        private_key A issued frozen ttl action_digest completed := by
  unfold issue_authorization at h
  simp only [bind_eq_ok, exists_unit, raiseIf_eq_ok, not_not, instant_of_eq_ok] at h
  obtain ⟨-, hallow, issued, hissued, frozen, hfrozen, hle, ttl, httl, expires_at, hexpires,
    action_digest, haction, completed, hsigned, hvalid, hfreeze⟩ := h
  rw [add_seconds_eq hissued] at hexpires
  obtain rfl := Except.ok.inj hexpires
  exact ⟨hallow, issued, frozen, ttl, action_digest, completed, hissued, hfrozen, not_lt.mp hle,
    httl, haction, hsigned, hvalid, hfreeze⟩

variable {issued frozen ttl : Int} {action_digest : Str} {completed : Value}

theorem getString_normalize {β : Type} {v : Value} (h : v.DistinctKeys) (k : Str)
    (f : Str → Except Exn β) : (getItem v.normalize k >>= fun w => string w >>= f) =
      (getItem v k >>= fun w => string w >>= f) := by
  rw [getItem_normalize h]
  cases getItem v k with
  | error e => rfl
  | ok w =>
    show (string w.normalize >>= f) = (string w >>= f)
    rw [string_normalize]

theorem freeze_normalize {v : Value} (h : v.DistinctKeys) : freeze v.normalize = freeze v := by
  have hcanonical : canon.canonicalize v.normalize = canon.canonicalize v := by
    rw [canon.canonicalize_eq_encode, canon.canonicalize_eq_encode, canon.encode_normalize h]
  unfold freeze
  simp only [hcanonical, getString_normalize h]

theorem canonical_of_freeze {v : Value} (h : freeze v = .ok A) :
    canon.canonicalize v = .ok A.canonical := by
  unfold freeze at h
  obtain ⟨t, ht, h⟩ := bind_eq_ok.mp h
  iterate 8 obtain ⟨_, -, h⟩ := bind_eq_ok.mp h
  rw [ht, ← Except.ok.inj h]

/-- The document of an issued authorization: its members, without their order. -/
structure Document (completed : Value) (authorization_id nonce issued_at expires_at runtime_id
    action_digest rulebook_digest evidence_digest : Str) (A : FrozenAuthorization) : Prop where
  distinct : completed.DistinctKeys
  reads_back : A.value = .ok completed.normalize
  authorization_id : completed.get? "authorization_id" = some (.str authorization_id)
  nonce : completed.get? "nonce" = some (.str nonce)
  issued_at : completed.get? "issued_at" = some (.str issued_at)
  expires_at : completed.get? "expires_at" = some (.str expires_at)
  runtime_id : completed.get? "runtime_id" = some (.str runtime_id)
  action_digest : completed.get? "action_digest" = some (.str action_digest)
  rulebook_digest : completed.get? "rulebook_digest" = some (.str rulebook_digest)
  evidence_digest : completed.get? "evidence_digest" = some (.str evidence_digest)

theorem Issued.document (h : Issued host P candidate snap authorization_id nonce runtime_id
    issued_at key_id key_version private_key A issued frozen ttl action_digest completed) :
    Document completed authorization_id nonce issued_at
      (rendered (civil (expirySecond issued ttl / 86400)) (expirySecond issued ttl % 86400))
      runtime_id action_digest P.digest snap.digest A := by
  obtain ⟨-, signature, -, -, hcompleted⟩ := sign_payload_eq_ok.mp h.signed
  generalize rendered (civil (expirySecond issued ttl / 86400)) (expirySecond issued ttl % 86400) =
    expires_at at hcompleted ⊢
  have hdistinct : completed.DistinctKeys := by
    rw [hcompleted]
    simp [payload, signatureBlock, Distinct]
  have hdepth : completed.depth ≤ 64 := by
    rw [hcompleted, Value.depth_dict_le]
    simp [payload, signatureBlock, Value.depth, Value.depthMembers]
  have ht := canonical_of_freeze h.sealed
  refine ⟨hdistinct, ?_, ?_, ?_, ?_, ?_, ?_, ?_, ?_, ?_⟩
  · have hcan := canon.canonical_of_encode hdistinct (canon.canonicalize_eq_encode completed ▸ ht)
    have hbytes : canon.canonical_bytes completed = .ok A.canonical_bytes := by
      rw [canon.canonical_bytes, ht]
      rfl
    rw [FrozenAuthorization.value, load.load_canonical_bytes hcan hbytes, if_pos hdepth]
  all_goals
    rw [hcompleted, Value.get?_dict, payload]
    simp

theorem Document.get? {expires_at : Str} {D : Value} (h : Document D authorization_id nonce issued_at
    expires_at runtime_id action_digest P.digest snap.digest A) {k s : Str}
    (hk : D.get? k = some (.str s)) : getItem D.normalize k = .ok (.str s) := by
  rw [getItem_normalize h.distinct, getItem_eq_ok.mpr hk]
  simp [Except.map]

/-! ## Verifying an issued authorization -/

/-- An issued authorization, read back and verified against what it was issued
for, is accepted exactly when its interval is. -/
theorem Issued.verify (h : Issued host P candidate snap authorization_id nonce runtime_id issued_at
    key_id key_version private_key A issued frozen ttl action_digest completed) {V : Value}
    (hV : snap.value = .ok V) (heval : gate.evaluate P candidate V REGISTRY = .ok result)
    (hallow : result.outcome = lit "ALLOW") {keys : KeyRegistry} {entry : KeyEntry}
    (hkey : keys.lookup (key_id, key_version) = some entry) {historical : Bool}
    (hstatus : check_key_status entry historical = .ok ())
    (hpair : host.Pair private_key entry.public_key) (time : Option Value) :
    verify_authorization host completed.normalize P candidate snap result runtime_id time keys
        REGISTRY none historical =
      (check_interval P snap completed.normalize time >>= fun _ => .ok A) := by
  have hdoc := h.document
  obtain ⟨members, hmembers⟩ : ∃ members, completed.normalize = .dict members := by
    obtain ⟨_, _, -, -, hcompleted⟩ := sign_payload_eq_ok.mp h.signed
    rw [hcompleted, Value.normalize_dict]
    exact ⟨_, rfl⟩
  have hvalid : schema.validate completed.normalize AUTHORIZATION_SCHEMA_ID REGISTRY = .ok () := by
    rw [validate_normalize hdoc.distinct]
    exact h.valid
  have hsignature : ∀ unknown invalid,
      check_signature host completed.normalize keys historical unknown invalid = .ok () := by
    intro unknown invalid
    obtain ⟨block, signature, signing_bytes, hsigned⟩ :=
      signedUnder_of_sign h.signed (by simp [payload]) hkey hstatus hpair
    exact check_signature_eq_ok.mpr ⟨_, _, _, _, _, hsigned.normalize hdoc.distinct⟩
  have hbind : ∀ (field : String) (s : Str), bind_field field (.str s) s = .ok () := by
    intro field s
    simp [bind_field, python.eq, eqBy, eqScalar]
  have hbindings : check_bindings P candidate snap result completed.normalize REGISTRY = .ok () := by
    unfold check_bindings
    rw [hdoc.get? hdoc.rulebook_digest, ok_bind, hbind, ok_bind, hdoc.get? hdoc.action_digest,
      ok_bind, h.action, ok_bind, hbind, ok_bind, hdoc.get? hdoc.evidence_digest, ok_bind, hbind,
      ok_bind, hV, ok_bind, heval, ok_bind, raiseIf_neg (by simp), ok_bind,
      raiseIf_neg (by simp [hallow])]
  have hfreeze : freeze completed.normalize = .ok A := by
    rw [freeze_normalize hdoc.distinct]
    exact h.sealed
  rw [hmembers] at hvalid hsignature hbindings hfreeze ⊢
  have hrun := hdoc.get? hdoc.runtime_id
  have hnonce := hdoc.get? hdoc.nonce
  rw [hmembers] at hrun hnonce
  unfold verify_authorization
  dsimp only
  rw [hvalid, ok_bind, hsignature, ok_bind, hbindings, ok_bind, hrun, ok_bind, hbind, ok_bind]
  congr 1
  funext u
  rw [hnonce, ok_bind]
  simp [string, hfreeze]

/-- The interval of an authorization whose expiry is rendered right. -/
theorem Issued.interval (h : Issued host P candidate snap authorization_id nonce runtime_id
    issued_at key_id key_version private_key A issued frozen ttl action_digest completed)
    (httl : 1 ≤ ttl) (hright : rulebook.instant (.str (rendered
      (civil (expirySecond issued ttl / 86400)) (expirySecond issued ttl % 86400))) =
        .ok (expirySecond issued ttl * rulebook.NANOS_PER_SECOND)) (time : Option Value) :
    check_interval P snap completed.normalize time = match time with
      | none => .ok ()
      | some t => check_spendable issued (expirySecond issued ttl * rulebook.NANOS_PER_SECOND) t := by
  have hdoc := h.document
  have hlater : ¬ expirySecond issued ttl * rulebook.NANOS_PER_SECOND ≤ issued := by
    unfold expirySecond rulebook.NANOS_PER_SECOND
    omega
  unfold check_interval
  rw [hdoc.get? hdoc.issued_at, ok_bind, instant_of_eq_ok.mpr h.issued_instant, ok_bind,
    hdoc.get? hdoc.expires_at, ok_bind, instant_of_eq_ok.mpr hright, ok_bind,
    instant_of_eq_ok.mpr h.frozen_instant, ok_bind, raiseIf_neg (not_lt.mpr h.ordered), ok_bind,
    raiseIf_neg hlater, ok_bind, h.lifetime, ok_bind]
  dsimp only
  rw [raiseIf_neg (by simp [expirySecond]), ok_bind]
  cases time <;> rfl

/-- The interval of an authorization whose expiry is rendered wrong. -/
theorem Issued.interval_wrong (h : Issued host P candidate snap authorization_id nonce runtime_id
    issued_at key_id key_version private_key A issued frozen ttl action_digest completed)
    (hwrong : rulebook.instant (.str (rendered
      (civil (expirySecond issued ttl / 86400)) (expirySecond issued ttl % 86400))) ≠
        .ok (expirySecond issued ttl * rulebook.NANOS_PER_SECOND)) (time : Option Value) :
    check_interval P snap completed.normalize time ≠ .ok () := by
  have hdoc := h.document
  unfold check_interval
  rw [hdoc.get? hdoc.issued_at, ok_bind, instant_of_eq_ok.mpr h.issued_instant, ok_bind,
    hdoc.get? hdoc.expires_at, ok_bind]
  simp only [ne_eq, bind_eq_ok, not_exists, not_and, exists_unit, raiseIf_eq_ok, instant_of_eq_ok]
  intro expires hexpires _ _ _ _ ttl' httl hexpected
  rw [h.lifetime] at httl
  cases httl
  refine absurd ?_ hwrong
  rw [hexpires, not_not.mp hexpected]
  rfl

/-- Spending: inside the interval, at any instant of the grammar. -/
theorem check_spendable_iff {issued expires t : Int} {time : Value}
    (ht : rulebook.instant time = .ok t) :
    (check_spendable issued expires time = .ok () ↔ issued ≤ t ∧ t < expires) ∧
      (t < issued ∨ expires ≤ t → ∃ f, check_spendable issued expires time = .error (.verify f)) := by
  unfold check_spendable
  rw [instant_of_eq_ok.mpr ht, ok_bind]
  constructor
  · simp only [bind_eq_ok, exists_unit, raiseIf_eq_ok]
    omega
  · intro hout
    by_cases hearly : t < issued
    · rw [raiseIf_pos hearly]
      exact ⟨_, rfl⟩
    · rw [raiseIf_neg hearly, ok_bind, raiseIf_pos (by omega)]
      exact ⟨_, rfl⟩

end Issue

/-! ## An authorization of the host -/

/-- The host issues for a permitted action, when the expiry is one that the
schema admits. -/
theorem issue_plain {P : rulebook.LoadedRulebook} {snap : snapshot.FrozenSnapshot}
    {result : gate.EvaluationResult} (hallow : result.outcome = lit "ALLOW") {day : Str}
    (hday : Encodable day) (hdate : is_date_time day = true) {issued ttl : Int}
    (hissued : rulebook.instant (.str day) = .ok issued) (hsnap : snap.frozen_at = day)
    (httl : ttl_seconds P = .ok ttl) {expires_at : Str}
    (hexpires : add_seconds (.str day) ttl = .ok expires_at)
    (hexpiry : is_date_time expires_at = true) (hencodable : Encodable expires_at)
    (hP : Encodable P.digest ∧ IsDigest (.str P.digest))
    (hS : Encodable snap.digest ∧ IsDigest (.str snap.digest)) :
    ∃ A, issue_authorization plainHost P (.dict gate.smallCandidate) snap result "permit"
      "nonce-0123456789" "runtime" day "key" 1 PLAIN_KEY REGISTRY = .ok A := by
  obtain ⟨action_digest, haction, hae⟩ := canon.digest_of_canonical gate.canonical_smallCandidate
  have hpayload : (Value.dict (payload "permit" "nonce-0123456789" day expires_at "runtime"
      action_digest P.digest snap.digest)).Canonical := by
    simp [payload, Distinct, encodable_lit, hday, hencodable, hae, hP.1, hS.1]
  obtain ⟨signature, hsigned, hcanonical⟩ := @sign_plain _ hpayload (by simp [payload]) "key"
    (encodable_lit _) 1 (by decide)
  have hvalid : schema.validate (.dict (payload "permit" "nonce-0123456789" day expires_at "runtime"
      action_digest P.digest snap.digest ++ [(lit "signature", signatureBlock "key" 1 signature)]))
      AUTHORIZATION_SCHEMA_ID REGISTRY = .ok () := by
    have hblock : IsSignature (signatureBlock "key" 1 signature) := by
      refine ⟨_, rfl, by simp, ?_⟩
      simp [signatureFields, IsText, IsNatural, ALGORITHM]
    have hnonce : 16 ≤ (lit "nonce-0123456789").length := by decide
    refine (validate_authorization_iff _).mpr ⟨_, rfl, by simp [AUTHORIZATION_REQUIRED, payload], ?_⟩
    simp [payload, authorizationFields, IsText, IsLongText, IsDate, hdate, hexpiry, hblock, hP.2,
      hS.2, isDigest_digest haction, hnonce]
  obtain ⟨t, ht⟩ := canon.encode_of_canonical hcanonical
  rw [← canon.canonicalize_eq_encode] at ht
  unfold issue_authorization
  rw [raiseIf_neg (by decide), ok_bind, raiseIf_neg (by simp [hallow]), ok_bind,
    instant_of_eq_ok.mpr hissued, ok_bind, hsnap, instant_of_eq_ok.mpr hissued, ok_bind,
    raiseIf_neg (by omega), ok_bind, httl, ok_bind, hexpires, ok_bind, haction, ok_bind]
  dsimp only
  rw [← payload, hsigned, ok_bind, hvalid, ok_bind, freeze, ht, ok_bind]
  simp [payload, string, pure, Except.pure]

/-- A registry that holds the key of the host as active. -/
def PLAIN_KEYS : KeyRegistry := [(("key", 1), ⟨PLAIN_KEY, none⟩)]

theorem lookup_plain : PLAIN_KEYS.lookup (lit "key", 1) = some ⟨PLAIN_KEY, none⟩ := rfl

/-- On any day since it was adopted, a rulebook is pinned, evidence is frozen,
the evaluation allows, and an authorization is issued. -/
theorem issued_on {adopted_at day expires_at : Str} (ha : Encodable adopted_at)
    (hadopted : is_date_time adopted_at = true) (hday : Encodable day)
    (hdate : is_date_time day = true) {since t : Int}
    (hsince : rulebook.instant (.str adopted_at) = .ok since)
    (ht : rulebook.instant (.str day) = .ok t) (hle : since ≤ t)
    (hexpires : add_seconds (.str day) DEFAULT_TTL_SECONDS = .ok expires_at)
    (hexpiry : is_date_time expires_at = true) (hencodable : Encodable expires_at) :
    ∃ P S r A, rulebook.pin (rulebook.rulebookSince adopted_at gate.presentReport) REGISTRY =
        .ok P ∧
      snapshot.build_snapshot P "run" day [snapshot.acquiredOn day .null] REGISTRY = .ok S ∧
      S.value = .ok (gate.snapshotOn day P.digest S.digest) ∧
      gate.evaluate P (.dict gate.smallCandidate) (gate.snapshotOn day P.digest S.digest) REGISTRY =
        .ok r ∧ r.outcome = lit "ALLOW" ∧ ttl_seconds P = .ok DEFAULT_TTL_SECONDS ∧
      issue_authorization plainHost P (.dict gate.smallCandidate) S r "permit"
        "nonce-0123456789" "runtime" day "key" 1 PLAIN_KEY REGISTRY = .ok A := by
  obtain ⟨P, S, r, hP, hS, hfrozen, hPd, hSd, hvalue, hr, hallow⟩ :=
    gate.evaluate_report_allows ha hadopted hday hdate hsince ht hle
  have httl : ttl_seconds P = .ok DEFAULT_TTL_SECONDS := by
    have hV := gate.readsBack_of_pin
      (rulebook.canonical_rulebookSince ha gate.encodable_presentReport).distinctKeys hP
    unfold ttl_seconds
    rw [hV.value, rulebook.normalize_rulebookSince]
    simp [rulebook.rulebookSince, getOr, getMethod, number, pure, Except.pure]
  obtain ⟨A, hA⟩ := issue_plain hallow hday hdate ht hfrozen httl hexpires hexpiry hencodable hPd hSd
  exact ⟨P, S, r, A, hP, hS, hvalue, hr, hallow, httl, hA⟩

/-! ## The window -/

/-- Read back and verified with the same objects, the authorization is accepted
at every instant of its window, and refused before and after it. -/
def KeepsWindow (host : Host) (A : FrozenAuthorization) (P : rulebook.LoadedRulebook)
    (candidate : Value) (snap : snapshot.FrozenSnapshot) (result : gate.EvaluationResult)
    (runtime_id : Str) (keys : KeyRegistry) (issued expiry : Int) : Prop :=
  ∃ value, A.value = .ok value ∧ ∀ time t, rulebook.instant time = .ok t →
    (issued ≤ t → t < expiry → verify_authorization host value P candidate snap result runtime_id
      (some time) keys REGISTRY none false = .ok A) ∧
    (t < issued ∨ expiry ≤ t → ∃ failure, verify_authorization host value P candidate snap result
      runtime_id (some time) keys REGISTRY none false = .error (.verify failure))

/-- An issued authorization keeps its window exactly when its expiry is at or
after 0000-02-29T00:00:00Z. -/
theorem issued_keeps_window_iff {host : Host} {v : Value} (hv : v.DistinctKeys)
    {P : rulebook.LoadedRulebook} (hpin : rulebook.pin v REGISTRY = .ok P) {candidate V : Value}
    {snap : snapshot.FrozenSnapshot} (hV : snap.value = .ok V) {result : gate.EvaluationResult}
    (heval : gate.evaluate P candidate V REGISTRY = .ok result)
    (hallow : result.outcome = lit "ALLOW") {keys : KeyRegistry} {key_id : Str} {key_version : Int}
    {entry : KeyEntry} (hkey : keys.lookup (key_id, key_version) = some entry)
    (hactive : entry.status.getD ACTIVE = ACTIVE) {private_key : List UInt8}
    (hpair : host.Pair private_key entry.public_key)
    {authorization_id nonce runtime_id issued_at : Str} {A : FrozenAuthorization}
    (hissue : issue_authorization host P candidate snap result authorization_id nonce runtime_id
      issued_at key_id key_version private_key REGISTRY = .ok A) :
    ∃ issued ttl, rulebook.instant (.str issued_at) = .ok issued ∧ ttl_seconds P = .ok ttl ∧
      (KeepsWindow host A P candidate snap result runtime_id keys issued
          (expirySecond issued ttl * rulebook.NANOS_PER_SECOND) ↔
        FIRST_EXPIRY ≤ expirySecond issued ttl) := by
  obtain ⟨-, issued, frozen, ttl, action_digest, completed, h⟩ := issue_authorization_ok hissue
  obtain ⟨ttl', httl', hpos⟩ := ttl_seconds_ok (gate.readsBack_of_pin hv hpin)
  obtain rfl : ttl = ttl' := Except.ok.inj (h.lifetime.symm.trans httl')
  have hstatus : check_key_status entry false = .ok () := by
    unfold check_key_status
    rw [hactive]
    decide
  have hverify := h.verify hV heval hallow hkey hstatus hpair
  have hvalid := (validate_authorization_iff _).mp h.valid
  refine ⟨issued, ttl, h.issued_instant, h.lifetime, ?_, ?_⟩
  · rintro ⟨value, hvalue, hwindow⟩
    obtain rfl : completed.normalize = value :=
      Except.ok.inj (h.document.reads_back.symm.trans hvalue)
    by_contra hearly
    have hlow := instant_ge h.issued_instant
    have hwrong := instant_early_expiry (not_le.mp hearly)
      (show -719529 * 86400 ≤ expirySecond issued ttl by unfold expirySecond; omega)
    have haccept := (hwindow (.str issued_at) issued h.issued_instant).1 le_rfl
      (by unfold expirySecond rulebook.NANOS_PER_SECOND; omega)
    rw [hverify, bind_eq_ok] at haccept
    obtain ⟨_, hok, -⟩ := haccept
    exact h.interval_wrong hwrong _ hok
  · intro hlate
    obtain ⟨_, hget, s, rfl, hdate⟩ := ClosedObject.require hvalid
      (f := ("expires_at", DATE, IsDate)) (by simp [AUTHORIZATION_REQUIRED])
      (by simp [authorizationFields]) (by decide)
    rw [h.document.expires_at] at hget
    cases hget
    have hinterval := h.interval hpos (instant_expiry hlate hdate)
    refine ⟨_, h.document.reads_back, fun time t ht => ?_⟩
    rw [hverify, hinterval]
    obtain ⟨haccept, hrefuse⟩ := @check_spendable_iff issued
      (expirySecond issued ttl * rulebook.NANOS_PER_SECOND) t time ht
    refine ⟨fun hle hlt => ?_, fun hout => ?_⟩
    · dsimp only
      rw [haccept.mpr ⟨hle, hlt⟩, ok_bind]
    · obtain ⟨f, hf⟩ := hrefuse hout
      dsimp only
      exact ⟨f, by rw [hf, error_bind]⟩

/-- An authorization of the year 2026 keeps its window. -/
theorem issued_keeps_window_now : ∃ P S r A,
    rulebook.pin (rulebook.rulebookSince "2026-01-01T00:00:00Z" gate.presentReport) REGISTRY =
      .ok P ∧
    issue_authorization plainHost P (.dict gate.smallCandidate) S r "permit" "nonce-0123456789"
      "runtime" "2026-01-02T00:00:00Z" "key" 1 PLAIN_KEY REGISTRY = .ok A ∧
    KeepsWindow plainHost A P (.dict gate.smallCandidate) S r "runtime" PLAIN_KEYS
      1767312000000000000 1767312300000000000 := by
  have ht : rulebook.instant (.str "2026-01-02T00:00:00Z") = .ok 1767312000000000000 := by
    decide +kernel
  have hexpires : add_seconds (.str "2026-01-02T00:00:00Z") DEFAULT_TTL_SECONDS =
      .ok "2026-01-02T00:05:00Z" := by decide +kernel
  obtain ⟨P, S, r, A, hP, -, hvalue, hr, hallow, httl, hA⟩ := issued_on
    (encodable_lit "2026-01-01T00:00:00Z") (by decide +kernel)
    (encodable_lit "2026-01-02T00:00:00Z") (by decide +kernel)
    (show rulebook.instant (.str "2026-01-01T00:00:00Z") = .ok 1767225600000000000 by
      decide +kernel) ht (by norm_num) hexpires (by decide +kernel) (encodable_lit _)
  refine ⟨P, S, r, A, hP, hA, ?_⟩
  obtain ⟨issued, ttl, hissued, httl', hiff⟩ := issued_keeps_window_iff
    (rulebook.canonical_rulebookSince (encodable_lit _) gate.encodable_presentReport).distinctKeys hP
    hvalue hr hallow lookup_plain rfl pair_plain hA
  obtain rfl := Except.ok.inj (ht.symm.trans hissued)
  obtain rfl := Except.ok.inj (httl.symm.trans httl')
  exact hiff.mpr (by decide)

/-- What the verifier says about an expiry that is not the one it derives. -/
def notDerived : Exn := fail .authorization_binding_mismatch
  "The authorization's expiry is not derived from the bound rulebook's TTL."

/-- An authorization that was issued in January of year 0 carries an expiry that
is a day late, and is refused at every instant. -/
theorem issued_loses_its_window : ∃ P S r A value,
    rulebook.pin (rulebook.rulebookSince "0000-01-01T00:00:00Z" gate.presentReport) REGISTRY =
      .ok P ∧
    snapshot.build_snapshot P "run" "0000-01-15T00:00:00Z"
      [snapshot.acquiredOn "0000-01-15T00:00:00Z" .null] REGISTRY = .ok S ∧
    r.outcome = lit "ALLOW" ∧ ttl_seconds P = .ok 300 ∧
    issue_authorization plainHost P (.dict gate.smallCandidate) S r "permit" "nonce-0123456789"
      "runtime" "0000-01-15T00:00:00Z" "key" 1 PLAIN_KEY REGISTRY = .ok A ∧
    A.value = .ok value ∧ getItem value "expires_at" = .ok (.str "0000-01-16T00:05:00Z") ∧
    (∀ time, verify_authorization plainHost value P (.dict gate.smallCandidate) S r "runtime"
      time PLAIN_KEYS REGISTRY none false = .error notDerived) ∧
    ¬ KeepsWindow plainHost A P (.dict gate.smallCandidate) S r "runtime" PLAIN_KEYS
      (-62166009600000000000) (-62166009300000000000) := by
  have ht : rulebook.instant (.str "0000-01-15T00:00:00Z") = .ok (-62166009600000000000) := by
    decide +kernel
  have hexpires : add_seconds (.str "0000-01-15T00:00:00Z") DEFAULT_TTL_SECONDS =
      .ok "0000-01-16T00:05:00Z" := by decide +kernel
  have hlate : rulebook.instant (.str "0000-01-16T00:05:00Z") = .ok (-62165922900000000000) := by
    decide +kernel
  obtain ⟨P, S, r, A, hP, hS, hvalue, hr, hallow, httl, hA⟩ := issued_on
    (encodable_lit "0000-01-01T00:00:00Z") (by decide +kernel)
    (encodable_lit "0000-01-15T00:00:00Z") (by decide +kernel)
    (show rulebook.instant (.str "0000-01-01T00:00:00Z") = .ok (-62167219200000000000) by
      decide +kernel) ht (by norm_num) hexpires (by decide +kernel) (encodable_lit _)
  obtain ⟨-, issued, frozen, ttl, action_digest, completed, h⟩ := issue_authorization_ok hA
  obtain rfl := Except.ok.inj (ht.symm.trans h.issued_instant)
  obtain rfl := Except.ok.inj (httl.symm.trans h.lifetime)
  have hexpiry := @add_seconds_eq _ _ DEFAULT_TTL_SECONDS ht
  rw [hexpires] at hexpiry
  have hdoc := h.document
  rw [← Except.ok.inj hexpiry] at hdoc
  have hinterval : ∀ time, check_interval P S completed.normalize time =
      .error notDerived := by
    intro time
    unfold check_interval
    rw [hdoc.get? hdoc.issued_at, ok_bind, instant_of_eq_ok.mpr ht, ok_bind,
      hdoc.get? hdoc.expires_at, ok_bind, instant_of_eq_ok.mpr hlate, ok_bind,
      instant_of_eq_ok.mpr h.frozen_instant, ok_bind, raiseIf_neg (not_lt.mpr h.ordered), ok_bind,
      raiseIf_neg (by norm_num), ok_bind, httl, ok_bind]
    dsimp only
    rw [raiseIf_pos (by decide), error_bind]
    rfl
  have hrefused : ∀ time, verify_authorization plainHost completed.normalize P
      (.dict gate.smallCandidate) S r "runtime" time PLAIN_KEYS REGISTRY none false =
        .error notDerived := by
    intro time
    rw [h.verify hvalue hr hallow rfl (by decide) pair_plain, hinterval, error_bind]
  refine ⟨P, S, r, A, _, hP, hS, hallow, httl, hA, hdoc.reads_back, hdoc.get? hdoc.expires_at,
    hrefused, ?_⟩
  rintro ⟨value, hvalue', hwindow⟩
  obtain rfl := Except.ok.inj (hdoc.reads_back.symm.trans hvalue')
  have haccept := (hwindow _ _ ht).1 (by norm_num) (by norm_num)
  rw [hrefused] at haccept
  cases haccept

end vfy.authorization
