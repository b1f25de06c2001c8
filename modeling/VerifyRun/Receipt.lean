-- Signed decision receipts: one rulebook, one candidate and one snapshot gave
-- one result. Verifying a receipt says that the record is authentic; replaying
-- it recomputes the decision from the recorded inputs.
import VerifyRun.Authorization

namespace vfy.receipt

open python keys outcomes schema authorization

def SPEC_VERSION : Str := "1"
def REPLAY_MODE : Str := "recompute-decision"
def DECISION_OUTCOMES : List Str := ["ALLOW", "BLOCK", "HOLD"]

/-- A complete receipt. -/
structure FrozenReceipt where
  canonical : Text
  receipt_id : Str
  outcome : Str
deriving DecidableEq

/-- `canonical_bytes`. -/
def FrozenReceipt.canonical_bytes (frozen : FrozenReceipt) : ByteArray :=
  (String.ofList frozen.canonical).toByteArray

/-- A fresh copy of the receipt value. -/
def FrozenReceipt.value (frozen : FrozenReceipt) : Except Exn Value :=
  load.load_json_bytes frozen.canonical_bytes

/-- What a receipt alone can establish. -/
structure ReceiptVerification where
  receipt_id : Str
  outcome : Str
  key_id : Str
  key_version : Int
  replay_mode : Str
  signature_valid : Bool
  replayed : Bool := false
deriving DecidableEq

/-- What replay adds. -/
structure ReplayVerification where
  receipt_id : Str
  outcome : Str
  signature_valid : Bool
  bodies_matched : Bool
  result_recomputed : Bool
  result_matched : Bool
  authorization_verified : Bool
  recomputed_canonical : Text
  replayed : Bool := true
  timeline_anomalies : List Str
deriving DecidableEq

/-! ## Issuing -/

/-- `_check_shape_for_outcome`. -/
def check_shape_for_outcome {α β : Type} (outcome : Str) (authorization : Option α)
    (execution : Option β) : Except Exn Unit :=
  if outcome = lit "BLOCK" ∨ outcome = lit "HOLD" then do
    raiseIf authorization.isSome (fail .receipt_binding_mismatch
      (lit "A " ++ outcome ++ lit " decision authorizes nothing, so it names no authorization."))
    raiseIf execution.isSome (fail .receipt_binding_mismatch
      (lit "A " ++ outcome ++ lit " decision authorizes nothing, so nothing was executed."))
  else .ok ()

/-- The members that a receipt records, before it is signed. -/
def payload_of (pinned : rulebook.LoadedRulebook) (candidate : Value)
    (snap : snapshot.FrozenSnapshot) (result : gate.EvaluationResult)
    (authorization : Option FrozenAuthorization) (execution : Option Value)
    (receipt_id created_at : Str) : Except Exn (List (Str × Value)) := do
  let rulebook_value ← pinned.value
  let rulebook_id ← getItem rulebook_value "rulebook_id"
  let version ← getItem rulebook_value "version"
  let candidate_digest ← canon.digest candidate
  let result ← result.value
  let recorded : List (Str × Value) :=
    [("receipt_id", .str receipt_id), ("spec_version", .str SPEC_VERSION),
     ("created_at", .str created_at),
     ("rulebook", .dict [("rulebook_id", rulebook_id), ("version", version),
       ("digest", .str pinned.digest)]),
     ("candidate_digest", .str candidate_digest), ("evidence_digest", .str snap.digest),
     ("result", result), ("replay", .dict [("mode", .str REPLAY_MODE)])]
  let named := authorization.map fun a => (lit "authorization_id", Value.str a.authorization_id)
  let executed := execution.map fun e => (lit "execution", e)
  pure (recorded ++ named.toList ++ executed.toList)

/-- Return the signed receipt for one completed decision. -/
def issue_receipt (host : Host) (pinned : rulebook.LoadedRulebook) (candidate : Value)
    (snap : snapshot.FrozenSnapshot) (result : gate.EvaluationResult)
    (authorization : Option FrozenAuthorization) (execution : Option Value)
    (receipt_id created_at key_id : Str) (key_version : Int) (private_key : List UInt8)
    (registry : Registry) : Except Exn FrozenReceipt := do
  raiseIf (private_key.length ≠ KEY_LENGTH)
    (fail .signing_key_invalid "An Ed25519 private key is 32 bytes.")
  raiseIf (result.outcome ∉ DECISION_OUTCOMES)
    (fail .receipt_outcome_ineligible "ERROR is not a decision and emits no receipt.")
  check_shape_for_outcome result.outcome authorization execution
  let payload ← payload_of pinned candidate snap result authorization execution receipt_id created_at
  let completed ← sign_payload host payload key_id key_version private_key
  schema.validate completed RECEIPT_SCHEMA_ID registry
  let canonical ← canon.canonicalize completed
  pure { canonical, receipt_id, outcome := result.outcome }

/-! ## Verifying -/

/-- A member that is there, and is not `None`. -/
def present : Option Value → Option Value
  | some .null => none
  | member => member

/-- The members of a verified receipt that its report repeats. -/
def report_of (value : Value) (outcome : Str) : Except Exn ReceiptVerification := do
  let receipt_id ← string (← getItem value "receipt_id")
  let (key_id, key_version) ← identity_of (← getItem value "signature")
  let replay_mode ← string (← getItem (← getItem value "replay") "mode")
  pure { receipt_id, outcome, key_id, key_version, replay_mode, signature_valid := true }

/-- Establish that a receipt, a mapping, is authentic and unaltered. -/
def verify_receipt (host : Host) (value : Value) (keys : KeyRegistry) (registry : Registry) :
    Except Exn ReceiptVerification :=
  match value with
  | .dict _ => do
    schema.validate value RECEIPT_SCHEMA_ID registry
    let mode ← getItem (← getItem value "replay") "mode"
    raiseIf (¬ python.eq mode (.str REPLAY_MODE))
      (fail .receipt_binding_mismatch "Unsupported replay mode.")
    check_signature host value keys true "No receipt key in the registry matches "
      "The signature does not verify over the receipt's payload."
    let outcome ← string (← getItem (← getItem value "result") "outcome")
    raiseIf (outcome ∉ DECISION_OUTCOMES)
      (fail .receipt_outcome_ineligible "ERROR is not a decision and emits no receipt.")
    let authorization_id ← getMethod value "authorization_id"
    let execution ← getMethod value "execution"
    check_shape_for_outcome outcome (present authorization_id) (present execution)
    report_of value outcome
  | _ => .error .type_error

/-! ## The timeline -/

/-- `bool(value)`. -/
def truthy : Value → Bool
  | .null => false
  | .bool b => b
  | .int i => i ≠ 0
  | .str s => s ≠ []
  | .list items => !items.isEmpty
  | .dict members => !members.isEmpty

/-- `value or {}`. -/
def orEmpty (value : Option Value) : Value :=
  match value with
  | some v => if truthy v then v else .dict []
  | none => .dict []

/-- A recorded instant, and the name that the report gives it. -/
structure Recorded where
  name : Str
  value : Option Value

/-- The report of one impossible order: the later instant precedes the earlier. -/
def precedes (later earlier : Recorded) : Option Str :=
  match present later.value, present earlier.value with
  | some (.str after), some (.str before) =>
    match rulebook.instant (.str after), rulebook.instant (.str before) with
    | .ok t, .ok s =>
      if t < s then some (later.name ++ lit " (" ++ after ++ lit ") precedes " ++ earlier.name ++
        lit " (" ++ before ++ lit ")")
      else none
    | _, _ => none
  -- an instant that is no string is a type error, which is not reported
  | _, _ => none

/-- Recorded instants that cannot have occurred in the order recorded. -/
def timeline_anomalies (receipt_value : Value) (snapshot_value authorization : Option Value) :
    Except Exn (List Str) := do
  let execution := orEmpty (← getMethod receipt_value "execution")
  let created : Recorded := ⟨"created_at", ← getMethod receipt_value "created_at"⟩
  let acknowledged : Recorded :=
    ⟨"execution.acknowledged_at", ← getMethod execution "acknowledged_at"⟩
  let frozen : Recorded :=
    ⟨"the evidence snapshot's frozen_at", ← getMethod (orEmpty snapshot_value) "frozen_at"⟩
  let issued : Recorded :=
    ⟨"the authorization's issued_at", ← getMethod (orEmpty authorization) "issued_at"⟩
  pure ([(created, issued), (created, frozen), (acknowledged, issued), (acknowledged, frozen),
    (acknowledged, created)].filterMap fun pair => precedes pair.1 pair.2)

/-! ## Replaying -/

/-- A body that replay needs was not supplied. -/
def body_missing (name : String) : Exn :=
  fail .replay_body_missing (lit "Replay needs the " ++ lit name ++
    lit " body, which was not supplied.")

/-- The supplied bodies are the ones that the receipt records. -/
def check_bodies (value : Value) (pinned : rulebook.LoadedRulebook) (candidate : Value)
    (snapshot_value : Value) (registry : Registry) : Except Exn snapshot.FrozenSnapshot := do
  let recorded ← getItem value "rulebook"
  let digest ← getItem recorded "digest"
  let rulebook_id ← getItem recorded "rulebook_id"
  let version ← getItem recorded "version"
  raiseIf (¬ python.eq (.str pinned.digest) digest ∨
      ¬ python.eq (.str pinned.rulebook_id) rulebook_id ∨
      ¬ python.eq (.str pinned.version) version)
    (fail .replay_body_mismatch "The supplied rulebook is not the one the receipt records.")
  let candidate_digest ← canon.digest candidate
  raiseIf (¬ python.eq (.str candidate_digest) (← getItem value "candidate_digest"))
    (fail .replay_body_mismatch "The supplied candidate is not the one the receipt records.")
  let frozen ← snapshot.verify_snapshot_value snapshot_value pinned registry
  raiseIf (¬ python.eq (.str frozen.digest) (← getItem value "evidence_digest"))
    (fail .replay_body_mismatch "The supplied snapshot is not the one the receipt records.")
  pure frozen

/-- One digest of the authorization, against the receipt's. -/
def check_digest (authorization : Value) (field : String) (bound : Value) : Except Exn Unit := do
  let supplied ← getMethod authorization field
  raiseIf (¬ python.eq (supplied.getD .null) bound) (fail .receipt_binding_mismatch
    (lit "The authorization's " ++ lit field ++ lit " is not the receipt's."))

/-- The authorization that the receipt names, cross-checked by content. -/
def check_authorization (host : Host) (value authorization : Value)
    (pinned : rulebook.LoadedRulebook) (candidate : Value) (frozen : snapshot.FrozenSnapshot)
    (recomputed : gate.EvaluationResult) (authorization_keys : Option KeyRegistry)
    (verification_time : Option Value) (registry : Registry) : Except Exn Unit :=
  match authorization_keys with
  | none => .error (fail .replay_body_missing
      "Verifying the referenced authorization needs its key registry.")
  | some keys => do
    let named ← getMethod authorization "authorization_id"
    raiseIf (¬ python.eq (named.getD .null) (← getItem value "authorization_id"))
      (fail .receipt_binding_mismatch
        "The supplied authorization is not the one the receipt names.")
    check_digest authorization "action_digest" (← getItem value "candidate_digest")
    check_digest authorization "rulebook_digest" (← getItem (← getItem value "rulebook") "digest")
    check_digest authorization "evidence_digest" (← getItem value "evidence_digest")
    let runtime_id ← string (← getItem authorization "runtime_id")
    let _ ← verify_authorization host authorization pinned candidate frozen recomputed runtime_id
      verification_time keys registry none true

/-- The supplied authorization, when the receipt names one. -/
def supplied_authorization (value : Value) (authorization : Option Value) :
    Except Exn (Option Value) := do
  let named ← getMethod value "authorization_id"
  pure (if (present named).isSome then present authorization else none)

/-- Replay, once the receipt is verified and every body is there. -/
def recompute (host : Host) (yaml : load.Yaml) (verified : ReceiptVerification) (value : Value)
    (source : ByteArray) (candidate snapshot_value : Value) (registry : Registry)
    (authorization : Option Value) (authorization_keys : Option KeyRegistry)
    (verification_time : Option Value) : Except Exn ReplayVerification := do
  let pinned ← rulebook.load_rulebook_bytes yaml source registry
  let frozen ← check_bodies value pinned candidate snapshot_value registry
  let recomputed ← gate.evaluate pinned candidate snapshot_value registry
  let recorded_result ← canon.canonicalize (← getItem value "result")
  raiseIf (recomputed.canonical ≠ recorded_result) (fail .replay_result_mismatch
    "The recomputed decision differs from the one the receipt records.")
  let supplied ← supplied_authorization value authorization
  forM supplied.toList fun authorization =>
    check_authorization host value authorization pinned candidate frozen recomputed
      authorization_keys verification_time registry
  let anomalies ← timeline_anomalies value (some snapshot_value) authorization
  pure { receipt_id := verified.receipt_id, outcome := verified.outcome, signature_valid := true,
         bodies_matched := true, result_recomputed := true, result_matched := true,
         authorization_verified := supplied.isSome,
         recomputed_canonical := recomputed.canonical, timeline_anomalies := anomalies }

/-- Recompute the recorded decision from the exact recorded inputs and compare.
A candidate or a snapshot that is `null` was not supplied. -/
def replay_receipt (host : Host) (yaml : load.Yaml) (value : Value)
    (rulebook_source : Option ByteArray) (candidate snapshot_value : Value)
    (receipt_keys : KeyRegistry) (registry : Registry) (authorization : Option Value)
    (authorization_keys : Option KeyRegistry) (verification_time : Option Value) :
    Except Exn ReplayVerification := do
  let verified ← verify_receipt host value receipt_keys registry
  match rulebook_source, present (some candidate), present (some snapshot_value) with
  | none, _, _ => .error (body_missing "rulebook")
  | some _, none, _ => .error (body_missing "candidate")
  | some _, some _, none => .error (body_missing "snapshot")
  | some source, some candidate, some snapshot_value =>
    recompute host yaml verified value source candidate snapshot_value registry authorization
      authorization_keys verification_time

end vfy.receipt
