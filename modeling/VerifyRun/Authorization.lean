-- Action-bound authorizations: permission for one exact action, under one
-- exact rulebook, on one exact frozen snapshot, in one runtime, for a bounded
-- interval, once. No clock is read: every instant is an argument.
import VerifyRun.Expiry
import VerifyRun.Gate
import VerifyRun.Signing
import VerifyRun.Snapshot

namespace vfy.authorization

open python keys outcomes schema

def DEFAULT_TTL_SECONDS : Int := 300

/-- A complete authorization. -/
structure FrozenAuthorization where
  canonical : Text
  authorization_id : Str
  nonce : Str
  issued_at : Str
  expires_at : Str
deriving DecidableEq

/-- `canonical_bytes`. -/
def FrozenAuthorization.canonical_bytes (frozen : FrozenAuthorization) : ByteArray :=
  (String.ofList frozen.canonical).toByteArray

/-- A fresh copy of the authorization value. -/
def FrozenAuthorization.value (frozen : FrozenAuthorization) : Except Exn Value :=
  load.load_json_bytes frozen.canonical_bytes

/-- `_freeze`. -/
def freeze (value : Value) : Except Exn FrozenAuthorization := do
  let canonical ← canon.canonicalize value
  let authorization_id ← string (← getItem value "authorization_id")
  let nonce ← string (← getItem value "nonce")
  let issued_at ← string (← getItem value "issued_at")
  let expires_at ← string (← getItem value "expires_at")
  pure { canonical, authorization_id, nonce, issued_at, expires_at }

/-- `_bind`. -/
def bind_field (field : String) (bound : Value) (expected : Str) : Except Exn Unit :=
  raiseIf (¬ python.eq bound (.str expected)) (fail .authorization_binding_mismatch
    (lit "The authorization's " ++ lit field ++ lit " is not the one supplied."))

/-- `_instant`. -/
def instant_of (text : Value) (field : String) : Except Exn Int :=
  match rulebook.instant text with
  | .ok t => .ok t
  | .error .type_error => .error (fail .authorization_not_yet_valid
      (lit field ++ lit " is not a date-time in the frozen grammar."))
  | .error e => .error e

/-- The seconds that the bound rulebook lets an authorization live. -/
def ttl_seconds (pinned : rulebook.LoadedRulebook) : Except Exn Int := do
  let settings ← getOr (← pinned.value) "authorization" (.dict [])
  number (← getOr settings "ttl_seconds" (.int DEFAULT_TTL_SECONDS))

/-- The frozen authorization for one permitted action. -/
def issue_authorization (host : Host) (pinned : rulebook.LoadedRulebook) (candidate : Value)
    (snapshot : snapshot.FrozenSnapshot) (result : gate.EvaluationResult)
    (authorization_id nonce runtime_id issued_at key_id : Str) (key_version : Int)
    (private_key : List UInt8) (registry : Registry) : Except Exn FrozenAuthorization := do
  raiseIf (private_key.length ≠ KEY_LENGTH)
    (fail .signing_key_invalid "An Ed25519 private key is 32 bytes.")
  raiseIf (result.outcome ≠ lit "ALLOW") (fail .authorization_outcome_ineligible
    (lit "Only ALLOW confers action authority; this result is " ++ result.outcome))
  let issued ← instant_of (.str issued_at) "issued_at"
  let frozen ← instant_of (.str snapshot.frozen_at) "frozen_at"
  raiseIf (issued < frozen) (fail .authorization_not_yet_valid
    "An authorization cannot be issued before the evidence it rests on was frozen.")
  let ttl ← ttl_seconds pinned
  let expires_at ← add_seconds (.str issued_at) ttl
  let action_digest ← canon.digest candidate
  let payload : List (Str × Value) :=
    [("authorization_id", .str authorization_id), ("nonce", .str nonce),
     ("issued_at", .str issued_at), ("expires_at", .str expires_at),
     ("runtime_id", .str runtime_id), ("action_digest", .str action_digest),
     ("rulebook_digest", .str pinned.digest), ("evidence_digest", .str snapshot.digest)]
  let completed ← sign_payload host payload key_id key_version private_key
  schema.validate completed AUTHORIZATION_SCHEMA_ID registry
  freeze completed

/-- The instant that an authorization is checked at for spending. -/
def check_spendable (issued expires : Int) (verification_time : Value) : Except Exn Unit := do
  let now ← instant_of verification_time "verification_time"
  raiseIf (now < issued) (fail .authorization_not_yet_valid "The authorization is not yet valid.")
  raiseIf (now ≥ expires) (fail .authorization_expired "The authorization has expired.")

/-- The validity interval of an authorization, and the instant that it is
spent at, if one is given. -/
def check_interval (pinned : rulebook.LoadedRulebook) (snapshot : snapshot.FrozenSnapshot)
    (value : Value) (verification_time : Option Value) : Except Exn Unit := do
  let issued ← instant_of (← getItem value "issued_at") "issued_at"
  let expires ← instant_of (← getItem value "expires_at") "expires_at"
  let frozen ← instant_of (.str snapshot.frozen_at) "frozen_at"
  raiseIf (issued < frozen) (fail .authorization_not_yet_valid
    "The authorization was issued before the evidence it rests on was frozen.")
  raiseIf (expires ≤ issued) (fail .authorization_expired
    "The authorization expires at or before it was issued.")
  let ttl ← ttl_seconds pinned
  let expected_expiry :=
    (issued / rulebook.NANOS_PER_SECOND + ttl) * rulebook.NANOS_PER_SECOND
  raiseIf (expires ≠ expected_expiry) (fail .authorization_binding_mismatch
    "The authorization's expiry is not derived from the bound rulebook's TTL.")
  match verification_time with
  | none => pure ()
  | some time => check_spendable issued expires time

/-- The bindings of an authorization: the digests of what the caller holds,
and the evaluation of them. -/
def check_bindings (pinned : rulebook.LoadedRulebook) (candidate : Value)
    (snapshot : snapshot.FrozenSnapshot) (result : gate.EvaluationResult) (value : Value)
    (registry : Registry) : Except Exn Unit := do
  bind_field "rulebook_digest" (← getItem value "rulebook_digest") pinned.digest
  bind_field "action_digest" (← getItem value "action_digest") (← canon.digest candidate)
  bind_field "evidence_digest" (← getItem value "evidence_digest") snapshot.digest
  let recomputed ← gate.evaluate pinned candidate (← snapshot.value) registry
  raiseIf (recomputed.canonical ≠ result.canonical) (fail .authorization_binding_mismatch
    "The supplied result is not what the bound inputs produce.")
  raiseIf (recomputed.outcome ≠ lit "ALLOW") (fail .authorization_outcome_ineligible
    (lit "The bound inputs do not produce ALLOW; they produce " ++ recomputed.outcome))

/-- `verify_authorization`, over a mapping. -/
def verify_authorization (host : Host) (value : Value) (pinned : rulebook.LoadedRulebook)
    (candidate : Value) (snapshot : snapshot.FrozenSnapshot) (result : gate.EvaluationResult)
    (runtime_id : Str) (verification_time : Option Value) (keys : KeyRegistry)
    (registry : Registry) (consumed_nonces : Option (List Str)) (historical : Bool) :
    Except Exn FrozenAuthorization :=
  match value with
  | .dict _ => do
    schema.validate value AUTHORIZATION_SCHEMA_ID registry
    check_signature host value keys historical "No key in the registry matches "
      "The signature does not verify over the authorization's payload."
    check_bindings pinned candidate snapshot result value registry
    bind_field "runtime_id" (← getItem value "runtime_id") runtime_id
    check_interval pinned snapshot value verification_time
    let nonce ← string (← getItem value "nonce")
    raiseIf (consumed_nonces.any fun consumed => nonce ∈ consumed)
      (fail .authorization_nonce_reused "This authorization's nonce has already been consumed.")
    freeze value
  | _ => .error .type_error

end vfy.authorization
