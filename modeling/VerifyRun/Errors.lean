-- The failures of the program: the typed ones, each with a code of the ERROR
-- class, and the exceptions of the Python runtime that a function can let
-- through.
import VerifyRun.Text

namespace vfy

/-- The codes of the typed failures. -/
inductive Code where
  | canonical_form_invalid
  | float_not_permitted
  | surrogate_not_permitted
  | source_encoding_invalid
  | source_syntax_invalid
  | source_too_deep
  | source_construct_unsupported
  | expression_parse_error
  | expression_type_error
  | rulebook_semantic_invalid
  | undeclared_evidence_id
  | rulebook_version_collision
  | snapshot_item_invalid
  | snapshot_item_undeclared
  | snapshot_item_missing
  | snapshot_rulebook_mismatch
  | snapshot_digest_mismatch
  | evidence_order_invalid
  | rulebook_not_adopted
  | authorization_outcome_ineligible
  | authorization_binding_mismatch
  | authorization_not_yet_valid
  | authorization_expired
  | authorization_nonce_reused
  | signature_malformed
  | signature_invalid
  | signing_key_unknown
  | signing_key_retired
  | signing_key_revoked
  | signing_key_invalid
  | receipt_outcome_ineligible
  | receipt_binding_mismatch
  | replay_body_missing
  | replay_body_mismatch
  | replay_result_mismatch
  | store_path_invalid
  | store_record_missing
  | store_record_incomplete
  | store_record_conflict
  | store_artifact_noncanonical
  | store_index_invalid
  | store_commit_conflict
  | store_consumption_conflict
  | execution_candidate_unsupported
  | execution_configuration_invalid
  | execution_recording_failed
  | evidence_adapter_config_invalid
  | evidence_path_invalid
  | cli_workspace_invalid
  | cli_workspace_conflict
  | cli_config_invalid
  | cli_executable_not_found
  | cli_path_outside_workspace
  | schema_registry_invalid
  | candidate_schema_invalid
  | rulebook_schema_invalid
  | snapshot_schema_invalid
  | outcome_schema_invalid
  | authorization_schema_invalid
  | receipt_schema_invalid
deriving DecidableEq

/-- The text of a code, as a result or a refused record carries it. -/
def Code.text : Code → String
  | .canonical_form_invalid => "canonical_form_invalid"
  | .float_not_permitted => "float_not_permitted"
  | .surrogate_not_permitted => "surrogate_not_permitted"
  | .source_encoding_invalid => "source_encoding_invalid"
  | .source_syntax_invalid => "source_syntax_invalid"
  | .source_too_deep => "source_too_deep"
  | .source_construct_unsupported => "source_construct_unsupported"
  | .expression_parse_error => "expression_parse_error"
  | .expression_type_error => "expression_type_error"
  | .rulebook_semantic_invalid => "rulebook_semantic_invalid"
  | .undeclared_evidence_id => "undeclared_evidence_id"
  | .rulebook_version_collision => "rulebook_version_collision"
  | .snapshot_item_invalid => "snapshot_item_invalid"
  | .snapshot_item_undeclared => "snapshot_item_undeclared"
  | .snapshot_item_missing => "snapshot_item_missing"
  | .snapshot_rulebook_mismatch => "snapshot_rulebook_mismatch"
  | .snapshot_digest_mismatch => "snapshot_digest_mismatch"
  | .evidence_order_invalid => "evidence_order_invalid"
  | .rulebook_not_adopted => "rulebook_not_adopted"
  | .authorization_outcome_ineligible => "authorization_outcome_ineligible"
  | .authorization_binding_mismatch => "authorization_binding_mismatch"
  | .authorization_not_yet_valid => "authorization_not_yet_valid"
  | .authorization_expired => "authorization_expired"
  | .authorization_nonce_reused => "authorization_nonce_reused"
  | .signature_malformed => "signature_malformed"
  | .signature_invalid => "signature_invalid"
  | .signing_key_unknown => "signing_key_unknown"
  | .signing_key_retired => "signing_key_retired"
  | .signing_key_revoked => "signing_key_revoked"
  | .signing_key_invalid => "signing_key_invalid"
  | .receipt_outcome_ineligible => "receipt_outcome_ineligible"
  | .receipt_binding_mismatch => "receipt_binding_mismatch"
  | .replay_body_missing => "replay_body_missing"
  | .replay_body_mismatch => "replay_body_mismatch"
  | .replay_result_mismatch => "replay_result_mismatch"
  | .store_path_invalid => "store_path_invalid"
  | .store_record_missing => "store_record_missing"
  | .store_record_incomplete => "store_record_incomplete"
  | .store_record_conflict => "store_record_conflict"
  | .store_artifact_noncanonical => "store_artifact_noncanonical"
  | .store_index_invalid => "store_index_invalid"
  | .store_commit_conflict => "store_commit_conflict"
  | .store_consumption_conflict => "store_consumption_conflict"
  | .execution_candidate_unsupported => "execution_candidate_unsupported"
  | .execution_configuration_invalid => "execution_configuration_invalid"
  | .execution_recording_failed => "execution_recording_failed"
  | .evidence_adapter_config_invalid => "evidence_adapter_config_invalid"
  | .evidence_path_invalid => "evidence_path_invalid"
  | .cli_workspace_invalid => "cli_workspace_invalid"
  | .cli_workspace_conflict => "cli_workspace_conflict"
  | .cli_config_invalid => "cli_config_invalid"
  | .cli_executable_not_found => "cli_executable_not_found"
  | .cli_path_outside_workspace => "cli_path_outside_workspace"
  | .schema_registry_invalid => "schema_registry_invalid"
  | .candidate_schema_invalid => "candidate_schema_invalid"
  | .rulebook_schema_invalid => "rulebook_schema_invalid"
  | .snapshot_schema_invalid => "snapshot_schema_invalid"
  | .outcome_schema_invalid => "outcome_schema_invalid"
  | .authorization_schema_invalid => "authorization_schema_invalid"
  | .receipt_schema_invalid => "receipt_schema_invalid"

/-- Where a failure happened, for the failures that say it. -/
inductive Location where
  | none
  | document (instance_path schema_path keyword : Str)
  | expression (offset line column : Nat) (token : Str) (expected : Option Str)
  | stage (name : Str)
deriving DecidableEq

/-- A typed failure: a `VerifyError`. -/
structure Failure where
  code : Code
  message : Str
  location : Location := .none
deriving DecidableEq

/-- An exception that leaves a Python function. -/
inductive Exn where
  | verify (failure : Failure)
  | json_decode_error
  | yaml_error
  | value_error
  | type_error
  | key_error
  | index_error
  | attribute_error
  | assertion_error
  | os_error
  | recursion_error
  | stop_iteration
  | regex_error
  /-- A refusal of the ledger in a hook of its reader, which is a `ValueError`. -/
  | refused (message : Str)
deriving DecidableEq

/-- The failure is a `VerifyError`. -/
def Exn.IsVerify (e : Exn) : Prop := ∃ f, e = .verify f

/-- A typed failure whose message can be written in canonical text. -/
def Exn.Reportable (e : Exn) : Prop := ∃ f, e = .verify f ∧ Encodable f.message

theorem Exn.Reportable.isVerify {e : Exn} (h : e.Reportable) : e.IsVerify :=
  h.imp fun _ hf => hf.1

/-- Raise a typed failure that says no location. -/
def fail (code : Code) (message : Str) : Exn := .verify { code, message }

end vfy
