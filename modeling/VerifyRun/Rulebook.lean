-- Pinned rulebooks: a validated rulebook value becomes one immutable,
-- content-addressed record, whose canonical text is the authority.
import VerifyRun.Schemas
import VerifyRun.Yaml

namespace vfy.rulebook

open python outcomes schema

/-- A pinned rulebook. -/
structure LoadedRulebook where
  canonical : Text
  digest : Str
  rulebook_id : Str
  version : Str
  adopted_at : Str

/-- `canonical_bytes`. -/
def LoadedRulebook.canonical_bytes (loaded : LoadedRulebook) : ByteArray :=
  (String.ofList loaded.canonical).toByteArray

/-- A fresh reconstruction of the rulebook value. -/
def LoadedRulebook.value (loaded : LoadedRulebook) : Except Exn Value :=
  load.load_json_bytes loaded.canonical_bytes

/-- `identity`. -/
def LoadedRulebook.identity (loaded : LoadedRulebook) : Str × Str :=
  (loaded.rulebook_id, loaded.version)

/-- Whether the rulebook governs a run starting at the recorded instant. -/
def rulebook_applies (loaded : LoadedRulebook) (evaluation_instant : Value) : Except Exn Bool := do
  let evaluated ← instant evaluation_instant
  let adopted ← instant (.str loaded.adopted_at)
  pure (evaluated ≥ adopted)

/-- One turn of the loop over the evidence declarations. -/
def check_declaration (declared : List Str) (item : Value) : Except Exn (List Str) := do
  let identifier ← string (← getItem item "id")
  raiseIf (¬ is_identifier identifier) (fail .rulebook_semantic_invalid
    "An evidence id must lex as an identifier so expressions can name it.")
  raiseIf (identifier ∈ declared)
    (fail .rulebook_semantic_invalid "Duplicate evidence id in the rulebook.")
  pure (declared ++ [identifier])

/-- One turn of the loop over the rules. -/
def check_rule (declared seen_rules : List Str) (rule : Value) : Except Exn (List Str) := do
  let identifier ← string (← getItem rule "id")
  raiseIf (identifier ∈ seen_rules)
    (fail .rulebook_semantic_invalid "Duplicate rule id in the rulebook.")
  let needs ← iterate (← getOr rule "requires_evidence" (.list []))
  forM needs fun needed => do
    let needed ← string needed
    raiseIf (needed ∉ declared) (fail .undeclared_evidence_id
      "A rule requires evidence the rulebook does not declare.")
  pure (seen_rules ++ [identifier])

/-- `_check_load_time_semantics`. -/
def check_load_time_semantics (value : Value) : Except Exn Unit := do
  let evidence ← iterate (← getItem value "evidence")
  let declared ← evidence.foldlM check_declaration []
  let rules ← iterate (← getItem value "rules")
  let _ ← rules.foldlM (check_rule declared) []

/-- The steps of `load_rulebook_bytes` after the YAML is loaded. -/
def pin (value : Value) (registry : Registry) : Except Exn LoadedRulebook := do
  schema.validate value RULEBOOK_SCHEMA_ID registry
  check_load_time_semantics value
  let canonical ← canon.canonicalize value
  let digest ← canon.hex_digest_of_text (ofText canonical)
  let rulebook_id ← string (← getItem value "rulebook_id")
  let version ← string (← getItem value "version")
  let adopted_at ← string (← getItem value "adopted_at")
  pure { canonical, digest := lit "sha256:" ++ ofText digest, rulebook_id, version, adopted_at }

/-- Return the pinned rulebook the YAML source bytes denote. -/
def load_rulebook_bytes (yaml : load.Yaml) (data : ByteArray) (registry : Registry) :
    Except Exn LoadedRulebook := do
  let value ← load.load_yaml_bytes yaml data
  pin value registry

end vfy.rulebook
