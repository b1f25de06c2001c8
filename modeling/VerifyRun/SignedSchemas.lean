-- What the authorization and the receipt documents accept, with the
-- references that lead from one document to another.
import VerifyRun.Schemas

namespace vfy.schema

open python keys outcomes

/-! ## References that leave the document -/

theorem partition_append {a b : Str} {c : CodePoint} (h : c ∉ a) :
    partition (a ++ c :: b) c = (a, b) := by
  have hne : ∀ d ∈ a, (decide (d ≠ c)) = true := fun d hd => by
    simpa using fun heq : d = c => h (heq ▸ hd)
  unfold partition
  rw [List.takeWhile_append_of_pos hne, List.dropWhile_append_of_pos hne]
  simp

theorem partition_of_not_mem {a : Str} {c : CodePoint} (h : c ∉ a) : partition a c = (a, []) := by
  have hne : ∀ d ∈ a, (decide (d ≠ c)) = true := fun d hd => by
    simpa using fun heq : d = c => h (heq ▸ hd)
  unfold partition
  rw [List.takeWhile_eq_self_iff.mpr hne, List.dropWhile_eq_nil_iff.mpr hne]
  rfl

/-- A reference to a whole document. -/
theorem resolve_document {id identifier : Str} {registry : Registry} {document : Value}
    (hid : id ≠ []) (hfree : .scalar '#' ∉ id) (h : registry.lookup id = some document) :
    resolve (.str id) identifier registry = .ok (document, id) := by
  simp [resolve, hid, partition_of_not_mem hfree, h, pure, Except.pure]

/-- A reference to a node of another document. -/
theorem resolve_fragment {id steps identifier : Str} {registry : Registry} {document node : Value}
    (hid : id ≠ []) (hfree : .scalar '#' ∉ id) (h : registry.lookup id = some document)
    (hsteps : ∀ reference,
      (split (.scalar '/') steps).foldlM (resolve_step reference) document = .ok node) :
    resolve (.str (id ++ .scalar '#' :: .scalar '/' :: steps)) identifier registry =
      .ok (node, id) := by
  simp [resolve, hid, partition_append hfree, h, hsteps, pure, Except.pure]

theorem resolve_steps_sig (reference : Str) :
    (split (.scalar '/') (lit "$defs/sig")).foldlM (resolve_step reference) AUTHORIZATION_SCHEMA =
      .ok SIGNATURE := rfl

theorem authorization_schema_id_plain : AUTHORIZATION_SCHEMA_ID ≠ [] ∧
    CodePoint.scalar '#' ∉ AUTHORIZATION_SCHEMA_ID := by decide +kernel

theorem outcome_schema_id_plain : OUTCOME_SCHEMA_ID ≠ [] ∧
    CodePoint.scalar '#' ∉ OUTCOME_SCHEMA_ID := by decide +kernel

theorem lookup_authorization_schema :
    REGISTRY.lookup AUTHORIZATION_SCHEMA_ID = some AUTHORIZATION_SCHEMA := by
  simp [REGISTRY]

theorem lookup_outcome_schema : REGISTRY.lookup OUTCOME_SCHEMA_ID = some OUTCOME_SCHEMA := by
  simp [REGISTRY, SNAPSHOT_SCHEMA_ID, AUTHORIZATION_SCHEMA_ID, CANDIDATE_SCHEMA_ID,
    OUTCOME_SCHEMA_ID]

theorem lookup_receipt_schema : REGISTRY.lookup RECEIPT_SCHEMA_ID = some RECEIPT_SCHEMA := by
  simp [REGISTRY, SNAPSHOT_SCHEMA_ID, AUTHORIZATION_SCHEMA_ID, CANDIDATE_SCHEMA_ID,
    OUTCOME_SCHEMA_ID, RECEIPT_SCHEMA_ID]

/-- The reference of an authorization to its own signature schema. -/
theorem resolve_own_sig : resolve (.str "#/$defs/sig") AUTHORIZATION_SCHEMA_ID REGISTRY =
    .ok (SIGNATURE, AUTHORIZATION_SCHEMA_ID) := by
  have href : lit "#/$defs/sig" = .scalar '#' :: .scalar '/' :: lit "$defs/sig" := rfl
  have hpart : partition (.scalar '#' :: .scalar '/' :: lit "$defs/sig") (.scalar '#') =
      ([], .scalar '/' :: lit "$defs/sig") := @partition_append [] _ _ (List.not_mem_nil)
  rw [resolve, href, if_neg (List.cons_ne_nil _ _), hpart]
  dsimp only
  rw [if_pos rfl, lookup_authorization_schema]
  simp only [ne_eq, not_true_eq_false, if_false, resolve_steps_sig, ok_bind]
  rfl

/-- The reference of a receipt to the signature schema of authorizations. -/
theorem resolve_sig :
    resolve (.str "https://verifyrun.com/spec/v1/authorization.schema.json#/$defs/sig")
      RECEIPT_SCHEMA_ID REGISTRY = .ok (SIGNATURE, AUTHORIZATION_SCHEMA_ID) := by
  have href : lit "https://verifyrun.com/spec/v1/authorization.schema.json#/$defs/sig" =
      AUTHORIZATION_SCHEMA_ID ++ .scalar '#' :: .scalar '/' :: lit "$defs/sig" := by decide +kernel
  rw [href]
  exact resolve_fragment authorization_schema_id_plain.1 authorization_schema_id_plain.2
    lookup_authorization_schema resolve_steps_sig

theorem resolve_outcome : resolve (.str "https://verifyrun.com/spec/v1/outcome.schema.json")
    RECEIPT_SCHEMA_ID REGISTRY = .ok (OUTCOME_SCHEMA, OUTCOME_SCHEMA_ID) :=
  resolve_document outcome_schema_id_plain.1 outcome_schema_id_plain.2 lookup_outcome_schema

/-! ## What the documents accept -/

/-- A text of at least so many characters. -/
def IsLongText (least : Int) (v : Value) : Prop := ∃ s : Str, v = .str s ∧ least ≤ s.length

def IsInteger (v : Value) : Prop := ∃ i, v = .int i

def signatureFields : List Field :=
  [("alg", exactly "ed25519", fun v => v = .str "ed25519"), ("key_id", TEXT, IsText),
   ("key_version", naturals 1, IsNatural 1), ("value", TEXT, IsText)]

/-- A signature block that the schema accepts. -/
def IsSignature : Value → Prop :=
  ClosedObject ["alg", "key_id", "key_version", "value"] signatureFields

def authorizationFields : List Field :=
  [("authorization_id", TEXT, IsText),
   ("nonce", .dict [("type", .str "string"), ("minLength", .int 16)], IsLongText 16),
   ("issued_at", DATE, IsDate), ("expires_at", DATE, IsDate), ("runtime_id", TEXT, IsText),
   ("action_digest", DIGEST, IsDigest), ("rulebook_digest", DIGEST, IsDigest),
   ("evidence_digest", DIGEST, IsDigest),
   ("signature", .dict [("$ref", .str "#/$defs/sig")], IsSignature)]

def AUTHORIZATION_REQUIRED : List String :=
  ["authorization_id", "nonce", "issued_at", "expires_at", "runtime_id", "action_digest",
    "rulebook_digest", "evidence_digest", "signature"]

/-- An authorization that the schema accepts. -/
def IsAuthorization : Value → Prop := ClosedObject AUTHORIZATION_REQUIRED authorizationFields

def recordedRulebookFields : List Field :=
  [("rulebook_id", TEXT, IsText), ("version", TEXT, IsText), ("digest", DIGEST, IsDigest)]

def executionFields : List Field :=
  [("acknowledged", .dict [("type", .str "boolean")], IsBoolean), ("acknowledged_at", DATE, IsDate),
   ("exit_status", .dict [("type", .str "integer")], IsInteger), ("note", TEXT, IsText)]

def replayFields : List Field :=
  [("mode", exactly "recompute-decision", fun v => v = .str "recompute-decision")]

def receiptFields : List Field :=
  [("receipt_id", TEXT, IsText), ("spec_version", exactly "1", fun v => v = .str "1"),
   ("created_at", DATE, IsDate),
   ("rulebook", closed ["rulebook_id", "version", "digest"]
      (recordedRulebookFields.map fun f => (lit f.1, f.2.1)),
    ClosedObject ["rulebook_id", "version", "digest"] recordedRulebookFields),
   ("candidate_digest", DIGEST, IsDigest), ("evidence_digest", DIGEST, IsDigest),
   ("result", .dict [("$ref", .str "https://verifyrun.com/spec/v1/outcome.schema.json")],
    IsOutcome),
   ("authorization_id", TEXT, IsText),
   ("execution", .dict [("type", .str "object"), ("additionalProperties", .bool false),
      ("properties", .dict (executionFields.map fun f => (lit f.1, f.2.1)))],
    ClosedObject [] executionFields),
   ("replay", closed ["mode"] (replayFields.map fun f => (lit f.1, f.2.1)),
    ClosedObject ["mode"] replayFields),
   ("signature", .dict
      [("$ref", .str "https://verifyrun.com/spec/v1/authorization.schema.json#/$defs/sig")],
    IsSignature)]

def RECEIPT_REQUIRED : List String :=
  ["receipt_id", "spec_version", "created_at", "rulebook", "candidate_digest", "evidence_digest",
    "result", "replay", "signature"]

/-- A receipt that the schema accepts. -/
def IsReceipt : Value → Prop := ClosedObject RECEIPT_REQUIRED receiptFields

section Documents

variable {registry : Registry} {code : Code} {identifier : Str} {frames depth : Nat}

theorem accepts_long_text (hd : depth ≤ 64) (least : Int) :
    Accepts registry code identifier (frames + 1) depth
      (.dict [("type", .str "string"), ("minLength", .int least)]) (IsLongText least) := by
  intro v ip sp
  rw [validate_keywords rfl hd]
  cases v <;> simp [check_node, check_type, validate_object, check_enum, check_const, check_array,
    check_string, check_integer, check_least, check_pattern, check_format, type_of, number,
    IsLongText]

theorem accepts_plain_boolean (hd : depth ≤ 64) :
    Accepts registry code identifier (frames + 1) depth (.dict [("type", .str "boolean")])
      IsBoolean := by
  intro v ip sp
  rw [validate_keywords rfl hd]
  cases v <;> simp [check_node, check_type, validate_object, check_enum, check_const, check_array,
    check_string, check_integer, check_least, check_pattern, check_format, type_of, IsBoolean]

theorem accepts_plain_integer (hd : depth ≤ 64) :
    Accepts registry code identifier (frames + 1) depth (.dict [("type", .str "integer")])
      IsInteger := by
  intro v ip sp
  rw [validate_keywords rfl hd]
  cases v <;> simp [check_node, check_type, validate_object, check_enum, check_const, check_array,
    check_string, check_integer, check_least, check_pattern, check_format, type_of, IsInteger]

theorem accepts_signature (hd : depth ≤ 63) :
    Accepts registry code identifier (frames + 2) depth SIGNATURE IsSignature := by
  show Accepts _ _ _ _ _ (closed _ (signatureFields.map fun f => (lit f.1, f.2.1))) _
  refine accepts_closed (by omega) (by decide) fun f hf => ?_
  simp only [signatureFields, List.mem_cons, List.not_mem_nil, or_false] at hf
  rcases hf with rfl | rfl | rfl | rfl
  · exact accepts_exactly (by omega) _
  · exact accepts_text (by omega)
  · exact accepts_naturals (by omega) 1
  · exact accepts_text (by omega)

theorem accepts_execution (hd : depth ≤ 63) :
    Accepts registry code identifier (frames + 2) depth
      (.dict [("type", .str "object"), ("additionalProperties", .bool false),
        ("properties", .dict (executionFields.map fun f => (lit f.1, f.2.1)))])
      (ClosedObject [] executionFields) := by
  refine ClosedNode.accepts (by omega) ⟨rfl, rfl, Or.inr ⟨rfl, rfl⟩, rfl, rfl, rfl, rfl, by decide⟩
    fun f hf => ?_
  simp only [executionFields, List.mem_cons, List.not_mem_nil, or_false] at hf
  rcases hf with rfl | rfl | rfl | rfl
  · exact accepts_plain_boolean (by omega)
  · exact accepts_date (by omega)
  · exact accepts_plain_integer (by omega)
  · exact accepts_text (by omega)

theorem accepts_recorded_rulebook (hd : depth ≤ 63) :
    Accepts registry code identifier (frames + 2) depth
      (closed ["rulebook_id", "version", "digest"]
        (recordedRulebookFields.map fun f => (lit f.1, f.2.1)))
      (ClosedObject ["rulebook_id", "version", "digest"] recordedRulebookFields) := by
  refine accepts_closed (by omega) (by decide) fun f hf => ?_
  simp only [recordedRulebookFields, List.mem_cons, List.not_mem_nil, or_false] at hf
  rcases hf with rfl | rfl | rfl
  · exact accepts_text (by omega)
  · exact accepts_text (by omega)
  · exact accepts_pattern (by omega) _

theorem accepts_replay (hd : depth ≤ 63) :
    Accepts registry code identifier (frames + 2) depth
      (closed ["mode"] (replayFields.map fun f => (lit f.1, f.2.1)))
      (ClosedObject ["mode"] replayFields) := by
  refine accepts_closed (by omega) (by decide) fun f hf => ?_
  simp only [replayFields, List.mem_cons, List.not_mem_nil, or_false] at hf
  subst hf
  exact accepts_exactly (by omega) _

theorem accepts_authorization : Accepts REGISTRY code AUTHORIZATION_SCHEMA_ID (frames + 4) 0
    AUTHORIZATION_SCHEMA IsAuthorization := by
  refine ClosedNode.accepts (by omega) ⟨rfl, rfl, Or.inl rfl, rfl, rfl, rfl, rfl, by decide⟩
    fun f hf => ?_
  simp only [authorizationFields, List.mem_cons, List.not_mem_nil, or_false] at hf
  rcases hf with rfl | rfl | rfl | rfl | rfl | rfl | rfl | rfl | rfl
  · exact accepts_text (by omega)
  · exact accepts_long_text (by omega) 16
  · exact accepts_date (by omega)
  · exact accepts_date (by omega)
  · exact accepts_text (by omega)
  · exact accepts_pattern (by omega) _
  · exact accepts_pattern (by omega) _
  · exact accepts_pattern (by omega) _
  · exact accepts_ref (by omega) resolve_own_sig (accepts_signature (by omega))

theorem accepts_receipt : Accepts REGISTRY code RECEIPT_SCHEMA_ID (frames + 6) 0
    RECEIPT_SCHEMA IsReceipt := by
  show Accepts _ _ _ _ _ (closed _ (receiptFields.map fun f => (lit f.1, f.2.1))) _
  refine accepts_closed (by omega) (by decide) fun f hf => ?_
  simp only [receiptFields, List.mem_cons, List.not_mem_nil, or_false] at hf
  rcases hf with rfl | rfl | rfl | rfl | rfl | rfl | rfl | rfl | rfl | rfl | rfl
  · exact accepts_text (by omega)
  · exact accepts_exactly (by omega) _
  · exact accepts_date (by omega)
  · exact accepts_recorded_rulebook (by omega)
  · exact accepts_pattern (by omega) _
  · exact accepts_pattern (by omega) _
  · exact accepts_ref (by omega) resolve_outcome (accepts_outcome (by omega))
  · exact accepts_text (by omega)
  · exact accepts_execution (by omega)
  · exact accepts_replay (by omega)
  · exact accepts_ref (by omega) resolve_sig (accepts_signature (by omega))

end Documents

/-- An authorization is valid when the schema accepts it, member by member. -/
theorem validate_authorization_iff (v : Value) :
    validate v AUTHORIZATION_SCHEMA_ID REGISTRY = .ok () ↔ IsAuthorization v := by
  rw [@validate_eq _ _ AUTHORIZATION_SCHEMA .authorization_schema_invalid
    lookup_authorization_schema (by simp [CODE_BY_ID, AUTHORIZATION_SCHEMA_ID])]
  have hframes : FRAMES = 996 + 4 := rfl
  rw [hframes]
  exact accepts_authorization v _ _

/-- A receipt is valid when the schema accepts it, member by member. -/
theorem validate_receipt_iff (v : Value) :
    validate v RECEIPT_SCHEMA_ID REGISTRY = .ok () ↔ IsReceipt v := by
  rw [@validate_eq _ _ RECEIPT_SCHEMA .receipt_schema_invalid
    lookup_receipt_schema (by simp [CODE_BY_ID, RECEIPT_SCHEMA_ID])]
  have hframes : FRAMES = 994 + 6 := rfl
  rw [hframes]
  exact accepts_receipt v _ _

end vfy.schema
