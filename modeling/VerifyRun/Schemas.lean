-- The six schemas of the program, and what each of them accepts. A schema is
-- read once here: every later proof uses the shapes of the second half.
import VerifyRun.Schema

namespace vfy.schema

open python keys outcomes

/-! ## The documents -/

def DIGEST : Value := .dict [("type", .str "string"), ("pattern", .str "^sha256:[a-f0-9]{64}$")]

def TEXT : Value := .dict [("type", .str "string")]

def DATE : Value := .dict [("type", .str "string"), ("format", .str "date-time")]

def TEXTS : Value := .dict [("type", .str "array"), ("items", TEXT)]

/-- One of these strings. -/
def oneOf (options : List String) : Value :=
  .dict [("type", .str "string"), ("enum", .list (options.map fun o => .str (lit o)))]

/-- This string. -/
def exactly (option : String) : Value := .dict [("type", .str "string"), ("const", .str option)]

def naturals (least : Int) : Value := .dict [("type", .str "integer"), ("minimum", .int least)]

def names (ns : List String) : Value := .list (ns.map fun n => .str (lit n))

/-- An object with these members and no others. -/
def closed (required : List String) (properties : List (Str × Value)) : Value :=
  .dict [("type", .str "object"), ("required", names required),
    ("additionalProperties", .bool false), ("properties", .dict properties)]

def CANDIDATE_SCHEMA_ID : Str := "https://verifyrun.com/spec/v1/candidate.schema.json"
def RULEBOOK_SCHEMA_ID : Str := "https://verifyrun.com/spec/v1/rulebook.schema.json"
def SNAPSHOT_SCHEMA_ID : Str := "https://verifyrun.com/spec/v1/evidence.schema.json"
def OUTCOME_SCHEMA_ID : Str := "https://verifyrun.com/spec/v1/outcome.schema.json"
def AUTHORIZATION_SCHEMA_ID : Str := "https://verifyrun.com/spec/v1/authorization.schema.json"
def RECEIPT_SCHEMA_ID : Str := "https://verifyrun.com/spec/v1/receipt.schema.json"

/-- `spec/candidate.schema.json`. -/
def CANDIDATE_SCHEMA : Value :=
  closed ["candidate_id", "kind", "action"]
    [("candidate_id", TEXT),
     ("kind", oneOf ["command", "tool_call", "http_request", "custom"]),
     ("action", .dict [("type", .str "object"), ("required", names ["summary"]),
        ("properties", .dict
          [("summary", TEXT), ("argv", TEXTS), ("tool", TEXT),
           ("params", .dict [("type", .str "object")]), ("targets", TEXTS)])]),
     ("identity", .dict [("type", .str "object"), ("additionalProperties", TEXT)]),
     ("proposed_by", TEXT)]

def EVIDENCE_DECLARATION : Value :=
  closed ["id", "source"]
    [("id", TEXT), ("source", oneOf ["file", "exec", "http", "inline"]), ("ref", TEXT),
     ("max_age_seconds", naturals 0),
     ("required", .dict [("type", .str "boolean"), ("default", .bool true)])]

def RULE : Value :=
  closed ["id", "when", "outcome", "reason"]
    [("id", TEXT), ("when", TEXT), ("outcome", oneOf ["ALLOW", "BLOCK", "HOLD"]),
     ("reason", TEXT), ("requires_evidence", TEXTS)]

/-- `spec/rulebook.schema.json`. -/
def RULEBOOK_SCHEMA : Value :=
  closed ["rulebook_id", "version", "adopted_at", "evidence", "rules", "default_outcome"]
    [("rulebook_id", .dict [("type", .str "string"), ("pattern", .str "^[a-z0-9][a-z0-9-]{1,63}$")]),
     ("version", .dict [("type", .str "string"), ("pattern", .str "^[0-9]+\\.[0-9]+\\.[0-9]+$")]),
     ("adopted_at", DATE), ("description", TEXT), ("track", TEXTS),
     ("evidence", .dict
        [("type", .str "array"), ("minItems", .int 0), ("items", EVIDENCE_DECLARATION)]),
     ("rules", .dict [("type", .str "array"), ("minItems", .int 1), ("items", RULE)]),
     ("default_outcome", oneOf ["BLOCK", "HOLD"]),
     ("authorization", .dict [("type", .str "object"), ("additionalProperties", .bool false),
        ("properties", .dict
          [("ttl_seconds", .dict
              [("type", .str "integer"), ("minimum", .int 1), ("default", .int 300)]),
           ("single_use", .dict [("type", .str "boolean"), ("const", .bool true)])])])]

def ITEM : Value :=
  closed ["id", "order", "acquired_at", "status"]
    [("id", TEXT), ("order", naturals 0), ("acquired_at", DATE),
     ("status", oneOf ["ok", "missing", "stale", "error"]), ("value", .dict []),
     ("value_digest", DIGEST)]

/-- `spec/evidence.schema.json`. -/
def SNAPSHOT_SCHEMA : Value :=
  closed ["snapshot_id", "rulebook_digest", "frozen_at", "items", "snapshot_digest"]
    [("snapshot_id", TEXT), ("rulebook_digest", DIGEST), ("frozen_at", DATE),
     ("items", .dict [("type", .str "array"), ("items", ITEM)]),
     ("snapshot_digest", DIGEST)]

def REASON : Value :=
  closed ["code", "message"]
    [("code", TEXT), ("rule_id", TEXT), ("evidence_id", TEXT), ("message", TEXT)]

/-- `spec/outcome.schema.json`. -/
def OUTCOME_SCHEMA : Value :=
  closed ["outcome", "reasons"]
    [("outcome", oneOf ["ALLOW", "BLOCK", "HOLD", "ERROR"]),
     ("reasons", .dict [("type", .str "array"), ("minItems", .int 1), ("items", REASON)]),
     ("matched_rule", TEXT), ("trace", TEXTS)]

def SIGNATURE : Value :=
  closed ["alg", "key_id", "key_version", "value"]
    [("alg", exactly "ed25519"), ("key_id", TEXT), ("key_version", naturals 1), ("value", TEXT)]

/-- `spec/authorization.schema.json`. -/
def AUTHORIZATION_SCHEMA : Value :=
  .dict [("type", .str "object"),
    ("required", names ["authorization_id", "nonce", "issued_at", "expires_at", "runtime_id",
      "action_digest", "rulebook_digest", "evidence_digest", "signature"]),
    ("additionalProperties", .bool false),
    ("properties", .dict
      [("authorization_id", TEXT),
       ("nonce", .dict [("type", .str "string"), ("minLength", .int 16)]),
       ("issued_at", DATE), ("expires_at", DATE), ("runtime_id", TEXT),
       ("action_digest", DIGEST), ("rulebook_digest", DIGEST), ("evidence_digest", DIGEST),
       ("signature", .dict [("$ref", .str "#/$defs/sig")])]),
    ("$defs", .dict [("sig", SIGNATURE)])]

/-- `spec/receipt.schema.json`. -/
def RECEIPT_SCHEMA : Value :=
  closed ["receipt_id", "spec_version", "created_at", "rulebook", "candidate_digest",
      "evidence_digest", "result", "replay", "signature"]
    [("receipt_id", TEXT), ("spec_version", exactly "1"), ("created_at", DATE),
     ("rulebook", closed ["rulebook_id", "version", "digest"]
        [("rulebook_id", TEXT), ("version", TEXT), ("digest", DIGEST)]),
     ("candidate_digest", DIGEST), ("evidence_digest", DIGEST),
     ("result", .dict [("$ref", .str "https://verifyrun.com/spec/v1/outcome.schema.json")]),
     ("authorization_id", TEXT),
     ("execution", .dict [("type", .str "object"), ("additionalProperties", .bool false),
        ("properties", .dict
          [("acknowledged", .dict [("type", .str "boolean")]), ("acknowledged_at", DATE),
           ("exit_status", .dict [("type", .str "integer")]), ("note", TEXT)])]),
     ("replay", closed ["mode"] [("mode", exactly "recompute-decision")]),
     ("signature", .dict
        [("$ref", .str "https://verifyrun.com/spec/v1/authorization.schema.json#/$defs/sig")])]

/-- The registry of the six documents. -/
def REGISTRY : Registry :=
  [(AUTHORIZATION_SCHEMA_ID, AUTHORIZATION_SCHEMA), (CANDIDATE_SCHEMA_ID, CANDIDATE_SCHEMA),
   (SNAPSHOT_SCHEMA_ID, SNAPSHOT_SCHEMA), (OUTCOME_SCHEMA_ID, OUTCOME_SCHEMA),
   (RECEIPT_SCHEMA_ID, RECEIPT_SCHEMA), (RULEBOOK_SCHEMA_ID, RULEBOOK_SCHEMA)]

/-! ## What a node accepts -/

/-- The node accepts exactly these values, wherever it is. -/
def Accepts (registry : Registry) (code : Code) (identifier : Str) (frames depth : Nat)
    (schema : Value) (P : Value → Prop) : Prop :=
  ∀ v ip sp, validate_node registry code identifier frames v schema ip sp depth = .ok () ↔ P v

section Accepts

variable {registry : Registry} {code : Code} {identifier : Str} {frames depth : Nat}

/-- A node that is no reference accepts what its keywords accept. -/
theorem validate_keywords {schema : List (Str × Value)} (hr : schema.lookup (lit "$ref") = none)
    (hd : depth ≤ 64) (v : Value) (ip sp : Str) :
    validate_node registry code identifier (frames + 1) v (.dict schema) ip sp depth =
      check_node ⟨code, ip, sp⟩ (fun value schema instance_path schema_path =>
        validate_node registry code identifier frames value schema instance_path schema_path
          (depth + 1)) v (.dict schema) := by
  have hm : ¬ depth > MAX_DEPTH := by unfold MAX_DEPTH; omega
  rw [validate_node]
  simp only [raiseIf_neg hm, refOf, hr, ok_bind]

/-- A node with no keyword accepts every value. -/
theorem accepts_any (hd : depth ≤ 64) :
    Accepts registry code identifier (frames + 1) depth (.dict []) fun _ => True := by
  intro v ip sp
  rw [validate_keywords rfl hd]
  cases v <;> simp [check_node, check_type, validate_object, isDeclared, check_required,
    check_declared, check_undeclared, check_enum, check_const, check_array, check_string,
    check_integer, check_least, check_pattern, check_format, iterate, forM_eq_ok]

theorem accepts_text (hd : depth ≤ 64) :
    Accepts registry code identifier (frames + 1) depth TEXT fun v => ∃ s, v = .str s := by
  intro v ip sp
  rw [TEXT, validate_keywords rfl hd]
  cases v <;> simp [check_node, check_type, validate_object, check_enum, check_const, check_array,
    check_string, check_integer, check_least, check_pattern, check_format, type_of]

theorem accepts_date (hd : depth ≤ 64) :
    Accepts registry code identifier (frames + 1) depth DATE fun v =>
      ∃ s, v = .str s ∧ is_date_time s = true := by
  intro v ip sp
  rw [DATE, validate_keywords rfl hd]
  cases v <;> simp [check_node, check_type, validate_object, check_enum, check_const, check_array,
    check_string, check_integer, check_least, check_pattern, check_format, type_of]

theorem accepts_pattern (hd : depth ≤ 64) (pattern : Str) :
    Accepts registry code identifier (frames + 1) depth
      (.dict [("type", .str "string"), ("pattern", .str pattern)]) fun v =>
        ∃ s, v = .str s ∧ re.fullmatch pattern s = some true := by
  intro v ip sp
  rw [validate_keywords rfl hd]
  cases v <;> simp [check_node, check_type, validate_object, check_enum, check_const, check_array,
    check_string, check_integer, check_least, check_pattern, check_format, type_of, string]
  split <;> simp [*]

theorem equal_str (v : Value) (s : Str) : equal v (.str s) = true ↔ v = .str s := by
  cases v <;> simp [equal, eqBy, eqExact]

theorem accepts_oneOf (hd : depth ≤ 64) (options : List String) :
    Accepts registry code identifier (frames + 1) depth (oneOf options) fun v =>
      ∃ o ∈ options, v = .str o := by
  intro v ip sp
  rw [oneOf, validate_keywords rfl hd]
  cases v <;> simp [check_node, check_type, validate_object, check_enum, check_const, check_array,
    check_string, check_integer, check_least, check_pattern, check_format, type_of, iterate, equal_str]

theorem accepts_boolean (hd : depth ≤ 64) (default : Bool) :
    Accepts registry code identifier (frames + 1) depth
      (.dict [("type", .str "boolean"), ("default", .bool default)]) fun v => ∃ b, v = .bool b := by
  intro v ip sp
  rw [validate_keywords rfl hd]
  cases v <;> simp [check_node, check_type, validate_object, check_enum, check_const, check_array,
    check_string, check_integer, check_least, check_pattern, check_format, type_of]

theorem accepts_constant (hd : depth ≤ 64) (constant : Bool) :
    Accepts registry code identifier (frames + 1) depth
      (.dict [("type", .str "boolean"), ("const", .bool constant)]) fun v =>
        v = .bool constant := by
  intro v ip sp
  rw [validate_keywords rfl hd]
  cases v <;> simp [check_node, check_type, validate_object, check_enum, check_const, check_array,
    check_string, check_integer, check_least, check_pattern, check_format, type_of, equal, eqBy, eqExact]

theorem accepts_default_naturals (hd : depth ≤ 64) (least default : Int) :
    Accepts registry code identifier (frames + 1) depth
      (.dict [("type", .str "integer"), ("minimum", .int least), ("default", .int default)]) fun v =>
        ∃ i, v = .int i ∧ least ≤ i := by
  intro v ip sp
  rw [validate_keywords rfl hd]
  cases v <;> simp [check_node, check_type, validate_object, check_enum, check_const, check_array,
    check_string, check_integer, check_least, check_pattern, check_format, type_of, number]

theorem accepts_exactly (hd : depth ≤ 64) (option : String) :
    Accepts registry code identifier (frames + 1) depth (exactly option) fun v =>
      v = .str option := by
  intro v ip sp
  rw [exactly, validate_keywords rfl hd]
  cases v <;> simp [check_node, check_type, validate_object, check_enum, check_const, check_array,
    check_string, check_integer, check_least, check_pattern, check_format, type_of, equal_str]

theorem accepts_naturals (hd : depth ≤ 64) (least : Int) :
    Accepts registry code identifier (frames + 1) depth (naturals least) fun v =>
      ∃ i, v = .int i ∧ least ≤ i := by
  intro v ip sp
  rw [naturals, validate_keywords rfl hd]
  cases v <;> simp [check_node, check_type, validate_object, check_enum, check_const, check_array,
    check_string, check_integer, check_least, check_pattern, check_format, type_of, number]

theorem forall_zipIdx {P : Value → Prop} {items : List Value} :
    (∀ (x : Value) (i : Nat), (x, i) ∈ items.zipIdx → P x) ↔ ∀ x ∈ items, P x := by
  constructor
  · intro h x hx
    obtain ⟨i, hi, rfl⟩ := List.mem_iff_getElem.mp hx
    exact h _ i (List.mk_mem_zipIdx_iff_getElem?.mpr (List.getElem?_eq_getElem hi))
  · intro h x i hi
    exact h x (List.fst_mem_of_mem_zipIdx hi)

theorem accepts_array (hd : depth ≤ 64) {item : List (Str × Value)} {P : Value → Prop}
    (hi : Accepts registry code identifier frames (depth + 1) (.dict item) P) :
    Accepts registry code identifier (frames + 1) depth
      (.dict [("type", .str "array"), ("items", .dict item)]) fun v =>
        ∃ items, v = .list items ∧ ∀ x ∈ items, P x := by
  intro v ip sp
  rw [validate_keywords rfl hd]
  cases v <;> simp [check_node, check_type, validate_object, check_enum, check_const, check_array,
    check_string, check_integer, check_least, type_of, forM_eq_ok, hi _ _ _,
    forall_zipIdx]

theorem accepts_least_array (hd : depth ≤ 64) (least : Int) {item : List (Str × Value)}
    {P : Value → Prop}
    (hi : Accepts registry code identifier frames (depth + 1) (.dict item) P) :
    Accepts registry code identifier (frames + 1) depth
      (.dict [("type", .str "array"), ("minItems", .int least), ("items", .dict item)]) fun v =>
        ∃ items, v = .list items ∧ least ≤ items.length ∧ ∀ x ∈ items, P x := by
  intro v ip sp
  rw [validate_keywords rfl hd]
  cases v <;> simp [check_node, check_type, validate_object, check_enum, check_const, check_array,
    check_string, check_integer, check_least, type_of, forM_eq_ok, hi _ _ _,
    forall_zipIdx, number, seq_eq_ok]

/-! ## Objects with no undeclared members -/

/-- A declared member: its name, its schema and the values that the schema accepts. -/
abbrev Field := String × Value × (Value → Prop)

/-- The value is a mapping with the required members, and each of its members
is declared and accepted. -/
def ClosedObject (required : List String) (fields : List Field) (v : Value) : Prop :=
  ∃ members, v = .dict members ∧
    (∀ r ∈ required, ∃ w, members.lookup (lit r) = some w) ∧
    ∀ m ∈ members, ∃ f ∈ fields, m.1 = lit f.1 ∧ f.2.2 m.2

theorem lookup_fields {fields : List Field} (hn : (fields.map Prod.fst).Nodup) {f : Field}
    (hf : f ∈ fields) :
    (fields.map fun f => (lit f.1, f.2.1)).lookup (lit f.1) = some f.2.1 := by
  rw [lookup_eq_some_iff]
  · exact List.mem_map.mpr ⟨f, hf, rfl⟩
  · unfold Distinct
    rw [List.map_map]
    have hmap : (Prod.fst ∘ fun f : Field => (lit f.1, f.2.1)) = lit ∘ Prod.fst := rfl
    rw [hmap, ← List.map_map]
    exact hn.map fun a b h => lit_inj.mp h

theorem exists_field {fields : List Field} {k : Str} {s : Value}
    (h : (fields.map fun f => (lit f.1, f.2.1)).lookup k = some s) :
    ∃ f ∈ fields, k = lit f.1 ∧ s = f.2.1 := by
  obtain ⟨f, hf, he⟩ := List.mem_map.mp (mem_of_lookup h)
  cases he
  exact ⟨f, hf, rfl, rfl⟩

/-- The keywords of a schema node that closes an object. -/
structure ClosedNode (schema : List (Str × Value)) (required : List String)
    (fields : List Field) : Prop where
  noRef : schema.lookup (lit "$ref") = none
  type : schema.lookup (lit "type") = some (.str "object")
  required : schema.lookup (lit "required") = some (names required) ∨
    (schema.lookup (lit "required") = none ∧ required = [])
  additional : schema.lookup (lit "additionalProperties") = some (.bool false)
  properties : schema.lookup (lit "properties") =
    some (.dict (fields.map fun f => (lit f.1, f.2.1)))
  noEnum : schema.lookup (lit "enum") = none
  noConst : schema.lookup (lit "const") = none
  distinct : (fields.map Prod.fst).Nodup

theorem ClosedNode.iterate_required {schema : List (Str × Value)} {required : List String}
    {fields : List Field} (h : ClosedNode schema required fields) :
    iterate (((Value.dict schema).get? "required").getD (.list [])) =
      .ok (required.map fun r => .str (lit r)) := by
  rw [Value.get?_dict]
  rcases h.required with hr | ⟨hr, rfl⟩
  · rw [hr]
    rfl
  · rw [hr]
    rfl

theorem not_isNone_iff {α : Type} {o : Option α} : ¬ o.isNone = true ↔ ∃ a, o = some a := by
  cases o <;> simp

theorem ClosedNode.accepts (hd : depth ≤ 64) {schema : List (Str × Value)}
    {required : List String} {fields : List Field} (h : ClosedNode schema required fields)
    (hf : ∀ f ∈ fields, Accepts registry code identifier frames (depth + 1) f.2.1 f.2.2) :
    Accepts registry code identifier (frames + 1) depth (.dict schema)
      (ClosedObject required fields) := by
  intro v ip sp
  rw [validate_keywords h.noRef hd]
  have htype : check_type ⟨code, ip, sp⟩ v (.dict schema) = .ok () ↔ type_of v = lit "object" := by
    simp only [check_type, Value.get?_dict, h.type, raiseIf_eq_ok, ne_eq, Decidable.not_not]
  have henum : check_enum ⟨code, ip, sp⟩ v (.dict schema) = .ok () := by
    simp only [check_enum, Value.get?_dict, h.noEnum, pure_eq_ok]
  have hconst : check_const ⟨code, ip, sp⟩ v (.dict schema) = .ok () := by
    simp only [check_const, Value.get?_dict, h.noConst, pure_eq_ok]
  simp only [check_node, seq_eq_ok, htype, henum, hconst, true_and]
  cases v with
  | dict members =>
    have hprops : propertiesOf (.dict schema) = some (fields.map fun f => (lit f.1, f.2.1)) := by
      simp only [propertiesOf, Value.get?_dict, h.properties]
    have hund : (Value.dict schema).get? "additionalProperties" = some (.bool false) := by
      rw [Value.get?_dict, h.additional]
    simp only [validate_object, ok_bind, seq_eq_ok, check_required, h.iterate_required,
      check_declared_eq hprops, check_undeclared, isDeclared_eq hprops, hund, forM_eq_ok, mem_sortByKey, List.mem_map,
      forall_exists_index, and_imp, forall_apply_eq_imp_iff₂, string, check_array,
      check_string, check_integer, pure_eq_ok, and_true, type_of, true_and, raiseIf_eq_ok,
      not_isNone_iff, not_not, Option.isSome_iff_exists]
    constructor
    · rintro ⟨hreq, hdec, hall⟩
      refine ⟨members, rfl, hreq, fun m hm => ?_⟩
      obtain ⟨s, hs⟩ := hall m hm
      obtain ⟨f, hff, hk, rfl⟩ := exists_field hs
      have hok := hdec m hm
      rw [hs] at hok
      exact ⟨f, hff, hk, (hf f hff _ _ _).mp hok⟩
    · rintro ⟨ms, heq, hreq, hall⟩
      cases heq
      refine ⟨hreq, fun m hm => ?_, fun m hm => ?_⟩
      · obtain ⟨f, hff, hk, hP⟩ := hall m hm
        rw [hk, lookup_fields h.distinct hff]
        exact (hf f hff _ _ _).mpr hP
      · obtain ⟨f, hff, hk, _⟩ := hall m hm
        exact ⟨_, by rw [hk]; exact lookup_fields h.distinct hff⟩
  | _ => simp [type_of, ClosedObject]

theorem accepts_closed (hd : depth ≤ 64) {required : List String} {fields : List Field}
    (hn : (fields.map Prod.fst).Nodup)
    (hf : ∀ f ∈ fields, Accepts registry code identifier frames (depth + 1) f.2.1 f.2.2) :
    Accepts registry code identifier (frames + 1) depth
      (closed required (fields.map fun f => (lit f.1, f.2.1))) (ClosedObject required fields) :=
  ClosedNode.accepts hd ⟨rfl, rfl, Or.inl rfl, rfl, rfl, rfl, rfl, hn⟩ hf

/-- A reference accepts what its target accepts. -/
theorem accepts_ref (hd : depth ≤ 64) {reference : Str} {target : Value} {target_id : Str}
    {P : Value → Prop} (hr : resolve (.str reference) identifier registry = .ok (target, target_id))
    (ht : Accepts registry code target_id frames depth target P) :
    Accepts registry code identifier (frames + 1) depth (.dict [("$ref", .str reference)]) P := by
  intro v ip sp
  have hm : ¬ depth > MAX_DEPTH := by unfold MAX_DEPTH; omega
  have href : refOf (.dict [("$ref", .str reference)]) = .ok (some (.str reference)) := by
    simp [refOf]
  rw [validate_node]
  simp only [raiseIf_neg hm, href, ok_bind, hr, string]
  exact ht v ip (target_path reference)

end Accepts

/-- A required member is there and is accepted. -/
theorem ClosedObject.require {required : List String} {fields : List Field} {v : Value}
    (h : ClosedObject required fields v) {f : Field} (hr : f.1 ∈ required) (hf : f ∈ fields)
    (hn : (fields.map Prod.fst).Nodup) : ∃ w, v.get? (lit f.1) = some w ∧ f.2.2 w := by
  obtain ⟨members, rfl, hreq, hall⟩ := h
  obtain ⟨w, hw⟩ := hreq f.1 hr
  obtain ⟨g, hg, hk, hP⟩ := hall _ (mem_of_lookup hw)
  cases List.inj_on_of_nodup_map hn hf hg (lit_inj.mp hk)
  exact ⟨w, hw, hP⟩

/-- A member that is there is accepted. -/
theorem ClosedObject.accepted {required : List String} {fields : List Field} {v w : Value}
    (h : ClosedObject required fields v) {f : Field} (hf : f ∈ fields)
    (hn : (fields.map Prod.fst).Nodup) (hw : v.get? (lit f.1) = some w) : f.2.2 w := by
  obtain ⟨members, rfl, _, hall⟩ := h
  obtain ⟨g, hg, hk, hP⟩ := hall _ (mem_of_lookup hw)
  cases List.inj_on_of_nodup_map hn hf hg (lit_inj.mp hk)
  exact hP

/-! ## What the documents accept -/

def IsText (v : Value) : Prop := ∃ s, v = .str s

def IsDate (v : Value) : Prop := ∃ s, v = .str s ∧ is_date_time s = true

def IsDigest (v : Value) : Prop :=
  ∃ s, v = .str s ∧ re.fullmatch "^sha256:[a-f0-9]{64}$" s = some true

def IsOneOf (options : List String) (v : Value) : Prop := ∃ o ∈ options, v = .str (lit o)

def IsNatural (least : Int) (v : Value) : Prop := ∃ i, v = .int i ∧ least ≤ i

def IsList (P : Value → Prop) (v : Value) : Prop := ∃ items, v = .list items ∧ ∀ x ∈ items, P x

/-- A list of at least so many values. -/
def IsLongList (least : Int) (P : Value → Prop) (v : Value) : Prop :=
  ∃ items, v = .list items ∧ least ≤ items.length ∧ ∀ x ∈ items, P x

def IsBoolean (v : Value) : Prop := ∃ b, v = .bool b

def itemFields : List Field :=
  [("id", TEXT, IsText), ("order", naturals 0, IsNatural 0), ("acquired_at", DATE, IsDate),
   ("status", oneOf ["ok", "missing", "stale", "error"],
    IsOneOf ["ok", "missing", "stale", "error"]),
   ("value", .dict [], fun _ => True), ("value_digest", DIGEST, IsDigest)]

/-- An item of a snapshot that the schema accepts. -/
def IsItem : Value → Prop := ClosedObject ["id", "order", "acquired_at", "status"] itemFields

def snapshotFields : List Field :=
  [("snapshot_id", TEXT, IsText), ("rulebook_digest", DIGEST, IsDigest),
   ("frozen_at", DATE, IsDate),
   ("items", .dict [("type", .str "array"), ("items", ITEM)], IsList IsItem),
   ("snapshot_digest", DIGEST, IsDigest)]

/-- A snapshot that the schema accepts. -/
def IsSnapshot : Value → Prop :=
  ClosedObject ["snapshot_id", "rulebook_digest", "frozen_at", "items", "snapshot_digest"]
    snapshotFields

def declarationFields : List Field :=
  [("id", TEXT, IsText), ("source", oneOf ["file", "exec", "http", "inline"],
    IsOneOf ["file", "exec", "http", "inline"]), ("ref", TEXT, IsText),
   ("max_age_seconds", naturals 0, IsNatural 0),
   ("required", .dict [("type", .str "boolean"), ("default", .bool true)], IsBoolean)]

/-- An evidence declaration that the schema accepts. -/
def IsDeclaration : Value → Prop := ClosedObject ["id", "source"] declarationFields

def ruleFields : List Field :=
  [("id", TEXT, IsText), ("when", TEXT, IsText),
   ("outcome", oneOf ["ALLOW", "BLOCK", "HOLD"], IsOneOf ["ALLOW", "BLOCK", "HOLD"]),
   ("reason", TEXT, IsText), ("requires_evidence", TEXTS, IsList IsText)]

/-- A rule that the schema accepts. -/
def IsRule : Value → Prop := ClosedObject ["id", "when", "outcome", "reason"] ruleFields

def settingsFields : List Field :=
  [("ttl_seconds", .dict [("type", .str "integer"), ("minimum", .int 1), ("default", .int 300)],
    IsNatural 1),
   ("single_use", .dict [("type", .str "boolean"), ("const", .bool true)],
    fun v => v = .bool true)]

def rulebookFields : List Field :=
  [("rulebook_id", .dict [("type", .str "string"), ("pattern", .str "^[a-z0-9][a-z0-9-]{1,63}$")],
    fun v => ∃ s, v = .str s ∧ re.fullmatch "^[a-z0-9][a-z0-9-]{1,63}$" s = some true),
   ("version", .dict [("type", .str "string"), ("pattern", .str "^[0-9]+\\.[0-9]+\\.[0-9]+$")],
    fun v => ∃ s, v = .str s ∧ re.fullmatch "^[0-9]+\\.[0-9]+\\.[0-9]+$" s = some true),
   ("adopted_at", DATE, IsDate), ("description", TEXT, IsText), ("track", TEXTS, IsList IsText),
   ("evidence", .dict
      [("type", .str "array"), ("minItems", .int 0), ("items", EVIDENCE_DECLARATION)],
    IsLongList 0 IsDeclaration),
   ("rules", .dict [("type", .str "array"), ("minItems", .int 1), ("items", RULE)],
    IsLongList 1 IsRule),
   ("default_outcome", oneOf ["BLOCK", "HOLD"], IsOneOf ["BLOCK", "HOLD"]),
   ("authorization", .dict [("type", .str "object"), ("additionalProperties", .bool false),
      ("properties", .dict (settingsFields.map fun f => (lit f.1, f.2.1)))],
    ClosedObject [] settingsFields)]

/-- A rulebook that the schema accepts. -/
def IsRulebook : Value → Prop :=
  ClosedObject ["rulebook_id", "version", "adopted_at", "evidence", "rules", "default_outcome"]
    rulebookFields

def reasonFields : List Field :=
  [("code", TEXT, IsText), ("rule_id", TEXT, IsText), ("evidence_id", TEXT, IsText),
   ("message", TEXT, IsText)]

/-- A reason of an outcome that the schema accepts. -/
def IsReason : Value → Prop := ClosedObject ["code", "message"] reasonFields

def outcomeFields : List Field :=
  [("outcome", oneOf ["ALLOW", "BLOCK", "HOLD", "ERROR"],
    IsOneOf ["ALLOW", "BLOCK", "HOLD", "ERROR"]),
   ("reasons", .dict [("type", .str "array"), ("minItems", .int 1), ("items", REASON)],
    IsLongList 1 IsReason),
   ("matched_rule", TEXT, IsText), ("trace", TEXTS, IsList IsText)]

/-- An outcome that the schema accepts. -/
def IsOutcome : Value → Prop := ClosedObject ["outcome", "reasons"] outcomeFields

section Documents

variable {registry : Registry} {code : Code} {identifier : Str} {frames depth : Nat}

theorem accepts_texts (hd : depth ≤ 63) :
    Accepts registry code identifier (frames + 2) depth TEXTS (IsList IsText) :=
  accepts_array (by omega) (accepts_text (by omega))

theorem accepts_item (hd : depth ≤ 63) :
    Accepts registry code identifier (frames + 2) depth ITEM IsItem := by
  show Accepts _ _ _ _ _ (closed _ (itemFields.map fun f => (lit f.1, f.2.1))) _
  refine accepts_closed (by omega) (by decide) fun f hf => ?_
  simp only [itemFields, List.mem_cons, List.not_mem_nil, or_false] at hf
  rcases hf with rfl | rfl | rfl | rfl | rfl | rfl
  · exact accepts_text (by omega)
  · exact accepts_naturals (by omega) 0
  · exact accepts_date (by omega)
  · exact accepts_oneOf (by omega) _
  · exact accepts_any (by omega)
  · exact accepts_pattern (by omega) _

theorem accepts_snapshot :
    Accepts registry code identifier (frames + 4) 0 SNAPSHOT_SCHEMA IsSnapshot := by
  show Accepts _ _ _ _ _ (closed _ (snapshotFields.map fun f => (lit f.1, f.2.1))) _
  refine accepts_closed (by omega) (by decide) fun f hf => ?_
  simp only [snapshotFields, List.mem_cons, List.not_mem_nil, or_false] at hf
  rcases hf with rfl | rfl | rfl | rfl | rfl
  · exact accepts_text (by omega)
  · exact accepts_pattern (by omega) _
  · exact accepts_date (by omega)
  · exact accepts_array (by omega) (accepts_item (by omega))
  · exact accepts_pattern (by omega) _

theorem accepts_declaration (hd : depth ≤ 63) :
    Accepts registry code identifier (frames + 2) depth EVIDENCE_DECLARATION IsDeclaration := by
  show Accepts _ _ _ _ _ (closed _ (declarationFields.map fun f => (lit f.1, f.2.1))) _
  refine accepts_closed (by omega) (by decide) fun f hf => ?_
  simp only [declarationFields, List.mem_cons, List.not_mem_nil, or_false] at hf
  rcases hf with rfl | rfl | rfl | rfl | rfl
  · exact accepts_text (by omega)
  · exact accepts_oneOf (by omega) _
  · exact accepts_text (by omega)
  · exact accepts_naturals (by omega) 0
  · exact accepts_boolean (by omega) true

theorem accepts_rule (hd : depth ≤ 62) :
    Accepts registry code identifier (frames + 3) depth RULE IsRule := by
  show Accepts _ _ _ _ _ (closed _ (ruleFields.map fun f => (lit f.1, f.2.1))) _
  refine accepts_closed (by omega) (by decide) fun f hf => ?_
  simp only [ruleFields, List.mem_cons, List.not_mem_nil, or_false] at hf
  rcases hf with rfl | rfl | rfl | rfl | rfl
  · exact accepts_text (by omega)
  · exact accepts_text (by omega)
  · exact accepts_oneOf (by omega) _
  · exact accepts_text (by omega)
  · exact accepts_texts (by omega)

theorem accepts_settings (hd : depth ≤ 63) :
    Accepts registry code identifier (frames + 2) depth
      (.dict [("type", .str "object"), ("additionalProperties", .bool false),
        ("properties", .dict (settingsFields.map fun f => (lit f.1, f.2.1)))])
      (ClosedObject [] settingsFields) := by
  refine ClosedNode.accepts (by omega)
    ⟨rfl, rfl, Or.inr ⟨rfl, rfl⟩, rfl, rfl, rfl, rfl, by decide⟩ fun f hf => ?_
  simp only [settingsFields, List.mem_cons, List.not_mem_nil, or_false] at hf
  rcases hf with rfl | rfl
  · exact accepts_default_naturals (by omega) 1 300
  · exact accepts_constant (by omega) true

theorem accepts_rulebook :
    Accepts registry code identifier (frames + 5) 0 RULEBOOK_SCHEMA IsRulebook := by
  show Accepts _ _ _ _ _ (closed _ (rulebookFields.map fun f => (lit f.1, f.2.1))) _
  refine accepts_closed (by omega) (by decide) fun f hf => ?_
  simp only [rulebookFields, List.mem_cons, List.not_mem_nil, or_false] at hf
  rcases hf with rfl | rfl | rfl | rfl | rfl | rfl | rfl | rfl | rfl
  · exact accepts_pattern (by omega) _
  · exact accepts_pattern (by omega) _
  · exact accepts_date (by omega)
  · exact accepts_text (by omega)
  · exact accepts_texts (by omega)
  · exact accepts_least_array (by omega) 0 (accepts_declaration (by omega))
  · exact accepts_least_array (by omega) 1 (accepts_rule (by omega))
  · exact accepts_oneOf (by omega) _
  · exact accepts_settings (by omega)

theorem accepts_reason (hd : depth ≤ 63) :
    Accepts registry code identifier (frames + 2) depth REASON IsReason := by
  show Accepts _ _ _ _ _ (closed _ (reasonFields.map fun f => (lit f.1, f.2.1))) _
  refine accepts_closed (by omega) (by decide) fun f hf => ?_
  simp only [reasonFields, List.mem_cons, List.not_mem_nil, or_false] at hf
  rcases hf with rfl | rfl | rfl | rfl <;> exact accepts_text (by omega)

theorem accepts_outcome (hd : depth ≤ 61) :
    Accepts registry code identifier (frames + 4) depth OUTCOME_SCHEMA IsOutcome := by
  show Accepts _ _ _ _ _ (closed _ (outcomeFields.map fun f => (lit f.1, f.2.1))) _
  refine accepts_closed (by omega) (by decide) fun f hf => ?_
  simp only [outcomeFields, List.mem_cons, List.not_mem_nil, or_false] at hf
  rcases hf with rfl | rfl | rfl | rfl
  · exact accepts_oneOf (by omega) _
  · exact accepts_least_array (by omega) 1 (accepts_reason (by omega))
  · exact accepts_text (by omega)
  · exact accepts_texts (by omega)

end Documents

/-- Validation against a registered document starts at its root. -/
theorem validate_eq {schema_id : Str} {registry : Registry} {document : Value} {code : Code}
    (hd : registry.lookup schema_id = some document) (hc : CODE_BY_ID.lookup schema_id = some code)
    (v : Value) : validate v schema_id registry =
      validate_node registry code schema_id FRAMES v document "$" "$" 0 := by
  simp only [validate, hd, hc]

/-- A snapshot is valid when the schema accepts it, member by member. -/
theorem validate_snapshot_iff (v : Value) :
    validate v SNAPSHOT_SCHEMA_ID REGISTRY = .ok () ↔ IsSnapshot v := by
  rw [@validate_eq _ _ SNAPSHOT_SCHEMA .snapshot_schema_invalid
    (by simp [REGISTRY, SNAPSHOT_SCHEMA_ID, AUTHORIZATION_SCHEMA_ID, CANDIDATE_SCHEMA_ID])
    (by simp [CODE_BY_ID, SNAPSHOT_SCHEMA_ID])]
  have hframes : FRAMES = 996 + 4 := rfl
  rw [hframes]
  exact accepts_snapshot v _ _

theorem validate_rulebook_iff (v : Value) :
    validate v RULEBOOK_SCHEMA_ID REGISTRY = .ok () ↔ IsRulebook v := by
  rw [@validate_eq _ _ RULEBOOK_SCHEMA .rulebook_schema_invalid
    (by simp [REGISTRY, SNAPSHOT_SCHEMA_ID, AUTHORIZATION_SCHEMA_ID, CANDIDATE_SCHEMA_ID,
      OUTCOME_SCHEMA_ID, RECEIPT_SCHEMA_ID, RULEBOOK_SCHEMA_ID])
    (by simp [CODE_BY_ID, RULEBOOK_SCHEMA_ID])]
  have hframes : FRAMES = 995 + 5 := rfl
  rw [hframes]
  exact accepts_rulebook v _ _

theorem validate_outcome_iff (v : Value) :
    validate v OUTCOME_SCHEMA_ID REGISTRY = .ok () ↔ IsOutcome v := by
  rw [@validate_eq _ _ OUTCOME_SCHEMA .outcome_schema_invalid
    (by simp [REGISTRY, SNAPSHOT_SCHEMA_ID, AUTHORIZATION_SCHEMA_ID, CANDIDATE_SCHEMA_ID,
      OUTCOME_SCHEMA_ID])
    (by simp [CODE_BY_ID, OUTCOME_SCHEMA_ID])]
  have hframes : FRAMES = 996 + 4 := rfl
  rw [hframes]
  exact accepts_outcome (by omega) v _ _

/-! ## Digests -/

def DIGEST_PATTERN : Str := "^sha256:[a-f0-9]{64}$"

def HEX : List (CodePoint × CodePoint) :=
  [(.scalar 'a', .scalar 'f'), (.scalar '0', .scalar '9')]

theorem compile_digest_pattern : re.compile DIGEST_PATTERN =
    some (.seq .start (.seq (.char (.scalar 's')) (.seq (.char (.scalar 'h'))
      (.seq (.char (.scalar 'a')) (.seq (.char (.scalar '2')) (.seq (.char (.scalar '5'))
        (.seq (.char (.scalar '6')) (.seq (.char (.scalar ':'))
          (.seq (.rep (.set false HEX) 64 (some 64)) (.seq .stop .empty)))))))))) := by
  decide +kernel

theorem digitChar_hex : ∀ n < 16, re.inRanges HEX (.scalar (Nat.digitChar n)) = true := by
  decide

theorem hexdigest_hex (message : List Nat) :
    ∀ c ∈ ofText (sha256.hexdigest message), re.inRanges HEX c = true := by
  intro c hc
  simp only [ofText, sha256.hexdigest, sha256.hexWord, List.mem_map, List.mem_flatMap] at hc
  obtain ⟨_, ⟨_, _, _, _, rfl⟩, rfl⟩ := hc
  exact digitChar_hex _ (Nat.mod_lt _ (by decide))

/-- A prefixed hexadecimal digest is a digest text. -/
theorem isDigest_hexdigest (message : List Nat) :
    IsDigest (.str (lit "sha256:" ++ ofText (sha256.hexdigest message))) := by
  have hrep := re.mem_ends_rep_set (hexdigest_hex message) [] 7
  have hlen : (ofText (sha256.hexdigest message)).length = 64 := by
    simp [ofText, sha256.length_hexdigest]
  rw [hlen, List.append_nil] at hrep
  have hstop : (71, []) ∈ re.ends (.seq .stop .empty) (71, []) := by simp [re.ends]
  have hhead : lit "sha256:" = [.scalar 's', .scalar 'h', .scalar 'a', .scalar '2', .scalar '5',
      .scalar '6', .scalar ':'] := rfl
  refine ⟨_, rfl, re.fullmatch_eq_true (i := 71) compile_digest_pattern ?_⟩
  rw [hhead]
  refine re.mem_ends_seq (m := (0, _)) List.mem_cons_self ?_
  iterate 7 refine re.mem_ends_seq (re.mem_ends_char _ _ _) ?_
  exact re.mem_ends_seq hrep hstop

/-- The digest of a value is a digest text. -/
theorem encodable_digest {v : Value} {digest : Str} (h : canon.digest v = .ok digest) :
    Encodable digest := by
  obtain ⟨data, _, h⟩ := outcomes.bind_eq_ok.mp h
  cases h
  exact encodable_append.mpr ⟨encodable_lit _, encodable_ofText _⟩

theorem isDigest_digest {v : Value} {digest : Str} (h : canon.digest v = .ok digest) :
    IsDigest (.str digest) := by
  obtain ⟨data, _, h⟩ := outcomes.bind_eq_ok.mp h
  cases h
  exact isDigest_hexdigest _

end vfy.schema
