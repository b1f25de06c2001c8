-- Bounded schema validation: the keywords that the six schemas use, checked
-- in a fixed order. A schema arrives as a loaded value through a registry,
-- and nothing here looks for a schema anywhere else.
import VerifyRun.Dynamic
import VerifyRun.Pattern
import VerifyRun.Instant
import VerifyRun.Canon

namespace vfy.schema

open python keys outcomes

def MAX_DEPTH : Nat := 64

/-- The documents by `$id`. -/
abbrev Registry := List (Str × Value)

/-- `CODE_BY_ID`. -/
def CODE_BY_ID : List (Str × Code) :=
  [("https://verifyrun.com/spec/v1/candidate.schema.json", .candidate_schema_invalid),
   ("https://verifyrun.com/spec/v1/rulebook.schema.json", .rulebook_schema_invalid),
   ("https://verifyrun.com/spec/v1/evidence.schema.json", .snapshot_schema_invalid),
   ("https://verifyrun.com/spec/v1/outcome.schema.json", .outcome_schema_invalid),
   ("https://verifyrun.com/spec/v1/authorization.schema.json", .authorization_schema_invalid),
   ("https://verifyrun.com/spec/v1/receipt.schema.json", .receipt_schema_invalid)]

/-! ## Paths -/

def identifierStart : CodePoint → Bool
  | .scalar c => c.isAlpha || c = '_'
  | .surrogate _ => false

def identifierPart : CodePoint → Bool
  | .scalar c => c.isAlphanum || c = '_'
  | .surrogate _ => false

/-- `\A[A-Za-z_][A-Za-z0-9_]*\Z`. -/
def is_identifier : Str → Bool
  | c :: rest => identifierStart c && rest.all identifierPart
  | [] => false

/-- `_json_string`. -/
def json_string (text : Str) : Str :=
  lit "\"" ++ text.flatMap (fun c =>
    if c = .scalar '"' ∨ c = .scalar '\\' then [.scalar '\\', c]
    else if c < .scalar ' ' then lit "\\u" ++ ofText (canon.hex4 c.ord)
    else [c]) ++ lit "\""

/-- `_member`. -/
def member (path name : Str) : Str :=
  if is_identifier name then path ++ lit "." ++ name else path ++ lit "[" ++ json_string name ++ lit "]"

/-- `path + "[%d]" % index`. -/
def indexed (path : Str) (index : Nat) : Str :=
  path ++ lit "[" ++ ofText (canon.decimal index) ++ lit "]"

/-- The string before the first such character, and the string after it. -/
def partition (s : Str) (c : CodePoint) : Str × Str :=
  (s.takeWhile (· ≠ c), (s.dropWhile (· ≠ c)).drop 1)

/-- `s.split(c)`. -/
def split (c : CodePoint) : Str → List Str
  | [] => [[]]
  | d :: rest =>
    if d = c then [] :: split c rest
    else
      match split c rest with
      | first :: more => (d :: first) :: more
      | [] => [[d]]

/-- `s.replace(pair, c)` for a pair of characters. -/
def replacePair (a b c : CodePoint) : Str → Str
  | d :: e :: rest =>
    if d = a ∧ e = b then c :: replacePair a b c rest else d :: replacePair a b c (e :: rest)
  | s => s

/-! ## References -/

/-- `schema["$ref"]`, if `"$ref" in schema`. What is no mapping has no such
item, and no `get` for what is looked at next. -/
def refOf (schema : Value) : Except Exn (Option Value) :=
  match schema with
  | .dict members => .ok (members.lookup (lit "$ref"))
  | .list items => .error (if items.any (isStr · (lit "$ref")) then .type_error else .attribute_error)
  | .str text => .error (if lit "$ref" <:+: text then .type_error else .attribute_error)
  | _ => .error .type_error

def registryFailure (message : Str) : Exn := fail .schema_registry_invalid message

/-- One step of a fragment. -/
def resolve_step (reference : Str) (node : Value) (step : Str) : Except Exn Value :=
  let step := replacePair (.scalar '~') (.scalar '0') (.scalar '~')
    (replacePair (.scalar '~') (.scalar '1') (.scalar '/') step)
  match node.get? step with
  | some child => .ok child
  | none => .error (registryFailure (lit "A $ref fragment does not resolve: " ++ reference))

/-- Resolve a reference to a schema node: `_resolve`. -/
def resolve (reference : Value) (identifier : Str) (registry : Registry) :
    Except Exn (Value × Str) :=
  match reference with
  | .str reference =>
    if reference = [] then
      .error (registryFailure (lit "A $ref must be a non-empty string in " ++ identifier))
    else do
      let (document_id, fragment) := partition reference (.scalar '#')
      let document_id := if document_id = [] then identifier else document_id
      match registry.lookup document_id with
      | none => .error (registryFailure
          (lit "A $ref names a schema outside the registry, and nothing is ever fetched: " ++
            reference))
      | some node =>
        match fragment with
        | [] => pure (node, document_id)
        | c :: steps =>
          if c ≠ .scalar '/' then
            .error (registryFailure (lit "Unsupported $ref fragment: " ++ reference))
          else do
            let node ← (split (.scalar '/') steps).foldlM (resolve_step reference) node
            pure (node, document_id)
  | _ => .error (registryFailure (lit "A $ref must be a non-empty string in " ++ identifier))

/-- The schema path of the target of a reference. -/
def target_path (reference : Str) : Str :=
  if .scalar '#' ∈ reference then
    lit "$" ++ (partition reference (.scalar '#')).2.map fun c =>
      if c = .scalar '/' then .scalar '.' else c
  else lit "$"

/-! ## The checks of a node -/

/-- `_type_of`. -/
def type_of : Value → Str
  | .bool _ => "boolean"
  | .int _ => "integer"
  | .str _ => "string"
  | .dict _ => "object"
  | .list _ => "array"
  | .null => "null"

/-- Exact canonical equality: `_equal`. -/
def equal : Value → Value → Bool := eqBy eqExact

/-- Where a value and a schema node are, and the code of the failure there. -/
structure Spot where
  code : Code
  instance_path : Str
  schema_path : Str

/-- `_fail`, at a keyword of the node. -/
def Spot.failure (spot : Spot) (message keyword : Str) : Exn :=
  .verify { code := spot.code, message,
            location := .document spot.instance_path (spot.schema_path ++ lit "." ++ keyword) keyword }

/-- `_fail`, at a member of the value. -/
def Spot.memberFailure (spot : Spot) (message name keyword : Str) : Exn :=
  .verify { code := spot.code, message,
            location := .document (member spot.instance_path name)
              (spot.schema_path ++ lit "." ++ keyword) keyword }

def check_type (spot : Spot) (value schema : Value) : Except Exn Unit :=
  match schema.get? "type" with
  | none => pure ()
  | some .null => pure ()
  | some (.str declared) =>
    raiseIf (type_of value ≠ declared) (spot.failure "Value is not of the declared type." "type")
  | some _ => .error (spot.failure "Value is not of the declared type." "type")

def check_required (spot : Spot) (members : List (Str × Value)) (schema : Value) :
    Except Exn Unit := do
  let names ← iterate ((schema.get? "required").getD (.list []))
  forM names fun name => do
    let name ← string name
    raiseIf (members.lookup name).isNone
      (spot.memberFailure "Required member is missing." name "required")

/-- `name in schema.get("properties", {})`. -/
def isDeclared (schema : Value) (name : Str) : Except Exn Bool :=
  match schema.get? "properties" with
  | none => .ok false
  | some (.dict properties) => .ok (properties.lookup name).isSome
  | some (.list items) => .ok (items.any (isStr · name))
  | some (.str text) => .ok (decide (name <:+: text))
  | some _ => .error .type_error

/-- How a child is validated: a value against a schema node, at two paths. -/
abbrev Child := Value → Value → Str → Str → Except Exn Unit

def check_declared (spot : Spot) (child : Child) (members : List (Str × Value)) (schema : Value) :
    Except Exn Unit :=
  forM (sortByKey members) fun m => do
    if ← isDeclared schema m.1 then
      let declared ← getItem ((schema.get? "properties").getD (.dict [])) m.1
      child m.2 declared (member spot.instance_path m.1)
        (member (spot.schema_path ++ lit ".properties") m.1)

def check_undeclared (spot : Spot) (child : Child) (members : List (Str × Value))
    (schema : Value) : Except Exn Unit :=
  match schema.get? "additionalProperties" with
  | some (.bool false) =>
    forM (sortByKey members) fun m => do
      raiseIf (¬ (← isDeclared schema m.1))
        (spot.memberFailure "Undeclared member is not permitted." m.1 "additionalProperties")
  | some (.dict additional) =>
    forM (sortByKey members) fun m => do
      if ¬ (← isDeclared schema m.1) then
        child m.2 (.dict additional) (member spot.instance_path m.1)
          (spot.schema_path ++ lit ".additionalProperties")
  | _ => pure ()

/-- `_validate_object`. -/
def validate_object (spot : Spot) (child : Child) (value schema : Value) : Except Exn Unit :=
  match value with
  | .dict members => do
    check_required spot members schema
    check_declared spot child members schema
    check_undeclared spot child members schema
  | _ => pure ()

def check_enum (spot : Spot) (value schema : Value) : Except Exn Unit :=
  match schema.get? "enum" with
  | none => pure ()
  | some options => do
    let options ← iterate options
    raiseIf (¬ options.any (equal value))
      (spot.failure "Value is not one of the enumerated values." "enum")

def check_const (spot : Spot) (value schema : Value) : Except Exn Unit :=
  match schema.get? "const" with
  | none => pure ()
  | some constant =>
    raiseIf (¬ equal value constant) (spot.failure "Value is not the constant value." "const")

/-- `if keyword in schema and size < schema[keyword]: _fail(...)`. -/
def check_least (spot : Spot) (size : Int) (schema : Value) (message keyword : Str) :
    Except Exn Unit :=
  match schema.get? keyword with
  | none => pure ()
  | some least => do
    let least ← number least
    raiseIf (size < least) (spot.failure message keyword)

def check_array (spot : Spot) (child : Child) (value schema : Value) : Except Exn Unit :=
  match value with
  | .list items => do
    check_least spot items.length schema "Array has too few items." "minItems"
    match schema.get? "items" with
    | some (.dict item_schema) =>
      forM items.zipIdx fun item =>
        child item.1 (.dict item_schema) (indexed spot.instance_path item.2)
          (spot.schema_path ++ lit ".items")
    | _ => pure ()
  | _ => pure ()

def check_pattern [re.Engine] (spot : Spot) (s : Str) (schema : Value) : Except Exn Unit :=
  match schema.get? "pattern" with
  | none => pure ()
  | some pattern => do
    let pattern ← string pattern
    match re.fullmatch pattern s with
    | some true => pure ()
    | some false => .error (spot.failure "String does not match the required pattern." "pattern")
    | none => .error .regex_error

def check_format (spot : Spot) (s : Str) (schema : Value) : Except Exn Unit :=
  match schema.get? "format" with
  | some (.str format) =>
    raiseIf (format = lit "date-time" ∧ ¬ is_date_time s)
      (spot.failure "String is not a date-time in the accepted grammar." "format")
  | _ => pure ()

def check_string [re.Engine] (spot : Spot) (value schema : Value) : Except Exn Unit :=
  match value with
  | .str s => do
    check_least spot s.length schema "String is shorter than the minimum length." "minLength"
    check_pattern spot s schema
    check_format spot s schema
  | _ => pure ()

def check_integer (spot : Spot) (value schema : Value) : Except Exn Unit :=
  match value with
  | .int i => check_least spot i schema "Integer is below the minimum." "minimum"
  | _ => pure ()

/-- The keywords of a node that is no reference, in order. -/
def check_node [re.Engine] (spot : Spot) (child : Child) (value schema : Value) : Except Exn Unit := do
  check_type spot value schema
  validate_object spot child value schema
  check_enum spot value schema
  check_const spot value schema
  check_array spot child value schema
  check_string spot value schema
  check_integer spot value schema

/-! ## Validation -/

/-- `_validate_node`, on a stack of so many frames. -/
def validate_node [re.Engine] (registry : Registry) (code : Code) (identifier : Str) :
    Nat → Value → Value → Str → Str → Nat → Except Exn Unit
  | 0, _, _, _, _, _ => .error .recursion_error
  | frames + 1, value, schema, instance_path, schema_path, depth => do
    raiseIf (depth > MAX_DEPTH)
      (.verify { code, message := lit "Value nests deeper than the loader admits.",
                 location := .document instance_path schema_path "depth" })
    match ← refOf schema with
    | some reference =>
      let (target, target_id) ← resolve reference identifier registry
      let text ← string reference
      validate_node registry code target_id frames value target instance_path (target_path text) depth
    | none =>
      check_node { code, instance_path, schema_path }
        (fun value schema instance_path schema_path =>
          validate_node registry code identifier frames value schema instance_path schema_path
            (depth + 1))
        value schema

/-- The frames of the host's stack. -/
def FRAMES : Nat := 1000

/-- Validate a value against the registry schema named by `schema_id`. -/
def validate [re.Engine] (value : Value) (schema_id : Str) (registry : Registry) : Except Exn Unit :=
  match registry.lookup schema_id with
  | none => .error (registryFailure (lit "No schema in the registry with $id " ++ schema_id))
  | some document =>
    match CODE_BY_ID.lookup schema_id with
    | none => .error (registryFailure (lit "No reason code is declared for schema " ++ schema_id))
    | some code => validate_node registry code schema_id FRAMES value document "$" "$" 0

/-! ## Properties that are a mapping -/

/-- The members of `schema.get("properties", {})`, if that is a mapping. -/
def propertiesOf (schema : Value) : Option (List (Str × Value)) :=
  match schema.get? "properties" with
  | none => some []
  | some (.dict properties) => some properties
  | some _ => none

section

variable {schema : Value} {properties : List (Str × Value)}

theorem isDeclared_eq (hp : propertiesOf schema = some properties) (name : Str) :
    isDeclared schema name = .ok (properties.lookup name).isSome := by
  unfold propertiesOf at hp
  unfold isDeclared
  split at hp <;> simp_all

/-- Only a mapping has an item at a name. -/
theorem getItem_properties_iff {name : Str} {node : Value} :
    getItem ((schema.get? "properties").getD (.dict [])) name = .ok node ↔
      ∃ properties, propertiesOf schema = some properties ∧ properties.lookup name = some node := by
  rw [getItem_eq_ok]
  unfold propertiesOf
  cases schema.get? "properties" with
  | none => simp
  | some v => cases v <;> simp [Value.get?]

theorem check_declared_eq (hp : propertiesOf schema = some properties) (spot : Spot)
    (child : Child) (members : List (Str × Value)) :
    check_declared spot child members schema = forM (sortByKey members) fun m =>
      match properties.lookup m.1 with
      | some node => child m.2 node (member spot.instance_path m.1)
          (member (spot.schema_path ++ lit ".properties") m.1)
      | none => pure () := by
  refine forM_congr fun m _ => ?_
  rw [isDeclared_eq hp, ok_bind]
  cases hn : properties.lookup m.1 with
  | none => rfl
  | some node => simp [getItem_properties_iff.mpr ⟨properties, hp, hn⟩]

end

/-! ## The order of members does not matter -/

theorem type_of_normalize (v : Value) : type_of v.normalize = type_of v := by
  cases v <;> simp [type_of]

theorem equal_normalize (v : Value) : equal v.normalize = equal v := by
  funext w
  exact eqBy_normalize_left eqExact_normalize_left v w

theorem lookup_normalized {members : List (Str × Value)} (hd : Distinct members) (k : Str) :
    (sortByKey (members.map fun m => (m.1, m.2.normalize))).lookup k =
      (members.lookup k).map Value.normalize := by
  rw [lookup_sortByKey (hd.map_snd _), lookup_map_snd]

/-- The loop over the sorted members, for members in any order. -/
theorem forM_normalized {members : List (Str × Value)} {f : Str × Value → Except Exn Unit}
    (h : ∀ m ∈ members, f (m.1, m.2.normalize) = f m) :
    forM (sortByKey (members.map fun m => (m.1, m.2.normalize))) f =
      forM (sortByKey members) f := by
  rw [sortByKey_map_snd, forM_map]
  exact forM_congr fun m hm => h m (mem_sortByKey.mp hm)

section Normalize

variable {child : Child} {v : Value}

theorem validate_object_normalize (spot : Spot) (hv : v.DistinctKeys)
    (hc : ∀ w : Value, w.DistinctKeys → ∀ s ip sp, child w.normalize s ip sp = child w s ip sp)
    (schema : Value) :
    validate_object spot child v.normalize schema = validate_object spot child v schema := by
  cases hv with
  | @dict members hd hm =>
    have hreq : check_required spot (sortByKey (members.map fun m => (m.1, m.2.normalize))) schema =
        check_required spot members schema := by
      unfold check_required
      simp only [lookup_normalized hd, Option.isNone_map]
    have hdec : check_declared spot child (sortByKey (members.map fun m => (m.1, m.2.normalize)))
        schema = check_declared spot child members schema := by
      unfold check_declared
      rw [sortByKey_idem (hd.map_snd _)]
      refine forM_normalized fun m hm' => ?_
      simp only [hc m.2 (hm m hm')]
    have hund : check_undeclared spot child (sortByKey (members.map fun m => (m.1, m.2.normalize)))
        schema = check_undeclared spot child members schema := by
      unfold check_undeclared
      rw [sortByKey_idem (hd.map_snd _)]
      split
      · exact forM_normalized fun m _ => rfl
      · refine forM_normalized fun m hm' => ?_
        simp only [hc m.2 (hm m hm')]
      · rfl
    simp only [Value.normalize_dict, validate_object, hreq, hdec, hund]
  | null => simp
  | bool b => simp
  | int i => simp
  | str s => simp
  | list _ => simp [validate_object]

theorem check_array_normalize (spot : Spot) (hv : v.DistinctKeys)
    (hc : ∀ w : Value, w.DistinctKeys → ∀ s ip sp, child w.normalize s ip sp = child w s ip sp)
    (schema : Value) :
    check_array spot child v.normalize schema = check_array spot child v schema := by
  cases hv with
  | @list items hi =>
    simp only [Value.normalize_list, check_array, List.length_map]
    refine congrArg _ (funext fun _ => ?_)
    split
    · rw [List.zipIdx_map, forM_map]
      refine forM_congr fun item hitem => ?_
      exact hc item.1 (hi _ (List.fst_mem_of_mem_zipIdx hitem)) _ _ _
    · rfl
  | null => simp
  | bool b => simp
  | int i => simp
  | str s => simp
  | dict _ _ => simp [check_array]

theorem check_node_normalize [re.Engine] (spot : Spot) (child : Child) (hv : v.DistinctKeys)
    (hc : ∀ w : Value, w.DistinctKeys → ∀ s ip sp, child w.normalize s ip sp = child w s ip sp)
    (schema : Value) :
    check_node spot child v.normalize schema = check_node spot child v schema := by
  have htype : check_type spot v.normalize schema = check_type spot v schema := by
    simp only [check_type, type_of_normalize]
  have henum : check_enum spot v.normalize schema = check_enum spot v schema := by
    simp only [check_enum, equal_normalize]
  have hconst : check_const spot v.normalize schema = check_const spot v schema := by
    simp only [check_const, equal_normalize]
  have hstring : check_string spot v.normalize schema = check_string spot v schema := by
    cases v <;> simp [check_string]
  have hinteger : check_integer spot v.normalize schema = check_integer spot v schema := by
    cases v <;> simp [check_integer]
  simp only [check_node, htype, validate_object_normalize spot hv hc, henum, hconst,
    check_array_normalize spot hv hc, hstring, hinteger]

end Normalize

theorem validate_node_normalize [re.Engine] (registry : Registry) (code : Code) (frames : Nat) :
    ∀ {v : Value}, v.DistinctKeys → ∀ identifier schema ip sp depth,
      validate_node registry code identifier frames v.normalize schema ip sp depth =
        validate_node registry code identifier frames v schema ip sp depth := by
  induction frames with
  | zero => intros; rfl
  | succ frames ih =>
    intro v hv identifier schema ip sp depth
    have hnode := check_node_normalize ⟨code, ip, sp⟩
      (fun value schema ip sp =>
        validate_node registry code identifier frames value schema ip sp (depth + 1))
      hv (fun w hw s ip sp => ih hw identifier s ip sp (depth + 1)) schema
    rw [validate_node, validate_node]
    simp only [ih hv, hnode]

/-- Validation does not depend on the order of members, and says the same of a
value that it refuses. -/
theorem validate_normalize [re.Engine] {v : Value} (hv : v.DistinctKeys) (schema_id : Str)
    (registry : Registry) :
    validate v.normalize schema_id registry = validate v schema_id registry := by
  simp only [validate, validate_node_normalize registry _ _ hv]

end vfy.schema
