-- Nothing is skipped: the load walks one set of nodes and validation another.
-- Where every reference leads back to what the load walks, and no keyword has
-- a form that validation passes over, each assertion refuses what violates it.
import VerifyRun.SchemaWalk

namespace vfy.schema

open python keys outcomes

/-! ## The nodes that the load walks -/

/-- The node at the end of so many steps, each from a schema to one that the
load walks next. -/
inductive SchemaAt : Value → List Str → Value → Prop where
  | here (node : Value) : SchemaAt node [] node
  | named {keywords members : List (Str × Value)} {key name : Str} {child target : Value}
      {steps : List Str} (hkey : key ∈ [lit "properties", lit "$defs"])
      (hk : keywords.lookup key = some (.dict members)) (hm : members.lookup name = some child)
      (h : SchemaAt child steps target) : SchemaAt (.dict keywords) (key :: name :: steps) target
  | nested {keywords schema : List (Str × Value)} {key : Str} {target : Value} {steps : List Str}
      (hkey : key ∈ [lit "items", lit "additionalProperties"])
      (hk : keywords.lookup key = some (.dict schema))
      (h : SchemaAt (.dict schema) steps target) : SchemaAt (.dict keywords) (key :: steps) target

theorem SchemaAt.trans {a b c : Value} {s t : List Str} (h : SchemaAt a s b)
    (h' : SchemaAt b t c) : SchemaAt a (s ++ t) c := by
  induction h with
  | here _ => exact h'
  | named hkey hk hm _ ih => exact .named hkey hk hm (ih h')
  | nested hkey hk _ ih => exact .nested hkey hk (ih h')

/-- The load has checked every node that it walks. -/
theorem SchemaAt.checked [re.Engine] {repr : Value → Str} {registry : Registry} {identifier : Str}
    {document node : Value} {steps : List Str} (h : SchemaAt document steps node)
    (hc : check_schema_node repr registry identifier document = .ok ()) :
    check_schema_node repr registry identifier node = .ok () := by
  induction h with
  | here _ => exact hc
  | @named keywords members key name child target steps hkey hk hm _ ih =>
    obtain ⟨members', hmembers, hall⟩ := (check_schema_node_eq_ok.mp hc).named key hkey _ hk
    cases hmembers
    exact ih (hall _ (mem_of_lookup hm))
  | nested hkey hk _ ih => exact ih ((check_schema_node_eq_ok.mp hc).nested _ hkey _ hk)

/-- The node is one that the load has walked in its document. -/
def Walked (registry : Registry) (identifier : Str) (node : Value) : Prop :=
  ∃ document steps, registry.lookup identifier = some document ∧ SchemaAt document steps node

theorem Walked.checked [re.Engine] {repr : Value → Str} {documents : List Value} {registry : Registry}
    {identifier : Str} {node : Value} (hb : build_registry repr documents = .ok registry)
    (h : Walked registry identifier node) :
    check_schema_node repr registry identifier node = .ok () := by
  obtain ⟨document, steps, hd, hat⟩ := h
  exact hat.checked (checked_of_registry hb hd)

/-! ## Where references point -/

/-- The document that a reference names. -/
def documentOf (reference identifier : Str) : Str :=
  if (partition reference (.scalar '#')).1 = [] then identifier
  else (partition reference (.scalar '#')).1

/-- A step of a fragment with its escapes undone. -/
def unescaped (step : Str) : Str :=
  replacePair (.scalar '~') (.scalar '0') (.scalar '~')
    (replacePair (.scalar '~') (.scalar '1') (.scalar '/') step)

/-- The steps of the fragment of a reference. -/
def stepsOf (reference : Str) : List Str :=
  match (partition reference (.scalar '#')).2 with
  | [] => []
  | _ :: steps => (split (.scalar '/') steps).map unescaped

/-- The reference leads to a node that the load walks. -/
def PointsAtSchema (registry : Registry) (identifier reference : Str) : Prop :=
  ∃ document node, registry.lookup (documentOf reference identifier) = some document ∧
    SchemaAt document (stepsOf reference) node

/-- The steps of a fragment find the node that the load walks along them. -/
theorem SchemaAt.find {reference : Str} {document node : Value} {path : List Str}
    (h : SchemaAt document path node) :
    ∀ steps : List Str, steps.map unescaped = path →
      steps.foldlM (resolve_step reference) document = .ok node := by
  have hstep : ∀ (keywords : List (Str × Value)) (step : Str) (child : Value),
      keywords.lookup (unescaped step) = some child →
      resolve_step reference (.dict keywords) step = .ok child := by
    intro keywords step child hl
    unfold unescaped at hl
    simp only [resolve_step, Value.get?_dict, hl]
  induction h with
  | here _ =>
    intro steps hs
    rw [List.map_eq_nil_iff.mp hs]
    rfl
  | @named keywords members key name child target path hkey hk hm _ ih =>
    intro steps hs
    obtain ⟨step, rest, rfl, rfl, hrest⟩ := List.map_eq_cons_iff.mp hs
    obtain ⟨step', rest', rfl, rfl, hrest'⟩ := List.map_eq_cons_iff.mp hrest
    rw [List.foldlM_cons, hstep keywords step _ hk, ok_bind, List.foldlM_cons,
      hstep members step' _ hm, ok_bind]
    exact ih rest' hrest'
  | @nested keywords schema key target path hkey hk _ ih =>
    intro steps hs
    obtain ⟨step, rest, rfl, rfl, hrest⟩ := List.map_eq_cons_iff.mp hs
    rw [List.foldlM_cons, hstep keywords step _ hk, ok_bind]
    exact ih rest hrest

/-- A reference to a node that the load walks resolves to that node. -/
theorem resolve_of_points {registry : Registry} {identifier reference : Str} {target : Value}
    {id : Str} (h : PointsAtSchema registry identifier reference)
    (hr : resolve (.str reference) identifier registry = .ok (target, id)) :
    Walked registry id target := by
  obtain ⟨document, node, hd, hat⟩ := h
  simp only [resolve] at hr
  split at hr
  · cases hr
  rw [show registry.lookup (if (partition reference (.scalar '#')).1 = [] then identifier
    else (partition reference (.scalar '#')).1) = some document from hd] at hr
  dsimp only at hr
  unfold stepsOf at hat
  split at hr
  · rename_i hfragment
    cases hr
    exact ⟨_, [], hd, .here _⟩
  · rename_i c steps hfragment
    split at hr
    · cases hr
    rw [hfragment] at hat
    rw [hat.find _ rfl] at hr
    cases hr
    exact ⟨document, _, hd, hat⟩

/-! ## Refusal -/

/-- The call returns on no stack. -/
def Refused [re.Engine] (registry : Registry) (c : Call) : Prop :=
  ∀ code frames schema_path, validate_node registry code c.identifier frames c.value c.node
    c.instance_path schema_path c.depth ≠ .ok ()

/-- A call that returns has passed its reference on, or the checks of its node. -/
theorem passed_of_ok [re.Engine] {registry : Registry} {c : Call} {code : Code} {frames : Nat}
    {schema_path : Str} (h : validate_node registry code c.identifier frames c.value c.node
      c.instance_path schema_path c.depth = .ok ()) :
    (∃ reference target id text frames', refOf c.node = .ok (some reference) ∧
      resolve reference c.identifier registry = .ok (target, id) ∧
      validate_node registry code id frames' c.value target c.instance_path text c.depth = .ok ()) ∨
    ∃ frames', refOf c.node = .ok none ∧
      check_node ⟨code, c.instance_path, schema_path⟩
        (fun value schema instance_path schema_path => validate_node registry code c.identifier
          frames' value schema instance_path schema_path (c.depth + 1)) c.value c.node = .ok () := by
  cases frames with
  | zero => cases h
  | succ frames =>
    rw [validate_node] at h
    obtain ⟨_, h⟩ := seq_eq_ok.mp h
    obtain ⟨reference, href, h⟩ := bind_eq_ok.mp h
    cases reference with
    | none => exact .inr ⟨frames, href, h⟩
    | some reference =>
      obtain ⟨⟨target, id⟩, hr, h⟩ := bind_eq_ok.mp h
      obtain ⟨text, _, h⟩ := bind_eq_ok.mp h
      exact .inl ⟨reference, target, id, _, frames, href, hr, h⟩

/-- What the checks of a node have passed, each by itself. -/
structure Passed [re.Engine] (spot : Spot) (child : Child) (value schema : Value) : Prop where
  type : check_type spot value schema = .ok ()
  object : validate_object spot child value schema = .ok ()
  enum : check_enum spot value schema = .ok ()
  const : check_const spot value schema = .ok ()
  array : check_array spot child value schema = .ok ()
  string : check_string spot value schema = .ok ()
  integer : check_integer spot value schema = .ok ()

theorem check_node_eq_ok [re.Engine] {spot : Spot} {child : Child} {value schema : Value} :
    check_node spot child value schema = .ok () ↔ Passed spot child value schema := by
  unfold check_node
  simp only [seq_eq_ok]
  constructor
  · rintro ⟨htype, hobject, henum, hconst, harray, hstring, hinteger⟩
    exact ⟨htype, hobject, henum, hconst, harray, hstring, hinteger⟩
  · intro h
    exact ⟨h.type, h.object, h.enum, h.const, h.array, h.string, h.integer⟩

section

variable {spot : Spot} {child : Child} {schema : Value} {members properties : List (Str × Value)}

theorem least_of_ok {size least : Int} {message keyword : Str}
    (h : check_least spot size schema message keyword = .ok ())
    (hk : schema.get? keyword = some (.int least)) : least ≤ size := by
  unfold check_least at h
  simp only [hk, number, ok_bind, raiseIf_eq_ok] at h
  omega

variable [re.Engine]

theorem Passed.required (h : Passed spot child (.dict members) schema) {v : Value}
    {required : List Value} {name : Str} (hv : schema.get? "required" = some v)
    (hr : iterate v = .ok required) (hn : .str name ∈ required) :
    (members.lookup name).isSome := by
  obtain ⟨hrequired, _⟩ := seq_eq_ok.mp h.object
  unfold check_required at hrequired
  rw [hv, Option.getD_some, hr, ok_bind, forM_eq_ok] at hrequired
  have := hrequired _ hn
  simp only [python.string, ok_bind, raiseIf_eq_ok] at this
  cases hl : members.lookup name with
  | none => simp [hl] at this
  | some _ => rfl

/-- Each member that is declared is validated against its schema. -/
theorem Passed.declared (h : Passed spot child (.dict members) schema)
    (hp : propertiesOf schema = some properties) {m : Str × Value} (hm : m ∈ members) {s : Value}
    (hs : properties.lookup m.1 = some s) :
    ∃ schema_path, child m.2 s (member spot.instance_path m.1) schema_path = .ok () := by
  obtain ⟨_, hobject⟩ := seq_eq_ok.mp h.object
  obtain ⟨hdeclared, _⟩ := seq_eq_ok.mp hobject
  rw [check_declared_eq hp] at hdeclared
  have := forM_eq_ok.mp hdeclared m (mem_sortByKey.mpr hm)
  simp only [hs] at this
  exact ⟨_, this⟩

theorem Passed.undeclared (h : Passed spot child (.dict members) schema) :
    check_undeclared spot child members schema = .ok () := by
  obtain ⟨_, hobject⟩ := seq_eq_ok.mp h.object
  exact (seq_eq_ok.mp hobject).2

theorem Passed.additional (h : Passed spot child (.dict members) schema) {m : Str × Value}
    (hm : m ∈ members) (hs : isDeclared schema m.1 = .ok false) {additional : List (Str × Value)}
    (ha : schema.get? "additionalProperties" = some (.dict additional)) :
    ∃ schema_path, child m.2 (.dict additional) (member spot.instance_path m.1) schema_path =
      .ok () := by
  have hundeclared := h.undeclared
  unfold check_undeclared at hundeclared
  rw [ha] at hundeclared
  have := forM_eq_ok.mp hundeclared m (mem_sortByKey.mpr hm)
  simp only [hs, ok_bind, Bool.false_eq_true, not_false_eq_true, if_true] at this
  exact ⟨_, this⟩

theorem Passed.closed (h : Passed spot child (.dict members) schema)
    (hp : propertiesOf schema = some properties)
    (ha : schema.get? "additionalProperties" = some (.bool false)) {m : Str × Value}
    (hm : m ∈ members) : (properties.lookup m.1).isSome := by
  have hundeclared := h.undeclared
  unfold check_undeclared at hundeclared
  rw [ha] at hundeclared
  have := forM_eq_ok.mp hundeclared m (mem_sortByKey.mpr hm)
  rwa [isDeclared_eq hp, ok_bind, raiseIf_eq_ok, not_not] at this

theorem Passed.minItems {items : List Value} (h : Passed spot child (.list items) schema)
    {least : Int} (hk : schema.get? "minItems" = some (.int least)) : least ≤ items.length :=
  least_of_ok (seq_eq_ok.mp h.array).1 hk

theorem Passed.items {items : List Value} (h : Passed spot child (.list items) schema)
    {keywords : List (Str × Value)} (hk : schema.get? "items" = some (.dict keywords))
    {item : Value × Nat} (hm : item ∈ items.zipIdx) :
    ∃ schema_path, child item.1 (.dict keywords) (indexed spot.instance_path item.2) schema_path =
      .ok () := by
  have harray := (seq_eq_ok.mp h.array).2
  rw [hk] at harray
  exact ⟨_, forM_eq_ok.mp harray item hm⟩

theorem Passed.minLength {s : Str} (h : Passed spot child (.str s) schema)
    {least : Int} (hk : schema.get? "minLength" = some (.int least)) : least ≤ s.length :=
  least_of_ok (seq_eq_ok.mp h.string).1 hk

theorem Passed.pattern {s : Str} (h : Passed spot child (.str s) schema) {pattern : Str}
    (hk : schema.get? "pattern" = some (.str pattern)) : re.fullmatch pattern s = some true := by
  have hpattern := (seq_eq_ok.mp (seq_eq_ok.mp h.string).2).1
  unfold check_pattern at hpattern
  simp only [hk, python.string, ok_bind] at hpattern
  split at hpattern
  · assumption
  · cases hpattern
  · cases hpattern

theorem Passed.format {s : Str} (h : Passed spot child (.str s) schema)
    (hk : schema.get? "format" = some (.str (lit "date-time"))) : is_date_time s := by
  have hformat := (seq_eq_ok.mp (seq_eq_ok.mp h.string).2).2
  unfold check_format at hformat
  simp only [hk, raiseIf_eq_ok, true_and, not_not] at hformat
  exact hformat

theorem Passed.minimum {i least : Int} (h : Passed spot child (.int i) schema)
    (hk : schema.get? "minimum" = some (.int least)) : least ≤ i :=
  least_of_ok h.integer hk

theorem Passed.declaredType {value : Value} (h : Passed spot child value schema) {declared : Str}
    (hk : schema.get? "type" = some (.str declared)) : type_of value = declared := by
  have htype := h.type
  unfold check_type at htype
  simpa only [hk, raiseIf_eq_ok, ne_eq, not_not] using htype

theorem Passed.enumerated {value : Value} (h : Passed spot child value schema) {v : Value}
    {options : List Value} (hk : schema.get? "enum" = some v) (hi : iterate v = .ok options) :
    ∃ option ∈ options, equal value option := by
  have henum := h.enum
  unfold check_enum at henum
  simpa only [hk, hi, ok_bind, raiseIf_eq_ok, not_not, List.any_eq_true] using henum

theorem Passed.constant {value : Value} (h : Passed spot child value schema) {constant : Value}
    (hk : schema.get? "const" = some constant) : equal value constant := by
  have hconst := h.const
  unfold check_const at hconst
  simpa only [hk, raiseIf_eq_ok, not_not] using hconst

end

/-! ## The walk refuses what a call of it refuses -/

theorem Refused.of_calls [re.Engine] {registry : Registry} {c d : Call} (hcall : Calls registry c d)
    (h : Refused registry d) : Refused registry c := by
  intro code frames schema_path hok
  rcases passed_of_ok hok with ⟨reference, target, id, text, frames', href, hr, hpass⟩ |
    ⟨frames', href, hnode⟩
  · cases hcall with
    | reference _ href' hr' =>
      cases href.symm.trans href'
      cases hr.symm.trans hr'
      exact h code frames' text hpass
    | declared _ href' => cases href.symm.trans href'
    | undeclared _ href' => cases href.symm.trans href'
    | item _ href' => cases href.symm.trans href'
  · have hpassed := check_node_eq_ok.mp hnode
    cases hcall with
    | reference _ href' => cases href.symm.trans href'
    | declared _ _ hv hp hm hs =>
      rw [hv] at hpassed
      obtain ⟨schema_path', hchild⟩ := hpassed.declared hp hm hs
      exact h code frames' schema_path' hchild
    | undeclared _ _ hv hm hs ha =>
      rw [hv] at hpassed
      obtain ⟨schema_path', hchild⟩ := hpassed.additional hm hs ha
      exact h code frames' schema_path' hchild
    | item _ _ hv hm hs =>
      rw [hv] at hpassed
      obtain ⟨schema_path', hchild⟩ := hpassed.items hs hm
      exact h code frames' schema_path' hchild

theorem Refused.of_reach [re.Engine] {registry : Registry} {c d : Call}
    (hreach : Relation.ReflTransGen (Calls registry) c d) (h : Refused registry d) :
    Refused registry c := by
  induction hreach using Relation.ReflTransGen.head_induction_on with
  | refl => exact h
  | head hcall _ ih => exact ih.of_calls hcall

/-! ## What violates a keyword -/

/-- The value of the call violates a keyword of its node. -/
inductive Violates [re.Engine] (registry : Registry) (c : Call) : Str → Prop where
  | type {declared : Str} (hk : c.node.get? "type" = some (.str declared))
      (h : type_of c.value ≠ declared) : Violates registry c "type"
  | required {v : Value} {names : List Value} {members : List (Str × Value)} {name : Str}
      (hk : c.node.get? "required" = some v) (hnames : iterate v = .ok names)
      (hv : c.value = .dict members) (hn : .str name ∈ names) (h : members.lookup name = none) :
      Violates registry c "required"
  | properties {properties members : List (Str × Value)} {m : Str × Value} {schema : Value}
      (hk : c.node.get? "properties" = some (.dict properties)) (hv : c.value = .dict members)
      (hm : m ∈ members) (hs : properties.lookup m.1 = some schema)
      (h : Refused registry (c.child m.2 schema (member c.instance_path m.1))) :
      Violates registry c "properties"
  | closed {properties members : List (Str × Value)} {m : Str × Value}
      (hk : c.node.get? "additionalProperties" = some (.bool false))
      (hv : c.value = .dict members) (hp : propertiesOf c.node = some properties) (hm : m ∈ members)
      (h : properties.lookup m.1 = none) : Violates registry c "additionalProperties"
  | additional {properties members additional : List (Str × Value)} {m : Str × Value}
      (hk : c.node.get? "additionalProperties" = some (.dict additional))
      (hv : c.value = .dict members) (hp : propertiesOf c.node = some properties) (hm : m ∈ members)
      (hs : properties.lookup m.1 = none)
      (h : Refused registry (c.child m.2 (.dict additional) (member c.instance_path m.1))) :
      Violates registry c "additionalProperties"
  | items {schema : List (Str × Value)} {items : List Value} {item : Value × Nat}
      (hk : c.node.get? "items" = some (.dict schema)) (hv : c.value = .list items)
      (hm : item ∈ items.zipIdx)
      (h : Refused registry (c.child item.1 (.dict schema) (indexed c.instance_path item.2))) :
      Violates registry c "items"
  | noItems {items : List Value} (hk : c.node.get? "items" = some (.bool false))
      (hv : c.value = .list items) (h : items ≠ []) : Violates registry c "items"
  | enum {v : Value} {options : List Value} (hk : c.node.get? "enum" = some v)
      (ho : iterate v = .ok options) (h : ∀ option ∈ options, ¬ equal c.value option) :
      Violates registry c "enum"
  | const {constant : Value} (hk : c.node.get? "const" = some constant)
      (h : ¬ equal c.value constant) : Violates registry c "const"
  | minItems {least : Int} {items : List Value} (hk : c.node.get? "minItems" = some (.int least))
      (hv : c.value = .list items) (h : items.length < least) : Violates registry c "minItems"
  | minLength {least : Int} {s : Str} (hk : c.node.get? "minLength" = some (.int least))
      (hv : c.value = .str s) (h : s.length < least) : Violates registry c "minLength"
  | pattern {pattern s : Str} (hk : c.node.get? "pattern" = some (.str pattern))
      (hv : c.value = .str s) (h : re.fullmatch pattern s ≠ some true) :
      Violates registry c "pattern"
  | format {s : Str} (hk : c.node.get? "format" = some (.str (lit "date-time")))
      (hv : c.value = .str s) (h : ¬ is_date_time s) : Violates registry c "format"
  | minimum {least i : Int} (hk : c.node.get? "minimum" = some (.int least))
      (hv : c.value = .int i) (h : i < least) : Violates registry c "minimum"

/-- Only an assertion that is written can be violated. -/
theorem Violates.written [re.Engine] {registry : Registry} {c : Call} {keyword : Str}
    (h : Violates registry c keyword) :
    keyword ∈ ASSERTIONS ∧ (c.node.get? keyword).isSome := by
  cases h <;> simp_all [ASSERTIONS]

/-! ## Nothing is skipped -/

/-- No keyword of a node has a form that validation passes over. -/
structure NoneSkipped (registry : Registry) (identifier : Str) (keywords : List (Str × Value)) :
    Prop where
  alone : ∀ reference, keywords.lookup (lit "$ref") = some reference →
    ∀ keyword ∈ ASSERTIONS, keywords.lookup keyword = none
  reference : ∀ reference, keywords.lookup (lit "$ref") = some (.str reference) →
    PointsAtSchema registry identifier reference
  type : keywords.lookup (lit "type") ≠ some .null
  items : ∀ v, keywords.lookup (lit "items") = some v → ∃ schema, v = .dict schema
  additional : ∀ v, keywords.lookup (lit "additionalProperties") = some v →
    (∃ b, v = .bool b) ∨ ∃ schema, v = .dict schema

/-- A node that skips nothing refuses what violates a keyword of it. -/
theorem Violates.refused [re.Engine] {registry : Registry} {c : Call} {keywords : List (Str × Value)}
    {keyword : Str} (h : Violates registry c keyword) (hnode : c.node = .dict keywords)
    (hskip : NoneSkipped registry c.identifier keywords) : Refused registry c := by
  intro code frames schema_path hok
  rcases passed_of_ok hok with ⟨reference, _, _, _, _, href, _⟩ | ⟨frames', _, hcheck⟩
  · -- the keyword would stand beside the reference
    obtain ⟨hassertion, hwritten⟩ := h.written
    have href' : keywords.lookup (lit "$ref") = some reference := by
      simpa [hnode, refOf] using href
    rw [hnode, Value.get?_dict, hskip.alone _ href' _ hassertion] at hwritten
    cases hwritten
  have hpassed := check_node_eq_ok.mp hcheck
  cases h with
  | type hk h => exact h (hpassed.declaredType hk)
  | required hk hnames hv hn h =>
    rw [hv] at hpassed
    have := hpassed.required hk hnames hn
    rw [h] at this
    cases this
  | @properties properties members m schema hk hv hm hs h =>
    rw [hv] at hpassed
    have hp : propertiesOf c.node = some properties := by simp [propertiesOf, hk]
    obtain ⟨schema_path', hchild⟩ := hpassed.declared hp hm hs
    exact h code frames' schema_path' hchild
  | closed hk hv hp hm h =>
    rw [hv] at hpassed
    have := hpassed.closed hp hk hm
    rw [h] at this
    cases this
  | additional hk hv hp hm hs h =>
    rw [hv] at hpassed
    obtain ⟨schema_path', hchild⟩ := hpassed.additional hm (by rw [isDeclared_eq hp, hs]; rfl) hk
    exact h code frames' schema_path' hchild
  | items hk hv hm h =>
    rw [hv] at hpassed
    obtain ⟨schema_path', hchild⟩ := hpassed.items hk hm
    exact h code frames' schema_path' hchild
  | noItems hk =>
    rw [hnode] at hk
    obtain ⟨schema, hschema⟩ := hskip.items _ hk
    cases hschema
  | enum hk ho h =>
    obtain ⟨option, hoption, hequal⟩ := hpassed.enumerated hk ho
    exact h option hoption hequal
  | const hk h => exact h (hpassed.constant hk)
  | minItems hk hv h =>
    rw [hv] at hpassed
    exact absurd (hpassed.minItems hk) (by omega)
  | minLength hk hv h =>
    rw [hv] at hpassed
    exact absurd (hpassed.minLength hk) (by omega)
  | pattern hk hv h =>
    rw [hv] at hpassed
    exact h (hpassed.pattern hk)
  | format hk hv h =>
    rw [hv] at hpassed
    exact h (hpassed.format hk)
  | minimum hk hv h =>
    rw [hv] at hpassed
    exact absurd (hpassed.minimum hk) (by omega)

/-! ## What the walk reaches -/

/-- The site of a call. -/
def Call.site (c : Call) : Site := ⟨c.node, c.identifier, c.depth⟩

/-- A call on a canonical value makes its calls on canonical values, at sites
that its own site leads to. -/
theorem Calls.leads {registry : Registry} {c d : Call} (h : Calls registry c d)
    (hv : c.value.Canonical) : Leads registry c.site d.site ∧ d.value.Canonical := by
  cases h with
  | reference hd href hr => exact ⟨.reference (s := c.site) hd href hr, hv⟩
  | declared hd href hmembers hp hm hs =>
    rw [hmembers] at hv
    cases hv with
    | dict _ hk hcanonical =>
      exact ⟨.property (s := c.site) hd href hp hs (hk _ hm), hcanonical _ hm⟩
  | undeclared hd href hmembers hm hs ha =>
    rw [hmembers] at hv
    cases hv with
    | dict _ hk hcanonical =>
      exact ⟨.additional (s := c.site) hd href hs (hk _ hm) ha, hcanonical _ hm⟩
  | item hd href hitems hm hs =>
    rw [hitems] at hv
    cases hv with
    | list hcanonical =>
      exact ⟨.items (s := c.site) hd href hs, hcanonical _ (List.fst_mem_of_mem_zipIdx hm)⟩

theorem reach_sites {registry : Registry} {c d : Call}
    (h : Relation.ReflTransGen (Calls registry) c d) (hv : c.value.Canonical) :
    Relation.ReflTransGen (Leads registry) c.site d.site ∧ d.value.Canonical := by
  induction h with
  | refl => exact ⟨.refl, hv⟩
  | tail _ hcall ih =>
    obtain ⟨hsites, hcanonical⟩ := ih
    obtain ⟨hlead, hcanonical'⟩ := hcall.leads hcanonical
    exact ⟨hsites.tail hlead, hcanonical'⟩

/-- A site that leads further is not too deep. -/
theorem Leads.depth_le {registry : Registry} {s t : Site} (h : Leads registry s t) :
    s.depth ≤ MAX_DEPTH := by
  cases h with
  | reference hd => exact hd
  | property hd => exact hd
  | additional hd => exact hd
  | items hd => exact hd

theorem refused_of_depth [re.Engine] {registry : Registry} {c : Call} (h : MAX_DEPTH < c.depth) :
    Refused registry c := by
  intro code frames schema_path hok
  cases frames with
  | zero => cases hok
  | succ frames =>
    rw [validate_node] at hok
    obtain ⟨hdepth, _⟩ := seq_eq_ok.mp hok
    exact raiseIf_eq_ok.mp hdepth h

/-- No site that the walk of validation reaches has a node that skips something. -/
def SkipsNothing (registry : Registry) : Prop :=
  ∀ id document, registry.lookup id = some document → ∀ s, Reaches registry document id s →
    ∀ keywords, s.node = .dict keywords → NoneSkipped registry s.identifier keywords

/-- The reference of a node, if there is one, leads to a node that the load walks. -/
def Points (registry : Registry) (s : Site) : Prop :=
  ∀ keywords reference, s.node = .dict keywords →
    keywords.lookup (lit "$ref") = some (.str reference) →
      PointsAtSchema registry s.identifier reference

/-- Where references lead to nodes that the load walks, the walk of validation
stays on them. -/
theorem Leads.walked [re.Engine] {repr : Value → Str} {documents : List Value} {registry : Registry}
    (hb : build_registry repr documents = .ok registry) {s t : Site} (h : Leads registry s t)
    (hpoints : Points registry s) (hs : Walked registry s.identifier s.node) :
    Walked registry t.identifier t.node := by
  obtain ⟨keywords, hnode, hchecked⟩ := checked_of_ok (hs.checked hb)
  obtain ⟨document, steps, hdocument, hat⟩ := hs
  rw [hnode] at hat
  cases h with
  | @reference reference target id _ href hr =>
    simp only [hnode, refOf, Except.ok.injEq] at href
    cases reference with
    | str text => exact resolve_of_points (hpoints keywords text hnode href) hr
    | _ => cases hr
  | @property properties name schema _ _ hp hl =>
    have hk : keywords.lookup (lit "properties") = some (.dict properties) := by
      simp only [hnode, propertiesOf, Value.get?_dict] at hp
      split at hp
      · cases hp
        cases hl
      · rename_i hk
        cases hp
        exact hk
      · cases hp
    exact ⟨document, _, hdocument, hat.trans (.named (by simp) hk hl (.here _))⟩
  | @additional additional _ _ _ _ _ ha =>
    rw [hnode] at ha
    exact ⟨document, _, hdocument, hat.trans (.nested (by simp) ha (.here _))⟩
  | @items schema _ _ hi =>
    rw [hnode] at hi
    exact ⟨document, _, hdocument, hat.trans (.nested (by simp) hi (.here _))⟩

theorem Reaches.walked [re.Engine] {repr : Value → Str} {documents : List Value} {registry : Registry}
    (hb : build_registry repr documents = .ok registry) {id : Str} {document : Value}
    (hd : registry.lookup id = some document)
    (hpoints : ∀ s, Reaches registry document id s → Points registry s) {s : Site}
    (hs : Reaches registry document id s) : Walked registry s.identifier s.node := by
  obtain ⟨hreach, hdepth⟩ := hs
  induction hreach with
  | refl => exact ⟨document, [], hd, .here _⟩
  | tail hsites hlead ih =>
    exact hlead.walked hb (hpoints _ ⟨hsites, hlead.depth_le⟩) (ih hlead.depth_le)

/-- No construct is silently ignored: each node that validation reaches is one
that the load has walked and checked; a value that violates an assertion of a
node where it arrives is refused as a whole; and the forms that validation
passes over are nowhere in what it reaches. -/
structure NothingIgnored [re.Engine] (repr : Value → Str) (registry : Registry) : Prop where
  passed : ∀ id document, registry.lookup id = some document →
    ∀ s, Reaches registry document id s → Walked registry s.identifier s.node ∧
      check_schema_node repr registry s.identifier s.node = .ok ()
  enforced : ∀ id document, registry.lookup id = some document →
    ∀ v : Value, v.Canonical → ∀ c, Relation.ReflTransGen (Calls registry) ⟨v, document, id, "$", 0⟩ c →
      ∀ keyword, Violates registry c keyword → Refused registry ⟨v, document, id, "$", 0⟩
  refused : SkipsNothing registry

/-- Nothing of an accepted registry is ignored exactly when no node that
validation reaches has an assertion beside a reference, a reference that leaves
the nodes that the load walks, the type `null`, or `items` or
`additionalProperties` of a form that validation does not read. -/
theorem nothing_ignored_iff [re.Engine] {repr : Value → Str} {documents : List Value} {registry : Registry}
    (hb : build_registry repr documents = .ok registry) :
    NothingIgnored repr registry ↔ SkipsNothing registry := by
  constructor
  · intro h
    exact h.refused
  · intro h
    have hwalked : ∀ id document, registry.lookup id = some document →
        ∀ s, Reaches registry document id s → Walked registry s.identifier s.node :=
      fun id document hd s hs => hs.walked hb hd fun t ht keywords reference hnode =>
        (h id document hd t ht keywords hnode).reference reference
    refine ⟨fun id document hd s hs => ?_, fun id document hd v hv c hreach keyword hviolates => ?_, h⟩
    · exact ⟨hwalked id document hd s hs, (hwalked id document hd s hs).checked hb⟩
    · refine Refused.of_reach hreach ?_
      by_cases hdepth : c.depth ≤ MAX_DEPTH
      · have hs : Reaches registry document id c.site := ⟨(reach_sites hreach hv).1, hdepth⟩
        obtain ⟨keywords, hnode, _⟩ := checked_of_ok ((hwalked id document hd _ hs).checked hb)
        exact hviolates.refused hnode (h id document hd _ hs keywords hnode)
      · exact refused_of_depth (not_le.mp hdepth)

/-! ## Two documents -/

/-- A part that is a string, and a reference to it. -/
def textKeywords : List (Str × Value) := [(lit "type", .str (lit "string"))]

def partKeywords : List (Str × Value) := [(lit "$ref", .str (lit "#/$defs/text"))]

/-- A list of such parts. -/
def tagsKeywords : List (Str × Value) := [(lit "items", .dict partKeywords)]

/-- A document with properties, items and references to a part of it. -/
def partsKeywords : List (Str × Value) :=
  [(lit "$id", .str CANDIDATE_SCHEMA_ID), (lit "type", .str (lit "object")),
   (lit "required", .list [.str (lit "name")]),
   (lit "properties",
     .dict [(lit "name", .dict partKeywords), (lit "tags", .dict tagsKeywords)]),
   (lit "additionalProperties", .bool false),
   (lit "$defs", .dict [(lit "text", .dict textKeywords)])]

def partsRegistry : Registry := [(CANDIDATE_SCHEMA_ID, .dict partsKeywords)]

theorem resolve_part : resolve (.str (lit "#/$defs/text")) CANDIDATE_SCHEMA_ID partsRegistry =
    .ok (.dict textKeywords, CANDIDATE_SCHEMA_ID) := by
  have hne : lit "#/$defs/text" ≠ [] := by decide +kernel
  have hpart : partition (lit "#/$defs/text") (.scalar '#') =
      ([], .scalar '/' :: lit "$defs/text") := by decide +kernel
  have hsplit : split (.scalar '/') (lit "$defs/text") = [lit "$defs", lit "text"] := by
    decide +kernel
  have hdefs : resolve_step (lit "#/$defs/text") (.dict partsKeywords) (lit "$defs") =
      .ok (.dict [(lit "text", .dict textKeywords)]) := by
    have hplain : replacePair (.scalar '~') (.scalar '0') (.scalar '~')
        (replacePair (.scalar '~') (.scalar '1') (.scalar '/') (lit "$defs")) =
          lit "$defs" := by decide +kernel
    simp [resolve_step, hplain, partsKeywords, lookup_lit_ne]
  have htext : resolve_step (lit "#/$defs/text") (.dict [(lit "text", .dict textKeywords)])
      (lit "text") = .ok (.dict textKeywords) := by
    have hplain : replacePair (.scalar '~') (.scalar '0') (.scalar '~')
        (replacePair (.scalar '~') (.scalar '1') (.scalar '/') (lit "text")) =
          lit "text" := by decide +kernel
    simp [resolve_step, hplain]
  simp only [resolve, hne, hpart, if_true, if_false, partsRegistry, List.lookup_cons_self]
  simp only [ne_eq, not_true_eq_false, if_false, hsplit, List.foldlM_cons, List.foldlM_nil]
  rw [hdefs, ok_bind, htext]
  rfl

theorem checked_text : Checked (fun _ => []) partsRegistry CANDIDATE_SCHEMA_ID textKeywords := by
  constructor
  · simp [textKeywords, SUPPORTED, ASSERTIONS, ANNOTATIONS, STRUCTURAL]
  · simp [textKeywords, SUPPORTED_TYPES]
  · simp [textKeywords, lookup_lit_ne]
  · simp [textKeywords, lookup_lit_ne]
  · simp [textKeywords, lookup_lit_ne]
  · simp [textKeywords, lookup_lit_ne]
  · simp [textKeywords, lookup_lit_ne]

theorem checked_part : Checked (fun _ => []) partsRegistry CANDIDATE_SCHEMA_ID partKeywords := by
  constructor
  · simp [partKeywords, SUPPORTED, ASSERTIONS, ANNOTATIONS, STRUCTURAL]
  · simp [partKeywords, lookup_lit_ne]
  · simp [partKeywords, lookup_lit_ne]
  · simp [partKeywords, lookup_lit_ne]
  · intro v hv
    have hv' : v = .str (lit "#/$defs/text") := by simpa [partKeywords] using hv.symm
    exact ⟨_, hv' ▸ resolve_part⟩
  · simp [partKeywords, lookup_lit_ne]
  · simp [partKeywords, lookup_lit_ne]

theorem checked_tags : Checked (fun _ => []) partsRegistry CANDIDATE_SCHEMA_ID tagsKeywords := by
  constructor
  · simp [tagsKeywords, SUPPORTED, ASSERTIONS, ANNOTATIONS, STRUCTURAL]
  · simp [tagsKeywords, lookup_lit_ne]
  · simp [tagsKeywords, lookup_lit_ne]
  · simp [tagsKeywords, lookup_lit_ne]
  · simp [tagsKeywords, lookup_lit_ne]
  · simp [tagsKeywords, lookup_lit_ne]
  · simp [tagsKeywords, lookup_lit_ne, check_schema_node_eq_ok, checked_part]

theorem build_parts : build_registry (fun _ => []) [.dict partsKeywords] = .ok partsRegistry := by
  refine build_candidate (by simp [partsKeywords]) ?_
  constructor
  · simp [partsKeywords, SUPPORTED, ASSERTIONS, ANNOTATIONS, STRUCTURAL]
  · simp [partsKeywords, lookup_lit_ne, SUPPORTED_TYPES]
  · simp [partsKeywords, lookup_lit_ne]
  · simp [partsKeywords, lookup_lit_ne]
  · simp [partsKeywords, lookup_lit_ne]
  · have htext := check_schema_node_eq_ok.mpr checked_text
    have hpart := check_schema_node_eq_ok.mpr checked_part
    have htags := check_schema_node_eq_ok.mpr checked_tags
    rw [partsRegistry] at htext hpart htags
    intro key hkey v hv
    rcases List.mem_pair.mp hkey with rfl | rfl
    · refine ⟨[(lit "name", .dict partKeywords), (lit "tags", .dict tagsKeywords)], ?_, ?_⟩
      · simpa [partsKeywords, lookup_lit_ne] using hv.symm
      · rintro m hm
        rcases List.mem_pair.mp hm with rfl | rfl
        · exact hpart
        · exact htags
    · refine ⟨[(lit "text", .dict textKeywords)], ?_, ?_⟩
      · simpa [partsKeywords, lookup_lit_ne] using hv.symm
      · rintro m hm
        rw [List.mem_singleton.mp hm]
        exact htext
  · simp [partsKeywords, lookup_lit_ne]

/-- The document and its parts. -/
def PartsSite (s : Site) : Prop :=
  s.identifier = CANDIDATE_SCHEMA_ID ∧ ∃ keywords, s.node = .dict keywords ∧
    (keywords = partsKeywords ∨ keywords = partKeywords ∨ keywords = tagsKeywords ∨
      keywords = textKeywords)

theorem PartsSite.lead {s t : Site} (hs : PartsSite s) (h : Leads partsRegistry s t) :
    PartsSite t := by
  obtain ⟨hid, keywords, hnode, hkeywords⟩ := hs
  cases h with
  | reference _ href hr =>
    rw [hid] at hr
    rw [hnode, refOf, Except.ok.injEq] at href
    rcases hkeywords with rfl | rfl | rfl | rfl
    · simp [partsKeywords, lookup_lit_ne] at href
    · obtain rfl : Value.str (lit "#/$defs/text") = _ := by simpa [partKeywords] using href
      cases resolve_part.symm.trans hr
      exact ⟨rfl, _, rfl, .inr (.inr (.inr rfl))⟩
    · simp [tagsKeywords, lookup_lit_ne] at href
    · simp [textKeywords, lookup_lit_ne] at href
  | property _ _ hp hl _ =>
    rw [hnode, propertiesOf, Value.get?_dict] at hp
    rcases hkeywords with rfl | rfl | rfl | rfl
    · obtain rfl : [(lit "name", Value.dict partKeywords), (lit "tags", .dict tagsKeywords)] = _ := by
        simpa [partsKeywords, lookup_lit_ne] using hp
      rcases List.mem_pair.mp (mem_of_lookup hl) with hm | hm
      · cases hm
        exact ⟨hid, _, rfl, .inr (.inl rfl)⟩
      · cases hm
        exact ⟨hid, _, rfl, .inr (.inr (.inl rfl))⟩
    · cases (show [] = _ by simpa [partKeywords, lookup_lit_ne] using hp)
      cases hl
    · cases (show [] = _ by simpa [tagsKeywords, lookup_lit_ne] using hp)
      cases hl
    · cases (show [] = _ by simpa [textKeywords, lookup_lit_ne] using hp)
      cases hl
  | additional _ _ _ _ ha =>
    rw [hnode, Value.get?_dict] at ha
    rcases hkeywords with rfl | rfl | rfl | rfl
    · simp [partsKeywords, lookup_lit_ne] at ha
    · simp [partKeywords, lookup_lit_ne] at ha
    · simp [tagsKeywords, lookup_lit_ne] at ha
    · simp [textKeywords, lookup_lit_ne] at ha
  | items _ _ hi =>
    rw [hnode, Value.get?_dict] at hi
    rcases hkeywords with rfl | rfl | rfl | rfl
    · simp [partsKeywords, lookup_lit_ne] at hi
    · simp [partKeywords, lookup_lit_ne] at hi
    · obtain rfl : partKeywords = _ := by simpa [tagsKeywords] using hi
      exact ⟨hid, _, rfl, .inr (.inl rfl)⟩
    · simp [textKeywords, lookup_lit_ne] at hi

theorem reaches_parts {s : Site}
    (hs : Reaches partsRegistry (.dict partsKeywords) CANDIDATE_SCHEMA_ID s) : PartsSite s := by
  have hreach := hs.1
  clear hs
  induction hreach with
  | refl => exact ⟨rfl, _, rfl, .inl rfl⟩
  | tail _ hlead ih => exact ih.lead hlead

theorem points_at_part :
    PointsAtSchema partsRegistry CANDIDATE_SCHEMA_ID (lit "#/$defs/text") := by
  have hdocument : documentOf (lit "#/$defs/text") CANDIDATE_SCHEMA_ID = CANDIDATE_SCHEMA_ID := by
    have hpart : (partition (lit "#/$defs/text") (.scalar '#')).1 = [] := by decide +kernel
    rw [documentOf, if_pos hpart]
  have hsteps : stepsOf (lit "#/$defs/text") = [lit "$defs", lit "text"] := by decide +kernel
  refine ⟨.dict partsKeywords, .dict textKeywords, ?_, ?_⟩
  · rw [hdocument]
    exact List.lookup_cons_self
  · rw [hsteps]
    have hparts : partsKeywords.lookup (lit "$defs") =
        some (.dict [(lit "text", .dict textKeywords)]) := by
      simp [partsKeywords, lookup_lit_ne]
    exact .named (by simp) hparts (by simp) (.here _)

theorem skipsNothing_parts : SkipsNothing partsRegistry := by
  intro id document hd s hs keywords hnode
  cases List.mem_singleton.mp (mem_of_lookup hd)
  obtain ⟨hid, keywords', hnode', hkeywords⟩ := reaches_parts hs
  cases hnode.symm.trans hnode'
  rw [hid]
  rcases hkeywords with rfl | rfl | rfl | rfl
  · constructor <;> simp [partsKeywords, lookup_lit_ne]
  · constructor
    · simp [partKeywords, ASSERTIONS]
    · intro reference hreference
      obtain rfl : lit "#/$defs/text" = reference := by simpa [partKeywords] using hreference
      exact points_at_part
    · simp [partKeywords, lookup_lit_ne]
    · simp [partKeywords, lookup_lit_ne]
    · simp [partKeywords, lookup_lit_ne]
  · constructor <;> simp [tagsKeywords, lookup_lit_ne]
  · constructor <;> simp [textKeywords, lookup_lit_ne]

/-- In a document with properties, items and references nothing is ignored. -/
theorem nothing_ignored_parts :
    build_registry (fun _ => []) [.dict partsKeywords] = .ok partsRegistry ∧
      NothingIgnored (fun _ => []) partsRegistry :=
  ⟨build_parts, (nothing_ignored_iff build_parts).mpr skipsNothing_parts⟩

/-- A document that is not what it looks like: neither its type is enforced, nor
the body of its annotation checked that validation goes by. -/
def skippedKeywords : List (Str × Value) :=
  [(lit "$id", .str CANDIDATE_SCHEMA_ID), (lit "type", .str (lit "object")),
   (lit "$ref", .str (lit "#/default")), (lit "default", .dict [(lit "maximum", .int 5)])]

def skippedRegistry : Registry := [(CANDIDATE_SCHEMA_ID, .dict skippedKeywords)]

theorem resolve_default : resolve (.str (lit "#/default")) CANDIDATE_SCHEMA_ID skippedRegistry =
    .ok (.dict [(lit "maximum", .int 5)], CANDIDATE_SCHEMA_ID) := by
  have hne : lit "#/default" ≠ [] := by decide +kernel
  have hpart : partition (lit "#/default") (.scalar '#') =
      ([], .scalar '/' :: lit "default") := by decide +kernel
  have hsplit : split (.scalar '/') (lit "default") = [lit "default"] := by decide +kernel
  have hstep : resolve_step (lit "#/default") (.dict skippedKeywords) (lit "default") =
      .ok (.dict [(lit "maximum", .int 5)]) := by
    have hplain : replacePair (.scalar '~') (.scalar '0') (.scalar '~')
        (replacePair (.scalar '~') (.scalar '1') (.scalar '/') (lit "default")) =
          lit "default" := by decide +kernel
    simp [resolve_step, hplain, skippedKeywords, lookup_lit_ne]
  simp only [resolve, hne, hpart, if_true, if_false, skippedRegistry, List.lookup_cons_self]
  simp only [ne_eq, not_true_eq_false, if_false, hsplit, List.foldlM_cons, List.foldlM_nil]
  rw [hstep]
  rfl

theorem build_skipped :
    build_registry (fun _ => []) [.dict skippedKeywords] = .ok skippedRegistry := by
  refine build_candidate (by simp [skippedKeywords]) ?_
  constructor
  · simp [skippedKeywords, SUPPORTED, ASSERTIONS, ANNOTATIONS, STRUCTURAL]
  · simp [skippedKeywords, lookup_lit_ne, SUPPORTED_TYPES]
  · simp [skippedKeywords, lookup_lit_ne]
  · simp [skippedKeywords, lookup_lit_ne]
  · intro v hv
    have hv' : v = .str (lit "#/default") := by simpa [skippedKeywords, lookup_lit_ne] using hv.symm
    exact ⟨_, hv' ▸ resolve_default⟩
  · simp [skippedKeywords, lookup_lit_ne]
  · simp [skippedKeywords, lookup_lit_ne]

theorem validate_skipped : validate_on FRAMES .null CANDIDATE_SCHEMA_ID skippedRegistry = .ok () := by
  have hcode : CODE_BY_ID.lookup CANDIDATE_SCHEMA_ID = some .candidate_schema_invalid := by
    simp [CODE_BY_ID, CANDIDATE_SCHEMA_ID]
  have href : refOf (.dict skippedKeywords) = .ok (some (.str (lit "#/default"))) := by
    simp [refOf, skippedKeywords, lookup_lit_ne]
  -- the target has no keyword that validation knows
  have htarget : ∀ frames ip sp, validate_node skippedRegistry .candidate_schema_invalid
      CANDIDATE_SCHEMA_ID (frames + 1) .null (.dict [(lit "maximum", .int 5)]) ip sp 0 = .ok () := by
    intro frames ip sp
    have hplain : refOf (.dict [(lit "maximum", .int 5)]) = .ok none := by
      simp [refOf, lookup_lit_ne]
    rw [validate_node, raiseIf_neg (by decide), hplain]
    simp only [ok_bind]
    rw [check_node_eq_ok]
    refine ⟨?_, rfl, ?_, ?_, rfl, rfl, rfl⟩
    · simp [check_type, lookup_lit_ne, pure, Except.pure]
    · simp [check_enum, lookup_lit_ne, pure, Except.pure]
    · simp [check_const, lookup_lit_ne, pure, Except.pure]
  have hlookup : skippedRegistry.lookup CANDIDATE_SCHEMA_ID = some (.dict skippedKeywords) :=
    List.lookup_cons_self
  simp only [validate_on, hlookup, hcode]
  rw [show FRAMES = 998 + 1 + 1 from rfl, validate_node, raiseIf_neg (by decide), href]
  simp only [ok_bind, resolve_default, string]
  exact htarget _ _ _

/-- A document is accepted that refers to the body of its annotation: the node
there has a keyword outside the subset, and the type that stands beside the
reference is violated by a value that passes. -/
theorem assertion_is_ignored :
    build_registry (fun _ => []) [.dict skippedKeywords] = .ok skippedRegistry ∧
    Reaches skippedRegistry (.dict skippedKeywords) CANDIDATE_SCHEMA_ID
      ⟨.dict [(lit "maximum", .int 5)], CANDIDATE_SCHEMA_ID, 0⟩ ∧
    check_schema_node (fun _ => []) skippedRegistry CANDIDATE_SCHEMA_ID
      (.dict [(lit "maximum", .int 5)]) ≠ .ok () ∧
    Violates skippedRegistry ⟨.null, .dict skippedKeywords, CANDIDATE_SCHEMA_ID, "$", 0⟩ "type" ∧
    validate_on FRAMES .null CANDIDATE_SCHEMA_ID skippedRegistry = .ok () := by
  refine ⟨build_skipped, ⟨.single (.reference (by decide) ?_ resolve_default), by decide⟩, ?_, ?_,
    validate_skipped⟩
  · simp [refOf, skippedKeywords, lookup_lit_ne]
  · rw [ne_eq, check_schema_node_eq_ok]
    intro h
    have := h.supported _ (List.mem_singleton_self _)
    simp [SUPPORTED, ASSERTIONS, ANNOTATIONS, STRUCTURAL] at this
  · have htype : (Value.dict skippedKeywords).get? "type" = some (.str (lit "object")) := by
      simp [skippedKeywords, lookup_lit_ne]
    exact .type htype (by decide)

end vfy.schema
