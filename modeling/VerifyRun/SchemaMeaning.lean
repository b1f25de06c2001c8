-- What a schema means, set against what validation does with it: which
-- assertions a value does not meet, each with its place in the documented
-- order, and that the failure raised is the first of them.
import VerifyRun.SchemaEnforcement
import VerifyRun.Equality
import VerifyRun.Calendar
import VerifyRun.Lib.FirstFailure

namespace vfy.schema

open python keys outcomes
open firstfailure (First Agrees Judged judged_ok judged_raiseIf judged_unseen judged_forM)

/-! ## The meaning of a schema -/

/-- The value of the call does not meet an assertion that applies to it: the
path and the keyword of the assertion, and its place. A place starts with the
rank of the keyword in the documented order, and then the number of the name,
the member in key order or the item; a reference stands for what it names. -/
inductive Unmet [re.Engine] (registry : Registry) : Call → List Nat → Str × Str → Prop where
  | reference {c : Call} {reference target : Value} {id : Str} {place : List Nat} {what : Str × Str}
      (href : refOf c.node = .ok (some reference))
      (hr : resolve reference c.identifier registry = .ok (target, id))
      (h : Unmet registry { c with node := target, identifier := id } place what) :
      Unmet registry c place what
  | type {c : Call} {declared : Str} (hk : c.node.get? "type" = some (.str declared))
      (h : type_of c.value ≠ declared) : Unmet registry c [0] (c.instance_path, "type")
  | required {c : Call} {names : List Str} {members : List (Str × Value)} {i : Nat} {name : Str}
      (hk : c.node.get? "required" = some (.list (names.map .str))) (hv : c.value = .dict members)
      (hn : names[i]? = some name) (h : members.lookup name = none) :
      Unmet registry c [1, i] (member c.instance_path name, "required")
  | declared {c : Call} {properties members : List (Str × Value)} {i : Nat} {m : Str × Value}
      {schema : Value} {place : List Nat} {what : Str × Str}
      (hp : propertiesOf c.node = some properties) (hv : c.value = .dict members)
      (hm : (sortByKey members)[i]? = some m) (hs : properties.lookup m.1 = some schema)
      (h : Unmet registry (c.child m.2 schema (member c.instance_path m.1)) place what) :
      Unmet registry c (2 :: i :: place) what
  | closed {c : Call} {properties members : List (Str × Value)} {i : Nat} {m : Str × Value}
      (hk : c.node.get? "additionalProperties" = some (.bool false))
      (hp : propertiesOf c.node = some properties) (hv : c.value = .dict members)
      (hm : (sortByKey members)[i]? = some m) (h : properties.lookup m.1 = none) :
      Unmet registry c [3, i] (member c.instance_path m.1, "additionalProperties")
  | undeclared {c : Call} {properties members additional : List (Str × Value)} {i : Nat}
      {m : Str × Value} {place : List Nat} {what : Str × Str}
      (hk : c.node.get? "additionalProperties" = some (.dict additional))
      (hp : propertiesOf c.node = some properties) (hv : c.value = .dict members)
      (hm : (sortByKey members)[i]? = some m) (hs : properties.lookup m.1 = none)
      (h : Unmet registry (c.child m.2 (.dict additional) (member c.instance_path m.1)) place what) :
      Unmet registry c (3 :: i :: place) what
  | enum {c : Call} {options : List Value} (hk : c.node.get? "enum" = some (.list options))
      (h : ∀ option ∈ options, ¬ Value.Same c.value option) :
      Unmet registry c [4] (c.instance_path, "enum")
  | const {c : Call} {constant : Value} (hk : c.node.get? "const" = some constant)
      (h : ¬ Value.Same c.value constant) : Unmet registry c [5] (c.instance_path, "const")
  | minItems {c : Call} {least : Int} {items : List Value}
      (hk : c.node.get? "minItems" = some (.int least)) (hv : c.value = .list items)
      (h : items.length < least) : Unmet registry c [6] (c.instance_path, "minItems")
  | items {c : Call} {schema : List (Str × Value)} {items : List Value} {i : Nat} {item : Value}
      {place : List Nat} {what : Str × Str} (hk : c.node.get? "items" = some (.dict schema))
      (hv : c.value = .list items) (hm : items[i]? = some item)
      (h : Unmet registry (c.child item (.dict schema) (indexed c.instance_path i)) place what) :
      Unmet registry c (7 :: i :: place) what
  | noItems {c : Call} {items : List Value} {i : Nat}
      (hk : c.node.get? "items" = some (.bool false)) (hv : c.value = .list items)
      (h : i < items.length) : Unmet registry c [7, i] (indexed c.instance_path i, "items")
  | minLength {c : Call} {least : Int} {s : Str} (hk : c.node.get? "minLength" = some (.int least))
      (hv : c.value = .str s) (h : s.length < least) :
      Unmet registry c [8] (c.instance_path, "minLength")
  | pattern {c : Call} {pattern s : Str} (hk : c.node.get? "pattern" = some (.str pattern))
      (hv : c.value = .str s) (h : re.fullmatch pattern s ≠ some true) :
      Unmet registry c [9] (c.instance_path, "pattern")
  | format {c : Call} {s : Str} (hk : c.node.get? "format" = some (.str (lit "date-time")))
      (hv : c.value = .str s) (h : ¬ ∃ u, rulebook.Denotes s u) :
      Unmet registry c [10] (c.instance_path, "format")
  | minimum {c : Call} {least i : Int} (hk : c.node.get? "minimum" = some (.int least))
      (hv : c.value = .int i) (h : i < least) : Unmet registry c [11] (c.instance_path, "minimum")

/-- The keywords of a node have the values that JSON Schema gives them, and a
reference stands alone and names a node of a schema. -/
structure Shaped (registry : Registry) (identifier : Str) (keywords : List (Str × Value)) :
    Prop where
  alone : ∀ reference, keywords.lookup (lit "$ref") = some reference →
    ∀ keyword ∈ ASSERTIONS, keywords.lookup keyword = none
  reference : ∀ reference, keywords.lookup (lit "$ref") = some (.str reference) →
    PointsAtSchema registry identifier reference
  type : ∀ v, keywords.lookup (lit "type") = some v → ∃ declared, v = .str declared
  required : ∀ v, keywords.lookup (lit "required") = some v →
    ∃ names : List Str, v = .list (names.map .str)
  additional : ∀ v, keywords.lookup (lit "additionalProperties") = some v →
    (∃ b, v = .bool b) ∨ ∃ schema, v = .dict schema
  items : ∀ v, keywords.lookup (lit "items") = some v →
    (∃ b, v = .bool b) ∨ ∃ schema, v = .dict schema
  enum : ∀ v, keywords.lookup (lit "enum") = some v → ∃ options, v = .list options
  least : ∀ keyword ∈ [lit "minItems", lit "minLength", lit "minimum"], ∀ v,
    keywords.lookup keyword = some v → ∃ least, v = .int least

/-! ## Equality -/

theorem equal_iff {v w : Value} (hv : v.DistinctKeys) (hw : w.DistinctKeys) :
    equal v w = true ↔ Value.Same v w := by
  induction v generalizing w with
  | null => cases w <;> simp [equal, eqBy, eqExact, gate.same_leaf]
  | bool b => cases w <;> simp [equal, eqBy, eqExact, gate.same_leaf]
  | int i => cases w <;> simp [equal, eqBy, eqExact, gate.same_leaf]
  | str s => cases w <;> simp [equal, eqBy, eqExact, gate.same_leaf]
  | list xs ih =>
    cases hw with
    | @list ys hys =>
      cases hv with
      | list hxs =>
        rw [Value.same_list_iff, equal, eqBy, eqItems_iff]
        exact gate.forall₂_congr_left fun x hx y hy => ih x hx (hxs x hx) (hys y hy)
    | _ => simp [equal, eqBy, eqExact, gate.not_same_list]
  | dict ms ih =>
    cases hw with
    | @dict ns hn hns =>
      cases hv with
      | dict hm hms =>
        rw [Value.same_dict_iff hm hn, equal, eqBy, Bool.and_eq_true, decide_eq_true_iff,
          eqMembers_iff]
        refine and_congr_right fun _ => forall₂_congr fun m hmem => exists_congr fun w => ?_
        exact and_congr_right fun hl => ih m hmem (hms m hmem) (hns _ (mem_of_lookup hl))
    | _ => simp [equal, eqBy, eqExact, gate.not_same_dict]

/-! ## The checks of a node, one for each rank -/

section

variable (spot : Spot) (child : Child) (value schema : Value)

/-- A check of the members of an object; any other value passes. -/
def onMembers (check : List (Str × Value) → Except Exn Unit) : Value → Except Exn Unit
  | .dict members => check members
  | _ => pure ()

def onItems (check : List Value → Except Exn Unit) : Value → Except Exn Unit
  | .list items => check items
  | _ => pure ()

def onText (check : Str → Except Exn Unit) : Value → Except Exn Unit
  | .str s => check s
  | _ => pure ()

theorem onMembers_congr {f g : List (Str × Value) → Except Exn Unit} {v : Value}
    (h : ∀ members, v = .dict members → f members = g members) : onMembers f v = onMembers g v := by
  cases v with
  | dict members => exact h members rfl
  | _ => rfl

theorem onItems_congr {f g : List Value → Except Exn Unit} {v : Value}
    (h : ∀ items, v = .list items → f items = g items) : onItems f v = onItems g v := by
  cases v with
  | list items => exact h items rfl
  | _ => rfl

def check_items (items : List Value) : Except Exn Unit :=
  match schema.get? "items" with
  | some (.dict item_schema) =>
    forM items.zipIdx fun item =>
      child item.1 (.dict item_schema) (indexed spot.instance_path item.2)
        (spot.schema_path ++ lit ".items")
  | _ => pure ()

theorem check_array_list (items : List Value) : check_array spot child (.list items) schema = (do
    check_least spot items.length schema "Array has too few items." "minItems"
    check_items spot child schema items) := rfl

/-- The checks of a node in the documented order. -/
def ranked [re.Engine] : List (Except Exn Unit) :=
  [check_type spot value schema,
   onMembers (fun members => check_required spot members schema) value,
   onMembers (fun members => check_declared spot child members schema) value,
   onMembers (fun members => check_undeclared spot child members schema) value,
   check_enum spot value schema,
   check_const spot value schema,
   onItems (fun items => check_least spot items.length schema "Array has too few items." "minItems")
     value,
   onItems (check_items spot child schema) value,
   onText (fun s => check_least spot s.length schema
     "String is shorter than the minimum length." "minLength") value,
   onText (fun s => check_pattern spot s schema) value,
   onText (fun s => check_format spot s schema) value,
   check_integer spot value schema]

variable {spot child value schema}

theorem check_node_eq [re.Engine] :
    check_node spot child value schema = forM (ranked spot child value schema) id := by
  cases value with
  | dict members =>
    simp [check_node, ranked, validate_object, onMembers, onItems, onText, check_array,
      check_string, check_integer]
  | list items =>
    simp [check_node, ranked, validate_object, onMembers, onItems, onText, check_array_list,
      check_string, check_integer]
  | _ =>
    simp [check_node, ranked, validate_object, onMembers, onItems, onText, check_array,
      check_string, check_integer]

end

/-! ## What each rank of a plain node says -/

section

variable [re.Engine] {registry : Registry} {c : Call} {rest : List Nat} {what : Str × Str}

theorem unmet_type (href : refOf c.node = .ok none) : Unmet registry c (0 :: rest) what ↔
    rest = [] ∧ what = (c.instance_path, lit "type") ∧
      ∃ declared, c.node.get? "type" = some (.str declared) ∧ type_of c.value ≠ declared := by
  constructor
  · intro h
    cases h with
    | reference href' => cases href.symm.trans href'
    | type hk h => exact ⟨rfl, rfl, _, hk, h⟩
  · rintro ⟨rfl, rfl, _, hk, h⟩
    exact .type hk h

theorem unmet_required (href : refOf c.node = .ok none) : Unmet registry c (1 :: rest) what ↔
    ∃ (names : List Str) (members : List (Str × Value)) (i : Nat) (name : Str),
      c.node.get? "required" = some (.list (names.map .str)) ∧ c.value = .dict members ∧
      names[i]? = some name ∧ members.lookup name = none ∧ rest = [i] ∧
      what = (member c.instance_path name, lit "required") := by
  constructor
  · intro h
    cases h with
    | reference href' => cases href.symm.trans href'
    | required hk hv hn h => exact ⟨_, _, _, _, hk, hv, hn, h, rfl, rfl⟩
  · rintro ⟨_, _, _, _, hk, hv, hn, h, rfl, rfl⟩
    exact .required hk hv hn h

theorem unmet_declared (href : refOf c.node = .ok none) : Unmet registry c (2 :: rest) what ↔
    ∃ (properties members : List (Str × Value)) (i : Nat) (m : Str × Value) (schema : Value)
      (place : List Nat), propertiesOf c.node = some properties ∧ c.value = .dict members ∧
      (sortByKey members)[i]? = some m ∧ properties.lookup m.1 = some schema ∧ rest = i :: place ∧
      Unmet registry (c.child m.2 schema (member c.instance_path m.1)) place what := by
  constructor
  · intro h
    cases h with
    | reference href' => cases href.symm.trans href'
    | declared hp hv hm hs h => exact ⟨_, _, _, _, _, _, hp, hv, hm, hs, rfl, h⟩
  · rintro ⟨_, _, _, _, _, _, hp, hv, hm, hs, rfl, h⟩
    exact .declared hp hv hm hs h

theorem unmet_undeclared (href : refOf c.node = .ok none) : Unmet registry c (3 :: rest) what ↔
    ∃ (properties members : List (Str × Value)) (i : Nat) (m : Str × Value),
      propertiesOf c.node = some properties ∧ c.value = .dict members ∧
      (sortByKey members)[i]? = some m ∧ properties.lookup m.1 = none ∧
      ((c.node.get? "additionalProperties" = some (.bool false) ∧ rest = [i] ∧
          what = (member c.instance_path m.1, lit "additionalProperties")) ∨
        ∃ (additional : List (Str × Value)) (place : List Nat),
          c.node.get? "additionalProperties" = some (.dict additional) ∧ rest = i :: place ∧
          Unmet registry (c.child m.2 (.dict additional) (member c.instance_path m.1)) place what) := by
  constructor
  · intro h
    cases h with
    | reference href' => cases href.symm.trans href'
    | closed hk hp hv hm h => exact ⟨_, _, _, _, hp, hv, hm, h, .inl ⟨hk, rfl, rfl⟩⟩
    | undeclared hk hp hv hm hs h => exact ⟨_, _, _, _, hp, hv, hm, hs, .inr ⟨_, _, hk, rfl, h⟩⟩
  · rintro ⟨_, _, _, _, hp, hv, hm, hs, ⟨hk, rfl, rfl⟩ | ⟨_, _, hk, rfl, h⟩⟩
    · exact .closed hk hp hv hm hs
    · exact .undeclared hk hp hv hm hs h

theorem unmet_enum (href : refOf c.node = .ok none) : Unmet registry c (4 :: rest) what ↔
    rest = [] ∧ what = (c.instance_path, lit "enum") ∧
      ∃ options, c.node.get? "enum" = some (.list options) ∧
        ∀ option ∈ options, ¬ Value.Same c.value option := by
  constructor
  · intro h
    cases h with
    | reference href' => cases href.symm.trans href'
    | enum hk h => exact ⟨rfl, rfl, _, hk, h⟩
  · rintro ⟨rfl, rfl, _, hk, h⟩
    exact .enum hk h

theorem unmet_const (href : refOf c.node = .ok none) : Unmet registry c (5 :: rest) what ↔
    rest = [] ∧ what = (c.instance_path, lit "const") ∧
      ∃ constant, c.node.get? "const" = some constant ∧ ¬ Value.Same c.value constant := by
  constructor
  · intro h
    cases h with
    | reference href' => cases href.symm.trans href'
    | const hk h => exact ⟨rfl, rfl, _, hk, h⟩
  · rintro ⟨rfl, rfl, _, hk, h⟩
    exact .const hk h

theorem unmet_minItems (href : refOf c.node = .ok none) : Unmet registry c (6 :: rest) what ↔
    rest = [] ∧ what = (c.instance_path, lit "minItems") ∧
      ∃ (least : Int) (items : List Value), c.node.get? "minItems" = some (.int least) ∧
        c.value = .list items ∧ items.length < least := by
  constructor
  · intro h
    cases h with
    | reference href' => cases href.symm.trans href'
    | minItems hk hv h => exact ⟨rfl, rfl, _, _, hk, hv, h⟩
  · rintro ⟨rfl, rfl, _, _, hk, hv, h⟩
    exact .minItems hk hv h

theorem unmet_items (href : refOf c.node = .ok none) : Unmet registry c (7 :: rest) what ↔
    ∃ (items : List Value) (i : Nat) (item : Value), c.value = .list items ∧
      items[i]? = some item ∧
      ((c.node.get? "items" = some (.bool false) ∧ rest = [i] ∧
          what = (indexed c.instance_path i, lit "items")) ∨
        ∃ (schema : List (Str × Value)) (place : List Nat),
          c.node.get? "items" = some (.dict schema) ∧ rest = i :: place ∧
          Unmet registry (c.child item (.dict schema) (indexed c.instance_path i)) place what) := by
  constructor
  · intro h
    cases h with
    | reference href' => cases href.symm.trans href'
    | items hk hv hm h => exact ⟨_, _, _, hv, hm, .inr ⟨_, _, hk, rfl, h⟩⟩
    | noItems hk hv h =>
      exact ⟨_, _, _, hv, List.getElem?_eq_getElem h, .inl ⟨hk, rfl, rfl⟩⟩
  · rintro ⟨_, _, _, hv, hm, ⟨hk, rfl, rfl⟩ | ⟨_, _, hk, rfl, h⟩⟩
    · exact .noItems hk hv (List.getElem?_eq_some_iff.mp hm).1
    · exact .items hk hv hm h

theorem unmet_minLength (href : refOf c.node = .ok none) : Unmet registry c (8 :: rest) what ↔
    rest = [] ∧ what = (c.instance_path, lit "minLength") ∧
      ∃ (least : Int) (s : Str), c.node.get? "minLength" = some (.int least) ∧
        c.value = .str s ∧ s.length < least := by
  constructor
  · intro h
    cases h with
    | reference href' => cases href.symm.trans href'
    | minLength hk hv h => exact ⟨rfl, rfl, _, _, hk, hv, h⟩
  · rintro ⟨rfl, rfl, _, _, hk, hv, h⟩
    exact .minLength hk hv h

theorem unmet_pattern (href : refOf c.node = .ok none) : Unmet registry c (9 :: rest) what ↔
    rest = [] ∧ what = (c.instance_path, lit "pattern") ∧
      ∃ (pattern s : Str), c.node.get? "pattern" = some (.str pattern) ∧ c.value = .str s ∧
        re.fullmatch pattern s ≠ some true := by
  constructor
  · intro h
    cases h with
    | reference href' => cases href.symm.trans href'
    | pattern hk hv h => exact ⟨rfl, rfl, _, _, hk, hv, h⟩
  · rintro ⟨rfl, rfl, _, _, hk, hv, h⟩
    exact .pattern hk hv h

theorem unmet_format (href : refOf c.node = .ok none) : Unmet registry c (10 :: rest) what ↔
    rest = [] ∧ what = (c.instance_path, lit "format") ∧
      ∃ s : Str, c.node.get? "format" = some (.str (lit "date-time")) ∧ c.value = .str s ∧
        ¬ ∃ u, rulebook.Denotes s u := by
  constructor
  · intro h
    cases h with
    | reference href' => cases href.symm.trans href'
    | format hk hv h => exact ⟨rfl, rfl, _, hk, hv, h⟩
  · rintro ⟨rfl, rfl, _, hk, hv, h⟩
    exact .format hk hv h

theorem unmet_minimum (href : refOf c.node = .ok none) : Unmet registry c (11 :: rest) what ↔
    rest = [] ∧ what = (c.instance_path, lit "minimum") ∧
      ∃ least i : Int, c.node.get? "minimum" = some (.int least) ∧ c.value = .int i ∧ i < least := by
  constructor
  · intro h
    cases h with
    | reference href' => cases href.symm.trans href'
    | minimum hk hv h => exact ⟨rfl, rfl, _, _, hk, hv, h⟩
  · rintro ⟨rfl, rfl, _, _, hk, hv, h⟩
    exact .minimum hk hv h

/-- A place of a plain node starts with the rank of a keyword. -/
theorem unmet_rank (href : refOf c.node = .ok none) {place : List Nat}
    (h : Unmet registry c place what) : ∃ i rest, place = i :: rest ∧ i < 12 := by
  cases h with
  | reference href' => cases href.symm.trans href'
  | _ => exact ⟨_, _, rfl, by decide⟩

end

/-! ## The checks of the keywords, judged -/

/-- The path and the keyword that a failure of this code reports. -/
def reported (code : Code) : Exn → Option (Str × Str)
  | .verify { code := raised, location := .document instance_path _ keyword, .. } =>
    if raised = code then some (instance_path, keyword) else none
  | _ => none

/-- Validation has no check for `items` that is a boolean. -/
def Sees (what : Str × Str) : Prop := what.2 ≠ lit "items"

/-- The outcome of a check of validation, against what is not met; a full stack
is no outcome. -/
abbrev Judges (code : Code) := Judged (reported code) Sees Exn.recursion_error

@[simp] theorem reported_failure (code : Code) (ip sp message keyword : Str) :
    reported code (Spot.failure ⟨code, ip, sp⟩ message keyword) = some (ip, keyword) := by
  simp [reported, Spot.failure]

@[simp] theorem reported_memberFailure (code : Code) (ip sp message name keyword : Str) :
    reported code (Spot.memberFailure ⟨code, ip, sp⟩ message name keyword) =
      some (member ip name, keyword) := by
  simp [reported, Spot.memberFailure]

section

variable [engine : re.Engine] {registry : Registry} {c : Call} {code : Code} {sp : Str}

/-- A keyword that says one thing of the value at hand. -/
theorem judges_keyword {i : Nat} {keyword message : Str} {p P : Prop} [Decidable p]
    (hseen : keyword ≠ lit "items")
    (hU : ∀ {rest what}, Unmet registry c (i :: rest) what ↔
      rest = [] ∧ what = (c.instance_path, keyword) ∧ P) (hp : p ↔ P) :
    Judges code (fun rest => Unmet registry c (i :: rest))
      (raiseIf p (Spot.failure ⟨code, c.instance_path, sp⟩ message keyword)) := by
  have hsees : Sees (c.instance_path, keyword) := hseen
  refine judged_raiseIf hsees (reported_failure _ _ _ _ _) fun place what => ?_
  rw [hU, hp]

theorem judges_type (href : refOf c.node = .ok none)
    (hshape : ∀ v, c.node.get? "type" = some v → ∃ declared, v = .str declared) :
    Judges code (fun rest => Unmet registry c (0 :: rest))
      (check_type ⟨code, c.instance_path, sp⟩ c.value c.node) := by
  unfold check_type
  cases hk : c.node.get? "type" with
  | none => exact judged_ok fun place what => by simp [unmet_type href, hk]
  | some v =>
    obtain ⟨declared, rfl⟩ := hshape v hk
    exact judges_keyword (by simp) (unmet_type href) (by simp [hk])

theorem judges_enum (href : refOf c.node = .ok none) (hv : c.value.DistinctKeys)
    (hd : c.node.DistinctKeys)
    (hshape : ∀ v, c.node.get? "enum" = some v → ∃ options, v = .list options) :
    Judges code (fun rest => Unmet registry c (4 :: rest))
      (check_enum ⟨code, c.instance_path, sp⟩ c.value c.node) := by
  unfold check_enum
  cases hk : c.node.get? "enum" with
  | none => exact judged_ok fun place what => by simp [unmet_enum href, hk]
  | some v =>
    obtain ⟨options, rfl⟩ := hshape v hk
    have hoptions := Value.distinctKeys_list.mp (hd.get? hk)
    have hequal : ¬ options.any (equal c.value) ↔ ∀ option ∈ options, ¬ Value.Same c.value option := by
      simp only [List.any_eq_true, not_exists, not_and]
      exact forall₂_congr fun option hoption => not_congr (equal_iff hv (hoptions option hoption))
    exact judges_keyword (by simp) (unmet_enum href) (hequal.trans (by simp [hk]))

theorem judges_const (href : refOf c.node = .ok none) (hv : c.value.DistinctKeys)
    (hd : c.node.DistinctKeys) :
    Judges code (fun rest => Unmet registry c (5 :: rest))
      (check_const ⟨code, c.instance_path, sp⟩ c.value c.node) := by
  unfold check_const
  cases hk : c.node.get? "const" with
  | none => exact judged_ok fun place what => by simp [unmet_const href, hk]
  | some constant =>
    have hequal := not_congr (equal_iff hv (hd.get? hk))
    exact judges_keyword (by simp) (unmet_const href) (hequal.trans (by simp [hk]))

/-- A keyword that is a least size of the values of a kind. -/
theorem judges_least {i : Nat} {keyword message : Str} {size : Int} {P : Prop}
    (hseen : keyword ≠ lit "items")
    (hU : ∀ {rest what}, Unmet registry c (i :: rest) what ↔
      rest = [] ∧ what = (c.instance_path, keyword) ∧ P)
    (hP : P ↔ ∃ least, c.node.get? keyword = some (.int least) ∧ size < least)
    (hshape : ∀ v, c.node.get? keyword = some v → ∃ least, v = .int least) :
    Judges code (fun rest => Unmet registry c (i :: rest))
      (check_least ⟨code, c.instance_path, sp⟩ size c.node message keyword) := by
  unfold check_least
  cases hk : c.node.get? keyword with
  | none => exact judged_ok fun place what => by simp [hU, hP, hk]
  | some v =>
    obtain ⟨least, rfl⟩ := hshape v hk
    exact judges_keyword hseen hU (by simp [hP, hk])

theorem judges_minItems (href : refOf c.node = .ok none)
    (hshape : ∀ v, c.node.get? "minItems" = some v → ∃ least, v = .int least) :
    Judges code (fun rest => Unmet registry c (6 :: rest))
      (onItems (fun items => check_least ⟨code, c.instance_path, sp⟩ items.length c.node
        "Array has too few items." "minItems") c.value) := by
  cases hv : c.value with
  | list items =>
    exact judges_least (by simp) (unmet_minItems href) (by simp [hv]) hshape
  | _ => exact judged_ok fun place what => by simp [unmet_minItems href, hv]

theorem judges_minLength (href : refOf c.node = .ok none)
    (hshape : ∀ v, c.node.get? "minLength" = some v → ∃ least, v = .int least) :
    Judges code (fun rest => Unmet registry c (8 :: rest))
      (onText (fun s => check_least ⟨code, c.instance_path, sp⟩ s.length c.node
        "String is shorter than the minimum length." "minLength") c.value) := by
  cases hv : c.value with
  | str s =>
    exact judges_least (by simp) (unmet_minLength href) (by simp [hv]) hshape
  | _ => exact judged_ok fun place what => by simp [unmet_minLength href, hv]

theorem judges_minimum (href : refOf c.node = .ok none)
    (hshape : ∀ v, c.node.get? "minimum" = some v → ∃ least, v = .int least) :
    Judges code (fun rest => Unmet registry c (11 :: rest))
      (check_integer ⟨code, c.instance_path, sp⟩ c.value c.node) := by
  cases hv : c.value with
  | int i =>
    exact judges_least (by simp) (unmet_minimum href) (by simp [hv]) hshape
  | _ => exact judged_ok fun place what => by simp [unmet_minimum href, hv]

theorem check_pattern_eq {spot : Spot} {schema : Value} {pattern s : Str}
    (hk : schema.get? "pattern" = some (.str pattern)) (hc : (engine.matcher pattern).isSome) :
    check_pattern spot s schema = raiseIf (re.fullmatch pattern s ≠ some true)
      (spot.failure "String does not match the required pattern." "pattern") := by
  obtain ⟨r, hr⟩ := Option.isSome_iff_exists.mp hc
  have hmatch : re.fullmatch pattern s = some (r s) := by simp [re.fullmatch, hr]
  unfold check_pattern
  simp only [hk, string, ok_bind, hmatch]
  cases r s <;> rfl

theorem judges_pattern (href : refOf c.node = .ok none)
    (hshape : ∀ v, c.node.get? "pattern" = some v →
      ∃ pattern, v = .str pattern ∧ (engine.matcher pattern).isSome) :
    Judges code (fun rest => Unmet registry c (9 :: rest))
      (onText (fun s => check_pattern ⟨code, c.instance_path, sp⟩ s c.node) c.value) := by
  cases hv : c.value with
  | str s =>
    dsimp only [onText]
    cases hk : c.node.get? "pattern" with
    | none =>
      rw [check_pattern, hk]
      exact judged_ok fun place what => by simp [unmet_pattern href, hk]
    | some v =>
      obtain ⟨pattern, rfl, hcompile⟩ := hshape v hk
      rw [check_pattern_eq hk hcompile]
      exact judges_keyword (by simp) (unmet_pattern href) (by simp [hk, hv])
  | _ => exact judged_ok fun place what => by simp [unmet_pattern href, hv]

theorem judges_format (href : refOf c.node = .ok none)
    (hshape : ∀ v, c.node.get? "format" = some v → v = .str (lit "date-time")) :
    Judges code (fun rest => Unmet registry c (10 :: rest))
      (onText (fun s => check_format ⟨code, c.instance_path, sp⟩ s c.node) c.value) := by
  cases hv : c.value with
  | str s =>
    dsimp only [onText]
    unfold check_format
    cases hk : c.node.get? "format" with
    | none => exact judged_ok fun place what => by simp [unmet_format href, hk]
    | some v =>
      obtain rfl := hshape v hk
      have hdate : (lit "date-time" = lit "date-time" ∧ ¬ is_date_time s) ↔
          ¬ ∃ u, rulebook.Denotes s u := by
        rw [← rulebook.is_date_time_iff_denotes]
        simp
      exact judges_keyword (by simp) (unmet_format href) (hdate.trans (by simp [hk, hv]))
  | _ => exact judged_ok fun place what => by simp [unmet_format href, hv]

omit engine in
theorem reported_stopped : reported code .recursion_error = none := rfl

theorem judges_required (href : refOf c.node = .ok none)
    (hshape : ∀ v, c.node.get? "required" = some v → ∃ names : List Str, v = .list (names.map .str)) :
    Judges code (fun rest => Unmet registry c (1 :: rest))
      (onMembers (fun members => check_required ⟨code, c.instance_path, sp⟩ members c.node)
        c.value) := by
  cases hv : c.value with
  | dict members =>
    dsimp only [onMembers]
    unfold check_required
    cases hk : c.node.get? "required" with
    | none => exact judged_ok fun place what => by simp [unmet_required href, hk]
    | some v =>
      obtain ⟨names, rfl⟩ := hshape v hk
      have hname : ∀ {i rest what}, Unmet registry c (1 :: i :: rest) what ↔
          ∃ name, names[i]? = some name ∧ rest = [] ∧
            what = (member c.instance_path name, lit "required") ∧ members.lookup name = none := by
        intro i rest what
        rw [unmet_required href]
        constructor
        · rintro ⟨names', members', i', name, hk', hv', hn, hl, hrest, hwhat⟩
          cases hv.symm.trans hv'
          cases hrest
          have hnames : names' = names :=
            (List.map_injective_iff.mpr fun _ _ => Value.str.inj) (Value.list.inj
              (Option.some.inj (hk'.symm.trans hk)))
          exact ⟨name, hnames ▸ hn, rfl, hwhat, hl⟩
        · rintro ⟨name, hn, rfl, hwhat, hl⟩
          exact ⟨names, members, i, name, hk, hv, hn, hl, rfl, hwhat⟩
      rw [Option.getD_some, iterate, ok_bind, forM_map]
      refine judged_forM reported_stopped ?_ ?_
      · intro place what h
        obtain ⟨_, _, i, _, _, _, _, _, rfl, _⟩ := (unmet_required href).mp h
        obtain ⟨name, hn, _⟩ := hname.mp h
        exact ⟨i, [], rfl, (List.getElem?_eq_some_iff.mp hn).1⟩
      · intro i hi
        have hsees : Sees (member c.instance_path names[i], lit "required") := by simp [Sees]
        refine judged_raiseIf hsees (reported_memberFailure _ _ _ _ _ _) fun rest what => ?_
        simp [hname, List.getElem?_eq_getElem hi]
  | _ => exact judged_ok fun place what => by simp [unmet_required href, hv]

section

variable {child : Child} {properties : List (Str × Value)}

theorem judges_declared (href : refOf c.node = .ok none) (hdepth : c.depth ≤ MAX_DEPTH)
    (hp : propertiesOf c.node = some properties)
    (ih : ∀ d, Calls registry c d → ∀ sp, Judges code (Unmet registry d)
      (child d.value d.node d.instance_path sp)) :
    Judges code (fun rest => Unmet registry c (2 :: rest))
      (onMembers (fun members => check_declared ⟨code, c.instance_path, sp⟩ child members c.node)
        c.value) := by
  cases hv : c.value with
  | dict members =>
    dsimp only [onMembers]
    rw [check_declared_eq hp]
    have hmember : ∀ {i rest what}, Unmet registry c (2 :: i :: rest) what ↔
        ∃ m schema, (sortByKey members)[i]? = some m ∧ properties.lookup m.1 = some schema ∧
          Unmet registry (c.child m.2 schema (member c.instance_path m.1)) rest what := by
      intro i rest what
      rw [unmet_declared href]
      constructor
      · rintro ⟨properties', members', i', m, schema, place, hp', hv', hm, hs, hrest, h⟩
        cases hp.symm.trans hp'
        cases hv.symm.trans hv'
        cases hrest
        exact ⟨m, schema, hm, hs, h⟩
      · rintro ⟨m, schema, hm, hs, h⟩
        exact ⟨_, _, _, _, _, _, hp, hv, hm, hs, rfl, h⟩
    refine judged_forM reported_stopped ?_ ?_
    · intro place what h
      obtain ⟨_, _, i, _, _, rest, _, hv', hm, _, rfl, _⟩ := (unmet_declared href).mp h
      cases hv.symm.trans hv'
      exact ⟨i, rest, rfl, (List.getElem?_eq_some_iff.mp hm).1⟩
    · intro i hi
      have hget := List.getElem?_eq_getElem hi
      split
      · rename_i schema hs
        refine (ih _ (.declared hdepth href hv hp (mem_sortByKey.mp (List.getElem_mem hi)) hs)
          _).congr fun rest what => ?_
        simp [hmember, hget, hs]
      · rename_i hs
        exact judged_ok fun rest what => by simp [hmember, hget, hs]
  | _ => exact judged_ok fun place what => by simp [unmet_declared href, hv]

theorem judges_undeclared (href : refOf c.node = .ok none) (hdepth : c.depth ≤ MAX_DEPTH)
    (hp : propertiesOf c.node = some properties)
    (hshape : ∀ v, c.node.get? "additionalProperties" = some v →
      (∃ b, v = .bool b) ∨ ∃ schema, v = .dict schema)
    (ih : ∀ d, Calls registry c d → ∀ sp, Judges code (Unmet registry d)
      (child d.value d.node d.instance_path sp)) :
    Judges code (fun rest => Unmet registry c (3 :: rest))
      (onMembers (fun members => check_undeclared ⟨code, c.instance_path, sp⟩ child members c.node)
        c.value) := by
  cases hv : c.value with
  | dict members =>
    dsimp only [onMembers]
    have hmember : ∀ {i rest what}, Unmet registry c (3 :: i :: rest) what ↔
        ∃ m, (sortByKey members)[i]? = some m ∧ properties.lookup m.1 = none ∧
          ((c.node.get? "additionalProperties" = some (.bool false) ∧ rest = [] ∧
              what = (member c.instance_path m.1, lit "additionalProperties")) ∨
            ∃ additional, c.node.get? "additionalProperties" = some (.dict additional) ∧
              Unmet registry (c.child m.2 (.dict additional) (member c.instance_path m.1)) rest
                what) := by
      intro i rest what
      rw [unmet_undeclared href]
      constructor
      · rintro ⟨_, _, _, m, hp', hv', hm, hs, h⟩
        cases hp.symm.trans hp'
        cases hv.symm.trans hv'
        rcases h with ⟨hk, hrest, hwhat⟩ | ⟨additional, place, hk, hrest, h⟩
        · cases hrest
          exact ⟨m, hm, hs, .inl ⟨hk, rfl, hwhat⟩⟩
        · cases hrest
          exact ⟨m, hm, hs, .inr ⟨additional, hk, h⟩⟩
      · rintro ⟨m, hm, hs, ⟨hk, rfl, hwhat⟩ | ⟨additional, hk, h⟩⟩
        · exact ⟨_, _, _, m, hp, hv, hm, hs, .inl ⟨hk, rfl, hwhat⟩⟩
        · exact ⟨_, _, _, m, hp, hv, hm, hs, .inr ⟨additional, _, hk, rfl, h⟩⟩
    have hplace : ∀ place what, Unmet registry c (3 :: place) what →
        ∃ i rest, place = i :: rest ∧ i < (sortByKey members).length := by
      intro place what h
      obtain ⟨_, _, i, _, _, hv', hm, _, h⟩ := (unmet_undeclared href).mp h
      cases hv.symm.trans hv'
      have hi := (List.getElem?_eq_some_iff.mp hm).1
      rcases h with ⟨_, rfl, _⟩ | ⟨_, rest, _, rfl, _⟩
      · exact ⟨i, [], rfl, hi⟩
      · exact ⟨i, rest, rfl, hi⟩
    have hnone : (∀ b, c.node.get? "additionalProperties" ≠ some (.bool b) ∨ b = true) →
        (∀ schema, c.node.get? "additionalProperties" ≠ some (.dict schema)) →
        ∀ place what, ¬ Unmet registry c (3 :: place) what := by
      intro hbool hdict place what h
      obtain ⟨_, _, _, _, _, _, _, _, ⟨hk, _⟩ | ⟨_, _, hk, _⟩⟩ := (unmet_undeclared href).mp h
      · rcases hbool false with hne | hb
        · exact hne hk
        · cases hb
      · exact hdict _ hk
    unfold check_undeclared
    simp only [isDeclared_eq hp, ok_bind, Bool.not_eq_true, Option.isSome_eq_false_iff]
    cases hk : c.node.get? "additionalProperties" with
    | none => exact judged_ok (hnone (by simp [hk]) (by simp [hk]))
    | some v =>
      rcases hshape v hk with ⟨b, rfl⟩ | ⟨additional, rfl⟩
      · cases b with
        | true => exact judged_ok (hnone (by simp [hk]) (by simp [hk]))
        | false =>
          refine judged_forM reported_stopped hplace fun i hi => ?_
          have hsees : Sees (member c.instance_path (sortByKey members)[i].1,
              lit "additionalProperties") := by simp [Sees]
          refine judged_raiseIf hsees (reported_memberFailure _ _ _ _ _ _) fun rest what => ?_
          constructor
          · intro h
            obtain ⟨m, hm, hs, ⟨_, hrest, hwhat⟩ | ⟨_, hk', _⟩⟩ := hmember.mp h
            · cases (List.getElem?_eq_getElem hi).symm.trans hm
              exact ⟨hrest, hwhat, Option.isNone_iff_eq_none.mpr hs⟩
            · cases hk.symm.trans hk'
          · rintro ⟨rfl, rfl, hs⟩
            exact hmember.mpr ⟨_, List.getElem?_eq_getElem hi, Option.isNone_iff_eq_none.mp hs,
              .inl ⟨hk, rfl, rfl⟩⟩
      · refine judged_forM reported_stopped hplace fun i hi => ?_
        have hget := List.getElem?_eq_getElem hi
        split
        · rename_i hs
          rw [Option.isNone_iff_eq_none] at hs
          have hnone' : isDeclared c.node (sortByKey members)[i].1 = .ok false := by
            rw [isDeclared_eq hp, hs, Option.isSome_none]
          refine (ih _ (.undeclared hdepth href hv (mem_sortByKey.mp (List.getElem_mem hi)) hnone' hk)
            _).congr fun rest what => ?_
          constructor
          · intro h
            exact hmember.mpr ⟨_, hget, hs, .inr ⟨additional, hk, h⟩⟩
          · intro h
            obtain ⟨m, hm, _, ⟨hk', _⟩ | ⟨_, hk', h⟩⟩ := hmember.mp h
            · cases hk.symm.trans hk'
            · cases hget.symm.trans hm
              cases hk.symm.trans hk'
              exact h
        · rename_i hs
          refine judged_ok fun rest what h => ?_
          obtain ⟨m, hm, hs', _⟩ := hmember.mp h
          cases hget.symm.trans hm
          exact hs (Option.isNone_iff_eq_none.mpr hs')
  | _ => exact judged_ok fun place what => by simp [unmet_undeclared href, hv]

theorem judges_items (href : refOf c.node = .ok none) (hdepth : c.depth ≤ MAX_DEPTH)
    (hshape : ∀ v, c.node.get? "items" = some v → (∃ b, v = .bool b) ∨ ∃ schema, v = .dict schema)
    (ih : ∀ d, Calls registry c d → ∀ sp, Judges code (Unmet registry d)
      (child d.value d.node d.instance_path sp)) :
    Judges code (fun rest => Unmet registry c (7 :: rest))
      (onItems (check_items ⟨code, c.instance_path, sp⟩ child c.node) c.value) := by
  cases hv : c.value with
  | list items =>
    dsimp only [onItems]
    have hitem : ∀ {i rest what}, Unmet registry c (7 :: i :: rest) what ↔
        ∃ item, items[i]? = some item ∧
          ((c.node.get? "items" = some (.bool false) ∧ rest = [] ∧
              what = (indexed c.instance_path i, lit "items")) ∨
            ∃ schema, c.node.get? "items" = some (.dict schema) ∧
              Unmet registry (c.child item (.dict schema) (indexed c.instance_path i)) rest what) := by
      intro i rest what
      rw [unmet_items href]
      constructor
      · rintro ⟨_, _, item, hv', hm, h⟩
        cases hv.symm.trans hv'
        rcases h with ⟨hk, hrest, hwhat⟩ | ⟨schema, place, hk, hrest, h⟩
        · cases hrest
          exact ⟨item, hm, .inl ⟨hk, rfl, hwhat⟩⟩
        · cases hrest
          exact ⟨item, hm, .inr ⟨schema, hk, h⟩⟩
      · rintro ⟨item, hm, ⟨hk, rfl, hwhat⟩ | ⟨schema, hk, h⟩⟩
        · exact ⟨_, _, item, hv, hm, .inl ⟨hk, rfl, hwhat⟩⟩
        · exact ⟨_, _, item, hv, hm, .inr ⟨schema, _, hk, rfl, h⟩⟩
    have hplace : ∀ place what, Unmet registry c (7 :: place) what →
        ∃ i rest, place = i :: rest ∧ i < items.length := by
      intro place what h
      obtain ⟨_, i, _, hv', hm, h⟩ := (unmet_items href).mp h
      cases hv.symm.trans hv'
      have hi := (List.getElem?_eq_some_iff.mp hm).1
      rcases h with ⟨_, rfl, _⟩ | ⟨_, rest, _, rfl, _⟩
      · exact ⟨i, [], rfl, hi⟩
      · exact ⟨i, rest, rfl, hi⟩
    unfold check_items
    cases hk : c.node.get? "items" with
    | none => exact judged_ok fun place what => by simp [unmet_items href, hk]
    | some v =>
      rcases hshape v hk with ⟨b, rfl⟩ | ⟨schema, rfl⟩
      · cases b with
        | true => exact judged_ok fun place what => by simp [unmet_items href, hk]
        | false =>
          cases items with
          | nil =>
            refine judged_ok fun place what h => ?_
            obtain ⟨i, _, _, hi⟩ := hplace place what h
            exact absurd hi (Nat.not_lt_zero i)
          | cons item items =>
            -- the first item is refused by the meaning, and by no check
            have hfirst : First (fun rest => Unmet registry c (7 :: rest)) [0]
                (indexed c.instance_path 0, lit "items") := by
              refine ⟨hitem.mpr ⟨item, rfl, .inl ⟨hk, rfl, rfl⟩⟩, fun place what h => ?_⟩
              obtain ⟨i, rest, rfl, _⟩ := hplace place what h
              obtain ⟨_, _, ⟨_, rfl, rfl⟩ | ⟨_, hk', _⟩⟩ := hitem.mp h
              · cases i with
                | zero => exact .inl ⟨rfl, rfl⟩
                | succ i => exact .inr (List.cons_lt_cons_iff.mpr (.inl (Nat.succ_pos i)))
              · cases hk.symm.trans hk'
            exact judged_unseen (by simp [Sees]) hfirst
      · refine judged_forM reported_stopped (by simpa using hplace) fun i hi => ?_
        have hi' : i < items.length := by simpa using hi
        have hget : items.zipIdx[i] = (items[i], i) := by simp
        have hmem : (items[i], i) ∈ items.zipIdx := hget ▸ List.getElem_mem hi
        have hcall : Calls registry c (c.child items[i] (.dict schema) (indexed c.instance_path i)) :=
          .item hdepth href hv hmem hk
        rw [hget]
        refine (ih _ hcall _).congr fun rest what => ?_
        constructor
        · intro h
          exact hitem.mpr ⟨_, List.getElem?_eq_getElem hi', .inr ⟨schema, hk, h⟩⟩
        · intro h
          obtain ⟨_, hm, ⟨hk', _⟩ | ⟨_, hk', h⟩⟩ := hitem.mp h
          · cases hk.symm.trans hk'
          · cases (List.getElem?_eq_getElem hi').symm.trans hm
            cases hk.symm.trans hk'
            exact h
  | _ => exact judged_ok fun place what => by simp [unmet_items href, hv]

end

/-- The properties of a node that passed can be read. -/
theorem Checked.properties {repr : Value → Str} {identifier : Str} {keywords : List (Str × Value)}
    (h : Checked repr registry identifier keywords) :
    ∃ properties, propertiesOf (.dict keywords) = some properties := by
  unfold propertiesOf
  rw [Value.get?_dict]
  cases hk : keywords.lookup (lit "properties") with
  | none => exact ⟨[], rfl⟩
  | some v =>
    obtain ⟨members, rfl, _⟩ := h.named _ (by simp) v hk
    exact ⟨members, rfl⟩

theorem Checked.compiles {repr : Value → Str} {identifier : Str} {keywords : List (Str × Value)}
    (h : Checked repr registry identifier keywords) : ∀ v, keywords.lookup (lit "pattern") = some v →
      ∃ pattern, v = .str pattern ∧ (engine.matcher pattern).isSome := by
  intro v hk
  obtain ⟨text, rfl, hcheck⟩ := h.pattern v hk
  obtain ⟨_, _, r, hr⟩ := pattern_of_ok hcheck
  exact ⟨text, rfl, by rw [hr, Option.isSome_some]⟩

theorem Checked.dateTime {repr : Value → Str} {identifier : Str} {keywords : List (Str × Value)}
    (h : Checked repr registry identifier keywords) : ∀ v, keywords.lookup (lit "format") = some v →
      v = .str (lit "date-time") := by
  intro v hk
  obtain ⟨f, hf, rfl⟩ := h.format v hk
  rw [List.mem_singleton.mp hf]

/-- What the checks of a plain node decide, and with which outcome. -/
theorem judges_node {repr : Value → Str} {keywords : List (Str × Value)} {child : Child}
    (hnode : c.node = .dict keywords) (href : refOf c.node = .ok none)
    (hdepth : c.depth ≤ MAX_DEPTH) (hchecked : Checked repr registry c.identifier keywords)
    (hshaped : Shaped registry c.identifier keywords) (hd : c.node.DistinctKeys)
    (hv : c.value.DistinctKeys)
    (ih : ∀ d, Calls registry c d → ∀ sp, Judges code (Unmet registry d)
      (child d.value d.node d.instance_path sp)) :
    Judges code (Unmet registry c) (check_node ⟨code, c.instance_path, sp⟩ child c.value c.node) := by
  have hget : ∀ k, c.node.get? k = keywords.lookup k := fun k => by rw [hnode, Value.get?_dict]
  obtain ⟨properties, hp⟩ := hchecked.properties
  rw [← hnode] at hp
  rw [check_node_eq]
  refine judged_forM reported_stopped (fun place what => unmet_rank href) fun i hi => ?_
  match i, hi with
  | 0, _ => exact judges_type href fun v hk => hshaped.type v (hget _ ▸ hk)
  | 1, _ => exact judges_required href fun v hk => hshaped.required v (hget _ ▸ hk)
  | 2, _ => exact judges_declared href hdepth hp ih
  | 3, _ => exact judges_undeclared href hdepth hp (fun v hk => hshaped.additional v (hget _ ▸ hk)) ih
  | 4, _ => exact judges_enum href hv hd fun v hk => hshaped.enum v (hget _ ▸ hk)
  | 5, _ => exact judges_const href hv hd
  | 6, _ => exact judges_minItems href fun v hk => hshaped.least _ (by simp) v (hget _ ▸ hk)
  | 7, _ => exact judges_items href hdepth (fun v hk => hshaped.items v (hget _ ▸ hk)) ih
  | 8, _ => exact judges_minLength href fun v hk => hshaped.least _ (by simp) v (hget _ ▸ hk)
  | 9, _ => exact judges_pattern href fun v hk => hchecked.compiles v (hget _ ▸ hk)
  | 10, _ => exact judges_format href fun v hk => hchecked.dateTime v (hget _ ▸ hk)
  | 11, _ => exact judges_minimum href fun v hk => hshaped.least _ (by simp) v (hget _ ▸ hk)

end

/-! ## The walk, judged -/

/-- A node that is a reference alone means what the node means that it names. -/
theorem unmet_reference [re.Engine] {registry : Registry} {c : Call} {reference target : Value} {id : Str}
    (href : refOf c.node = .ok (some reference))
    (hr : resolve reference c.identifier registry = .ok (target, id))
    (halone : ∀ keyword ∈ ASSERTIONS, c.node.get? keyword = none) {place : List Nat}
    {what : Str × Str} : Unmet registry c place what ↔
      Unmet registry { c with node := target, identifier := id } place what := by
  have hproperties : ∀ properties, propertiesOf c.node = some properties → properties = [] := by
    intro properties hp
    rw [propertiesOf, halone _ (by simp [ASSERTIONS])] at hp
    cases hp
    rfl
  constructor
  · intro h
    cases h with
    | reference href' hr' h =>
      cases href.symm.trans href'
      cases hr.symm.trans hr'
      exact h
    | declared hp _ _ hs =>
      rw [hproperties _ hp] at hs
      cases hs
    | type hk => cases (halone _ (by simp [ASSERTIONS])).symm.trans hk
    | required hk => cases (halone _ (by simp [ASSERTIONS])).symm.trans hk
    | closed hk => cases (halone _ (by simp [ASSERTIONS])).symm.trans hk
    | undeclared hk => cases (halone _ (by simp [ASSERTIONS])).symm.trans hk
    | enum hk => cases (halone _ (by simp [ASSERTIONS])).symm.trans hk
    | const hk => cases (halone _ (by simp [ASSERTIONS])).symm.trans hk
    | minItems hk => cases (halone _ (by simp [ASSERTIONS])).symm.trans hk
    | items hk => cases (halone _ (by simp [ASSERTIONS])).symm.trans hk
    | noItems hk => cases (halone _ (by simp [ASSERTIONS])).symm.trans hk
    | minLength hk => cases (halone _ (by simp [ASSERTIONS])).symm.trans hk
    | pattern hk => cases (halone _ (by simp [ASSERTIONS])).symm.trans hk
    | format hk => cases (halone _ (by simp [ASSERTIONS])).symm.trans hk
    | minimum hk => cases (halone _ (by simp [ASSERTIONS])).symm.trans hk
  · exact .reference href hr

theorem depth_lt_dict {members : List (Str × Value)} {m : Str × Value} (h : m ∈ members) :
    m.2.depth < (Value.dict members).depth := by
  rw [Value.depth]
  exact Nat.lt_succ_of_le (Value.depthMembers_le.mp le_rfl m h)

theorem depth_lt_list {items : List Value} {item : Value} (h : item ∈ items) :
    item.depth < (Value.list items).depth := by
  rw [Value.depth]
  exact Nat.lt_succ_of_le (Value.depthItems_le.mp le_rfl item h)

/-- A call goes down in the value as far as its depth grows. -/
theorem Calls.depth_le {registry : Registry} {c d : Call} (h : Calls registry c d) :
    d.depth + d.value.depth ≤ c.depth + c.value.depth := by
  cases h with
  | reference => exact le_rfl
  | declared _ _ hv _ hm =>
    have := depth_lt_dict hm
    rw [hv]
    dsimp only [Call.child]
    omega
  | undeclared _ _ hv hm =>
    have := depth_lt_dict hm
    rw [hv]
    dsimp only [Call.child]
    omega
  | item _ _ hv hm =>
    have := depth_lt_list (List.fst_mem_of_mem_zipIdx hm)
    rw [hv]
    dsimp only [Call.child]
    omega

theorem SchemaAt.distinctKeys {document node : Value} {steps : List Str}
    (h : SchemaAt document steps node) (hd : document.DistinctKeys) : node.DistinctKeys := by
  induction h with
  | here _ => exact hd
  | named _ hk hm _ ih =>
    have hmembers := (Value.distinctKeys_dict.mp hd).2 _ (mem_of_lookup hk)
    exact ih ((Value.distinctKeys_dict.mp hmembers).2 _ (mem_of_lookup hm))
  | nested _ hk _ ih => exact ih ((Value.distinctKeys_dict.mp hd).2 _ (mem_of_lookup hk))

/-- The validation of a value at a call, against what the call does not meet. -/
theorem judges_call [re.Engine] {repr : Value → Str} {documents : List Value} {registry : Registry} (code : Code)
    (hb : build_registry repr documents = .ok registry)
    (hdistinct : ∀ id document, registry.lookup id = some document → document.DistinctKeys)
    {id : Str} {document : Value} (hd : registry.lookup id = some document)
    (hshaped : ∀ s, Reaches registry document id s → ∀ keywords, s.node = .dict keywords →
      Shaped registry s.identifier keywords) (frames : Nat) :
    ∀ (c : Call) (sp : Str), Relation.ReflTransGen (Leads registry) ⟨document, id, 0⟩ c.site →
      c.value.Canonical → c.depth + c.value.depth ≤ MAX_DEPTH →
      Judges code (Unmet registry c)
        (validate_node registry code c.identifier frames c.value c.node c.instance_path sp
          c.depth) := by
  induction frames with
  | zero => exact fun c sp _ _ _ => .stopped rfl
  | succ frames ih =>
    intro c sp hreach hv hsize
    have hdepth : c.depth ≤ MAX_DEPTH := by omega
    have hsite : Reaches registry document id c.site := ⟨hreach, hdepth⟩
    have hwalked : Walked registry c.identifier c.node := hsite.walked hb hd
      fun s hs keywords reference hnode => (hshaped s hs keywords hnode).reference reference
    obtain ⟨keywords, hnode, hchecked⟩ := checked_of_ok (hwalked.checked hb)
    have hkeywords := hshaped c.site hsite keywords hnode
    have hnext : ∀ d, Calls registry c d → ∀ sp, Judges code (Unmet registry d)
        (validate_node registry code d.identifier frames d.value d.node d.instance_path sp
          d.depth) := by
      intro d hcall sp
      obtain ⟨hlead, hcanonical⟩ := hcall.leads hv
      exact ih d sp (hreach.tail hlead) hcanonical (hcall.depth_le.trans hsize)
    rw [validate_node, raiseIf_neg (by omega)]
    cases href : keywords.lookup (lit "$ref") with
    | some reference =>
      have href' : refOf c.node = .ok (some reference) := by rw [hnode, refOf, href]
      obtain ⟨⟨target, id'⟩, hr⟩ := hchecked.reference reference href
      have hcall : Calls registry c { c with node := target, identifier := id' } :=
        .reference hdepth href' hr
      have halone : ∀ keyword ∈ ASSERTIONS, c.node.get? keyword = none := by
        intro keyword hkeyword
        rw [hnode, Value.get?_dict]
        exact hkeywords.alone reference href keyword hkeyword
      cases reference with
      | str text =>
        rw [href']
        simp only [ok_bind, hr, string]
        exact (hnext _ hcall _).congr fun place what => (unmet_reference href' hr halone).symm
      | _ => cases hr
    | none =>
      have href' : refOf c.node = .ok none := by rw [hnode, refOf, href]
      obtain ⟨doc, steps, hdoc, hat⟩ := hwalked
      rw [href']
      refine judges_node hnode href' hdepth hchecked hkeywords
        (hat.distinctKeys (hdistinct _ _ hdoc)) hv.distinctKeys fun d hcall sp => ?_
      have hjudges := hnext d hcall sp
      cases hcall with
      | reference _ href'' => cases href'.symm.trans href''
      | declared => exact hjudges
      | undeclared => exact hjudges
      | item => exact hjudges

end vfy.schema
