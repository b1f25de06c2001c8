-- Deterministic evaluation: a pinned rulebook, a candidate and a frozen
-- snapshot in, one ALLOW, BLOCK, HOLD or ERROR out, with an ordered trace.
-- Nothing here reads a clock, a file or the environment.
import VerifyRun.Operands

namespace vfy.gate

open python outcomes

def OUTCOME_SCHEMA_ID : Str := schema.OUTCOME_SCHEMA_ID
def CANDIDATE_SCHEMA_ID : Str := schema.CANDIDATE_SCHEMA_ID
def SNAPSHOT_SCHEMA_ID : Str := schema.SNAPSHOT_SCHEMA_ID

/-- The state of a rule or of an expression. -/
inductive State where
  | true
  | false
  | unsettled
deriving DecidableEq

/-- The text of a state in a trace. -/
def State.text : State → Str
  | .true => "true"
  | .false => "false"
  | .unsettled => "unsettled"

/-- The state of a settled question. -/
def settled (b : Bool) : State := if b then .true else .false

/-- Why a rule is unsettled. -/
inductive Cause where
  | evidence_unsettled (evidence_id : Str)
  | operand_unsettled
deriving DecidableEq

def Cause.code : Cause → Str
  | .evidence_unsettled _ => "evidence_unsettled"
  | .operand_unsettled => "operand_unsettled"

/-- `_FIXED_MESSAGES` of a cause. -/
def Cause.message : Cause → Str
  | .evidence_unsettled _ => "Evidence could not settle this rule."
  | .operand_unsettled => "An operand could not settle this rule."

/-- `_FIXED_MESSAGES` of a default outcome. -/
def DEFAULT_MESSAGE : Str := "No rule matched."

/-- `_RULE_CODES`. -/
def RULE_CODES : List (Str × Str) :=
  [("ALLOW", "rule_allow"), ("BLOCK", "rule_block"), ("HOLD", "rule_hold")]

/-- `_DEFAULT_CODES`. -/
def DEFAULT_CODES : List (Str × Str) :=
  [("BLOCK", "default_outcome_block"), ("HOLD", "default_outcome_hold")]

/-- `mapping[key]` of a mapping of the module. -/
def codeOf (mapping : List (Str × Str)) (key : Str) : Except Exn Str :=
  match mapping.lookup key with
  | some code => .ok code
  | none => .error .key_error

/-- One terminal result. Its canonical text is the authority. -/
structure EvaluationResult where
  canonical : Text
  outcome : Str
deriving DecidableEq

def EvaluationResult.canonical_bytes (result : EvaluationResult) : ByteArray :=
  (String.ofList result.canonical).toByteArray

/-- A fresh reconstruction of the result. -/
def EvaluationResult.value (result : EvaluationResult) : Except Exn Value :=
  load.load_json_bytes result.canonical_bytes

/-- Which strings of the inputs are the very object `UNSETTLED` of this module: those
that these segments lead to, from the candidate or from the value of an item. The
evaluator tells that object from equal strings, and the values do not show it. -/
structure Objects where
  candidate : List Value → Bool
  evidence : Str → List Value → Bool

/-- Inputs that were loaded: the loader makes every string anew. -/
def Objects.loaded : Objects where
  candidate _ := false
  evidence _ _ := false

/-- The recorded inputs of an evaluation. -/
structure Context where
  rulebook : Value
  candidate : Value
  declarations : List (Str × Value)
  items : List (Str × Value)
  frozen_at : Int
  objects : Objects

/-- `_Context.__init__`. -/
def contextWith (objects : Objects) (rulebook_value candidate snapshot : Value) :
    Except Exn Context := do
  let declarations ← byId (← getItem rulebook_value "evidence")
  let items ← byId (← getItem snapshot "items")
  let frozen_at ← rulebook.instant (← getItem snapshot "frozen_at")
  pure { rulebook := rulebook_value, candidate, declarations, items, frozen_at, objects }

/-- `_Context.__init__`, of inputs that were loaded. -/
def context_of (rulebook_value candidate snapshot : Value) : Except Exn Context :=
  contextWith .loaded rulebook_value candidate snapshot

/-! ## Evidence -/

/-- `item is not None and item["status"] == "ok"`. -/
def status_ok (item : Option Value) : Except Exn Bool :=
  match item with
  | none => pure false
  | some item => do
    let status ← getItem item "status"
    pure (isStr status "ok")

/-- `_item_ok`. -/
def item_ok (context : Context) (identifier : Str) : Except Exn Bool :=
  status_ok (context.items.lookup identifier)

/-- `context.items[identifier]`. -/
def itemAt (context : Context) (identifier : Str) : Except Exn Value :=
  match context.items.lookup identifier with
  | some item => .ok item
  | none => .error .key_error

/-- `_is_fresh`. -/
def is_fresh (context : Context) (identifier : Str) : Except Exn Bool := do
  if ¬ (← item_ok context identifier) then pure false
  else
    let declaration := (context.declarations.lookup identifier).getD (.dict [])
    match declaration.get? "max_age_seconds" with
    | none => pure true
    | some bound => do
      let acquired ← rulebook.instant (← getItem (← itemAt context identifier) "acquired_at")
      let age_nanoseconds := context.frozen_at - acquired
      pure (decide (age_nanoseconds ≤ (← number bound) * 1000000000))

/-! ## Expression evaluation -/

/-- A step of the evaluation of a rule. It notes the causes that it meets. -/
abbrev Evaluation (α : Type) := StateT (List Cause) (Except Exn) α

/-- A list of causes after one more is noted. -/
def noted (causes : List Cause) (cause : Cause) : List Cause :=
  if cause ∈ causes then causes else causes ++ [cause]

/-- `context.note`. -/
def note (cause : Cause) : Evaluation Unit := modify fun causes => noted causes cause

/-- `value[index]` of a list. -/
def listItem (items : List Value) (index : Int) : Except Exn Value :=
  let index := if index < 0 then index + items.length else index
  if index < 0 then .error .index_error
  else
    match items[index.toNat]? with
    | some v => .ok v
    | none => .error .index_error

/-- One step of `_descend`. -/
def descend_step (value : Resolved) (segment : Value) : Except Exn Resolved :=
  match value with
  | .value v =>
    match segment.get? "member" with
    | some name =>
      match v with
      | .dict members => do
        let name ← string name
        pure ((members.lookup name).elim .absent .value)
      | _ => pure .absent
    | none => do
      let index ← number (← getItem segment "index")
      match v with
      | .list items =>
        if index ≥ items.length then pure .absent
        else do
          let item ← listItem items index
          pure (.value item)
      | _ => pure .absent
  | value => pure value

/-- `_descend`. -/
def descend (value : Resolved) (segments : List Value) : Except Exn Resolved :=
  segments.foldlM descend_step value

/-- `UNSETTLED`. -/
def UNSETTLED : Str := "unsettled"

/-- What `is UNSETTLED` makes of what was found: a string may be that very object. -/
def identified (same : Bool) : Resolved → Resolved
  | .value (.str text) =>
    if same = true ∧ text = UNSETTLED then .unsettled else .value (.str text)
  | found => found

/-- `_resolve`. -/
def resolve (context : Context) (node : Value) : Evaluation Resolved := do
  if isStr (← getItem node "type") "literal" then do
    let value ← getItem node "value"
    pure (.value value)
  else do
    let root ← getItem node "root"
    let segments ← iterate (← getItem node "segments")
    if isStr root "evidence" then
      match segments with
      | [] => throw .index_error
      | first :: rest => do
        let identifier ← string (← getItem first "member")
        let item := context.items.lookup identifier
        if ← status_ok item then
          match (item.getD .null).get? "value" with
          | some value => do
            let found ← descend (.value value) rest
            pure (identified (context.objects.evidence identifier rest) found)
          | none => do
            note (.evidence_unsettled identifier)
            pure .unsettled
        else do
          note (.evidence_unsettled identifier)
          pure .unsettled
    else if isStr root "identity" then do
      let found ← descend ((context.candidate.get? "identity").elim .absent .value) segments
      let place := .dict [("member", .str "identity")] :: segments
      pure (identified (context.objects.candidate place) found)
    else do
      let found ← descend (.value context.candidate) segments
      pure (identified (context.objects.candidate segments) found)

/-- `_evaluate_compare`. -/
def evaluate_compare (context : Context) (node : Value) : Evaluation State := do
  let left ← resolve context (← getItem node "left")
  let right ← resolve context (← getItem node "right")
  match left, right with
  | .unsettled, _ => pure .unsettled
  | _, .unsettled => pure .unsettled
  | left, right => do
    let operator ← string (← getItem node "operator")
    if operator = lit "==" then pure (settled (equal left right))
    else if operator = lit "!=" then pure (settled (!equal left right))
    else
      let order :=
        match left, right with
        | .value v, .value w => compare_numeric v w
        | _, _ => none
      match order with
      | none => do
        note .operand_unsettled
        pure .unsettled
      | some order =>
        if operator = lit "<" then pure (settled (order < 0))
        else if operator = lit "<=" then pure (settled (order ≤ 0))
        else if operator = lit ">" then pure (settled (order > 0))
        else pure (settled (order ≥ 0))

/-- `_evaluate_membership`. -/
def evaluate_membership (context : Context) (node : Value) : Evaluation State := do
  let operand ← resolve context (← getItem node "operand")
  match operand with
  | .unsettled => pure .unsettled
  | operand => do
    let members ← iterate (← getItem (← getItem node "list") "value")
    let found := members.any fun member => equal operand (.value member)
    if isStr (← getItem node "operator") "in" then pure (settled found)
    else pure (settled (!found))

/-- `_evaluate_matches`. -/
def evaluate_matches (context : Context) (node : Value) : Evaluation State := do
  let value ← resolve context (← getItem node "path")
  match value with
  | .unsettled => pure .unsettled
  | .absent => pure .false
  | .value (.str text) => do
    let pattern ← string (← getItem node "pattern")
    pure (settled (glob pattern text))
  | .value _ => do
    note .operand_unsettled
    pure .unsettled

/-- `_combine`, where `child` evaluates an operand. -/
def combine (child : Value → Evaluation State) (operands : Value) (all_true : Bool) :
    Evaluation State := do
  let operands ← iterate operands
  let states ← operands.mapM child
  if .unsettled ∈ states then pure .unsettled
  else if all_true then pure (settled (states.all (· = .true)))
  else pure (settled (states.any (· = .true)))

/-- `_evaluate_node`, on a stack of so many frames. -/
def evaluate_node (context : Context) : Nat → Value → Evaluation State
  | 0, _ => throw .recursion_error
  | frames + 1, node => do
    let kind ← getItem node "type"
    if isStr kind "and" then
      combine (evaluate_node context frames) (← getItem node "operands") true
    else if isStr kind "or" then
      combine (evaluate_node context frames) (← getItem node "operands") false
    else if isStr kind "not" then do
      match ← evaluate_node context frames (← getItem node "operand") with
      | .unsettled => pure .unsettled
      | .true => pure .false
      | .false => pure .true
    else if isStr kind "present" then do
      let identifier ← string (← getItem node "evidence_id")
      pure (settled (← item_ok context identifier))
    else if isStr kind "fresh" then do
      let identifier ← string (← getItem node "evidence_id")
      pure (settled (← is_fresh context identifier))
    else if isStr kind "matches" then evaluate_matches context node
    else if isStr kind "membership" then evaluate_membership context node
    else if isStr kind "compare" then evaluate_compare context node
    else throw .assertion_error

/-! ## The walk over the rules -/

/-- The loop of `_rule_state` over the required evidence: the first id that is not ok. -/
def first_unsettled (context : Context) : List Value → Except Exn (Option Str)
  | [] => .ok none
  | identifier :: rest => do
    let identifier ← string identifier
    if ← item_ok context identifier then first_unsettled context rest
    else pure (some identifier)

/-- `_rule_state`: the state of a rule and the causes that it notes. -/
def rule_state (context : Context) (rule : Value) : Except Exn (State × List Cause) := do
  let needs ← iterate (← getOr rule "requires_evidence" (.list []))
  match ← first_unsettled context needs with
  | some identifier => pure (.unsettled, [.evidence_unsettled identifier])
  | none => do
    let parsed ← expr.parse_expression (← getItem rule "when")
    let ast ← parsed.ast
    evaluate_node context schema.FRAMES ast []

/-- `_result`. -/
def result (registry : schema.Registry) (outcome : Str) (reasons : List Value)
    (matched_rule : Option Str) (trace : Option (List Str)) : Except Exn EvaluationResult := do
  let document : Value := .dict
    ([(lit "outcome", .str outcome), (lit "reasons", .list reasons)] ++
      (matched_rule.map fun id => (lit "matched_rule", .str id)).toList ++
      (trace.map fun lines => (lit "trace", .list (lines.map .str))).toList)
  schema.validate document OUTCOME_SCHEMA_ID registry
  let canonical ← canon.canonicalize document
  pure { canonical, outcome }

/-- A reason of a result. -/
def reason (code message : Str) (rule_id evidence_id : Option Str) : Value := .dict
  ([(lit "code", .str code), (lit "message", .str message)] ++
    (rule_id.map fun id => (lit "rule_id", .str id)).toList ++
    (evidence_id.map fun id => (lit "evidence_id", .str id)).toList)

/-- The evidence id of a cause, if it has one. -/
def Cause.evidence_id : Cause → Option Str
  | .evidence_unsettled id => some id
  | .operand_unsettled => none

/-- The line of a rule in the trace. -/
def trace_line (ordinal : Nat) (rule_id : Str) (state : State) : Str :=
  ofText (canon.decimal ordinal) ++ lit ":" ++ rule_id ++ lit ":" ++ state.text

/-- `_walk`, from a rule on. -/
def walk (context : Context) (registry : schema.Registry) :
    List Value → Nat → List Str → Except Exn EvaluationResult
  | [], _, trace => do
    let outcome ← string (← getItem context.rulebook "default_outcome")
    let code ← codeOf DEFAULT_CODES outcome
    result registry outcome [reason code DEFAULT_MESSAGE none none] none (some trace)
  | rule :: rest, ordinal, trace => do
    let (state, causes) ← rule_state context rule
    let rule_id ← string (← getItem rule "id")
    let trace := trace ++ [trace_line ordinal rule_id state]
    match state with
    | .true => do
      let outcome ← string (← getItem rule "outcome")
      let code ← codeOf RULE_CODES outcome
      let message ← string (← getItem rule "reason")
      result registry outcome [reason code message (some rule_id) none] (some rule_id) (some trace)
    | .unsettled =>
      result registry "HOLD"
        (causes.map fun cause => reason cause.code cause.message (some rule_id) cause.evidence_id)
        none (some trace)
    | .false => walk context registry rest (ordinal + 1) trace

/-! ## Preparation -/

/-- What an `except VerifyError` makes of a check: no failure, or the typed one. -/
def caught (check : Except Exn Unit) : Except Exn (Option Failure) :=
  match check with
  | .ok () => .ok none
  | .error (.verify failure) => .ok (some failure)
  | .error e => .error e

/-- The first reason that a member of the list gives. -/
def first {α : Type} (step : α → Except Exn (Option Value)) : List α → Except Exn (Option Value)
  | [] => .ok none
  | a :: rest => do
    match ← step a with
    | some reason => pure (some reason)
    | none => first step rest

/-- The validation of one input. -/
def input_failure (registry : schema.Registry) (value : Value) (schema_id : Str) :
    Except Exn (Option Value) := do
  let failure ← caught (schema.validate value schema_id registry)
  pure (failure.map fun invalid => reason invalid.code.text invalid.message none none)

/-- The evidence order of one item. -/
def order_failure (frozen_at item : Value) : Except Exn (Option Value) := do
  let acquired ← rulebook.instant (← getItem item "acquired_at")
  let frozen ← rulebook.instant frozen_at
  if acquired > frozen then do
    let id ← string (← getItem item "id")
    pure (some (reason "evidence_order_invalid" "Evidence was acquired after the freeze." none
      (some id)))
  else pure none

/-- The parsing and the static check of one rule. -/
def rule_failure (pinned : rulebook.LoadedRulebook) (rule : Value) :
    Except Exn (Option Value) := do
  let failure ← caught (do
    let parsed ← expr.parse_expression (← getItem rule "when")
    expr.validate_expression parsed pinned)
  match failure with
  | none => pure none
  | some invalid => do
    let rule_id ← string (← getItem rule "id")
    pure (some (reason invalid.code.text invalid.message (some rule_id) none))

/-- `_prepare`: the first failure in the fixed order. -/
def prepare (pinned : rulebook.LoadedRulebook) (candidate snapshot : Value)
    (registry : schema.Registry) : Except Exn (Option Value) := do
  match ← input_failure registry candidate CANDIDATE_SCHEMA_ID with
  | some reason => pure (some reason)
  | none =>
    match ← input_failure registry snapshot SNAPSHOT_SCHEMA_ID with
    | some reason => pure (some reason)
    | none => do
      let frozen_at ← getItem snapshot "frozen_at"
      let items ← iterate (← getItem snapshot "items")
      match ← first (order_failure frozen_at) items with
      | some reason => pure (some reason)
      | none => do
        if ← rulebook.rulebook_applies pinned frozen_at then do
          let rules ← iterate (← getItem (← pinned.value) "rules")
          first (rule_failure pinned) rules
        else
          pure (some (reason "rulebook_not_adopted"
            "The rulebook was not adopted when this run started." none none))

/-- The terminal result for one candidate against one pinned rulebook and snapshot. -/
def evaluateWith (objects : Objects) (pinned : rulebook.LoadedRulebook)
    (candidate snapshot : Value) (registry : schema.Registry) : Except Exn EvaluationResult := do
  match candidate, snapshot with
  | .dict _, .dict _ =>
    match ← prepare pinned candidate snapshot registry with
    | some failure => result registry "ERROR" [failure] none none
    | none => do
      let context ← contextWith objects (← pinned.value) candidate snapshot
      let rules ← iterate (← getItem context.rulebook "rules")
      walk context registry rules 0 []
  | _, _ => .error .type_error

/-- The terminal result, for inputs that were loaded. -/
def evaluate (pinned : rulebook.LoadedRulebook) (candidate snapshot : Value)
    (registry : schema.Registry) : Except Exn EvaluationResult :=
  evaluateWith .loaded pinned candidate snapshot registry

end vfy.gate
