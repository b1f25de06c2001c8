-- Observations of selected test cases: frozen selection and requirements, the
-- raw evidence of one attempt, and what a checker says of them. A check that
-- fails leaves the observation UNKNOWN, with its reason.
import VerifyRun.ServiceAttempt
import VerifyRun.Expr

namespace vfy.service_tests

open python keys outcomes child_ledger common_capacity managed_capacity engineer service_attempt

def PROFILE : Str := "vfy.service-test-observation/1"

/-! ## The vocabulary -/

/-- `OUTCOMES`. -/
inductive Outcome where
  | success
  | failure
  | error
  | skip
  | expected_failure
  | unexpected_success
deriving DecidableEq

def Outcome.text : Outcome → Str
  | .success => "success"
  | .failure => "failure"
  | .error => "error"
  | .skip => "skip"
  | .expected_failure => "expected_failure"
  | .unexpected_success => "unexpected_success"

def OUTCOMES : List Outcome :=
  [.success, .failure, .error, .skip, .expected_failure, .unexpected_success]

def outcomeOf (s : Str) : Option Outcome := OUTCOMES.find? fun o => o.text = s

/-- The state of an observation. -/
inductive State where
  | UNKNOWN
  | OBSERVED_SELECTED_CASES_SUCCESS
  | OBSERVED_SELECTED_CASES_NON_SUCCESS
deriving DecidableEq

def State.name : State → Str
  | .UNKNOWN => "UNKNOWN"
  | .OBSERVED_SELECTED_CASES_SUCCESS => "OBSERVED_SELECTED_CASES_SUCCESS"
  | .OBSERVED_SELECTED_CASES_NON_SUCCESS => "OBSERVED_SELECTED_CASES_NON_SUCCESS"

/-- `FLAGS` and `SCOPE`, as members. -/
def FLAGS : List (Str × Value) := [("authority_granted", .bool false), ("automatic_retry", .bool false)]
def SCOPE : List (Str × Value) :=
  [("semantic_acceptance", .str "UNESTABLISHED"), ("adoption", .str "UNESTABLISHED"),
   ("organizational_authority", .str "UNESTABLISHED")]

/-- `name`. -/
def name (v : Str) : Prop :=
  (0 < v.length ∧ v.length ≤ 1024) ∧ v = expr.strip v ∧ ∀ c ∈ v, ¬ c.ord < 32

instance (v : Str) : Decidable (name v) := inferInstanceAs (Decidable (_ ∧ _ ∧ _))

/-- A string, or a refusal that says this. -/
def stringOr (v : Value) (message : Str) : Checked Str :=
  match v with
  | .str s => pure s
  | _ => .error (.refused message)

/-- `names`: a list of identifiers, each once. -/
def names (v : Value) : Checked (List Str) :=
  match v with
  | .list items => do
    let ids ← items.mapM fun i => stringOr i "INVALID_ID_LIST"
    needOr (ids ≠ [] ∧ ∀ i ∈ ids, name i) "INVALID_ID_LIST"
    needOr ids.Nodup "DUPLICATE_SELECTED_ID"
    pure ids
  | _ => .error (.refused "INVALID_ID_LIST")

/-- The members of a mapping with exactly these keys, or a refusal that says this. -/
def exactly (v : Value) (keys : List Str) (message : Str) : Checked (List (Str × Value)) :=
  match v with
  | .dict members => do
    needOr (sameKeys members keys = true) message
    pure members
  | _ => .error (.refused message)

/-- A digest, or a refusal that says this. -/
def hex64Or (v : Value) (message : Str) : Checked Str := do
  let s ← stringOr v message
  needOr (hex64 s) message
  pure s

/-! ## The selection -/

/-- `limits`. -/
structure Limits where
  input_bytes : Nat
  cases : Nat
  requirements : Nat
  retained_bytes : Nat
deriving DecidableEq

def Limits.members (l : Limits) : List (Str × Nat) :=
  [("input_bytes", l.input_bytes), ("cases", l.cases), ("requirements", l.requirements),
   ("retained_bytes", l.retained_bytes)]

def Limits.value (l : Limits) : Value := .dict (l.members.map fun m => (m.1, .int m.2))

/-- What a selection selects. -/
structure Selection where
  requirements_sha256 : Str
  source_sha256 : Str
  examiner_sha256 : Str
  environment_sha256 : Str
  adapter_sha256 : Str
  capture_sha256 : Str
  runner_sha256 : Str
  labels : List Str
  case_ids : List Str
  requirement_cases : List (Str × List Str)

/-- `_bounded`, over the sizes of named inputs. -/
def bounded (limits : Limits) (inputs : List (Str × ByteArray)) : Checked Nat := do
  needOr (∀ i ∈ inputs, i.2.size ≤ MAX_BYTES) "INVALID_OR_OVERSIZED_INPUT"
  let count := (inputs.map fun i => i.2.size).sum
  needOr (count ≤ limits.input_bytes) "INPUT_BYTE_LIMIT"
  pure count

/-- The frozen requirements: the text of each. -/
def read_requirements (limits : Limits) (r : Value) : Checked (List (Str × Value)) := do
  let _ ← exactly r ["schema", "requirements"] "INVALID_FROZEN_REQUIREMENTS"
  needOr (isStr (← item r "schema") "vfy.service-requirements/1") "INVALID_FROZEN_REQUIREMENTS"
  match ← item r "requirements" with
  | .dict req => do
    needOr (0 < req.length ∧ req.length ≤ limits.requirements ∧ ∀ m ∈ req, name m.1)
      "INVALID_REQUIREMENTS_OR_LIMIT"
    let _ ← req.mapM fun m => do
      let text ← stringOr m.2 "INVALID_REQUIREMENTS_OR_LIMIT"
      needOr (expr.strip text ≠ []) "INVALID_REQUIREMENTS_OR_LIMIT"
    pure req
  | _ => .error (.refused "INVALID_REQUIREMENTS_OR_LIMIT")

def SELECTION_KEYS : List Str :=
  ["schema", "labels", "case_ids", "requirement_cases", "requirements_sha256", "source_sha256",
   "examiner_sha256", "environment_sha256", "adapter_sha256", "capture_sha256", "runner_sha256",
   "authority_granted", "automatic_retry"]

/-- `set().union(*cases) == set(case_ids)`. -/
def covers (cases : List (Str × List Str)) (case_ids : List Str) : Prop :=
  (∀ c ∈ cases, ∀ i ∈ c.2, i ∈ case_ids) ∧ ∀ i ∈ case_ids, ∃ c ∈ cases, i ∈ c.2

instance (cases : List (Str × List Str)) (case_ids : List Str) : Decidable (covers cases case_ids) :=
  inferInstanceAs (Decidable (_ ∧ _))

/-- The cases of each requirement, exactly those that are selected. -/
def read_mapping (mapping : Value) (req : List (Str × Value)) (case_ids : List Str) :
    Checked (List (Str × List Str)) :=
  match mapping with
  | .dict members => do
    needOr (sameKeys members (req.map Prod.fst) = true) "REQUIREMENT_MAPPING_NOT_EXACT"
    let requirement_cases ← members.mapM fun m => do pure (m.1, ← names m.2)
    needOr (covers requirement_cases case_ids) "CASE_MAPPING_NOT_EXACT"
    pure requirement_cases
  | _ => .error (.refused "REQUIREMENT_MAPPING_NOT_EXACT")

/-- The selection, of frozen requirements and a runner. -/
def read_selection (limits : Limits) (q : Value) (req : List (Str × Value))
    (requirements_bytes runner_bytes : ByteArray) : Checked Selection := do
  let _ ← exactly q SELECTION_KEYS "INVALID_SELECTION"
  needOr (isStr (← item q "schema") "vfy.service-test-selection/1") "INVALID_SELECTION"
  needOr (isFalseValue (← item q "authority_granted")) "INVALID_SELECTION"
  needOr (isFalseValue (← item q "automatic_retry")) "INVALID_SELECTION"
  let hash (key : Str) : Checked Str := do hex64Or (← item q key) "SELECTED_BYTES_MISMATCH"
  let requirements_sha256 ← hash "requirements_sha256"
  let source_sha256 ← hash "source_sha256"
  let examiner_sha256 ← hash "examiner_sha256"
  let environment_sha256 ← hash "environment_sha256"
  let adapter_sha256 ← hash "adapter_sha256"
  let capture_sha256 ← hash "capture_sha256"
  let runner_sha256 ← hash "runner_sha256"
  needOr (requirements_sha256 = sha requirements_bytes ∧ runner_sha256 = sha runner_bytes)
    "SELECTED_BYTES_MISMATCH"
  let labels ← names (← item q "labels")
  let case_ids ← names (← item q "case_ids")
  needOr (case_ids.length ≤ limits.cases) "SELECTED_CASE_LIMIT"
  let requirement_cases ← read_mapping (← item q "requirement_cases") req case_ids
  pure { requirements_sha256, source_sha256, examiner_sha256, environment_sha256, adapter_sha256,
         capture_sha256, runner_sha256, labels, case_ids, requirement_cases }

/-- The checks of `__init__` on what is selected. -/
def read_selected (limits : Limits) (selection_bytes requirements_bytes runner_bytes : ByteArray) :
    Checked (Selection × List (Str × Value)) := do
  needOr (∀ m ∈ limits.members, integer m.2 ∧ 0 < m.2) "INVALID_SELECTED_LIMITS"
  let _ ← bounded limits [("selection_bytes", selection_bytes),
    ("requirements_bytes", requirements_bytes), ("runner_bytes", runner_bytes)]
  let q ← lift (load.load_json_bytes selection_bytes)
  let r ← lift (load.load_json_bytes requirements_bytes)
  let req ← read_requirements limits r
  let selection ← read_selection limits q req requirements_bytes runner_bytes
  pure (selection, req)

/-- `TestObservationChecker`. Its selection and requirements were read from its
own bytes. `source` is the module's own file. -/
structure TestObservationChecker where
  pool : ServicePool
  source : ByteArray
  limits : Limits
  selection_bytes : ByteArray
  requirements_bytes : ByteArray
  runner_bytes : ByteArray
  selection : Selection
  requirements : List (Str × Value)
  read : read_selected limits selection_bytes requirements_bytes runner_bytes =
    .ok (selection, requirements)

/-- `TestObservationChecker.__init__`. -/
def init (pool : ServicePool) (source : ByteArray) (limits : Limits)
    (selection_bytes requirements_bytes runner_bytes : ByteArray) : Checked TestObservationChecker :=
  match read : read_selected limits selection_bytes requirements_bytes runner_bytes with
  | .ok (selection, requirements) =>
    .ok { pool := pool, source, limits, selection_bytes, requirements_bytes, runner_bytes,
          selection, requirements, read }
  | .error e => .error e

/-! ## The accounting -/

/-- A hexadecimal digit of either case. -/
def hexDigit? (c : CodePoint) : Option Nat :=
  let n := c.ord
  if 48 ≤ n ∧ n ≤ 57 then some (n - 48)
  else if 97 ≤ n ∧ n ≤ 102 then some (n - 87)
  else if 65 ≤ n ∧ n ≤ 70 then some (n - 55)
  else none

/-- `bytes.fromhex`, which skips white space between the bytes. -/
def fromhex : Str → Option (List UInt8)
  | [] => some []
  | c :: rest =>
    if c.ord = 32 ∨ (9 ≤ c.ord ∧ c.ord ≤ 13) then fromhex rest
    else match rest with
      | [] => none
      | d :: rest => do
        let high ← hexDigit? c
        let low ← hexDigit? d
        let bytes ← fromhex rest
        pure (UInt8.ofNat (high * 16 + low) :: bytes)

def hexBytes (v : Value) : Checked ByteArray :=
  match v with
  | .str s =>
    match fromhex s with
    | some bytes => pure ⟨bytes.toArray⟩
    | none => .error (.raised .value_error)
  | _ => .error (.raised .type_error)

/-- A member that is a string or null. -/
def stringOrNull (v : Value) : Checked (Option Str) :=
  match v with
  | .null => pure none
  | v => some <$> stringOf v

def STATES : List EntryState :=
  [.ADMITTED, .CONSUMED, .UNKNOWN, .OBSERVED_EXIT_ZERO, .OBSERVED_EXIT_NONZERO, .OBSERVED_SIGNAL]

def stateOf (v : Value) : Checked EntryState := do
  let s ← stringOf v
  match STATES.find? fun state => state.name = s with
  | some state => pure state
  | none => .error (.refused REFUSED)

/-- `set(v)` of a list is exactly these names. -/
def listed (items : List Value) (names : List Str) : Prop :=
  (∀ i ∈ items, ∃ n ∈ names, isStr i n = true) ∧ ∀ n ∈ names, ∃ i ∈ items, isStr i n = true

instance (items : List Value) (names : List Str) : Decidable (listed items names) :=
  inferInstanceAs (Decidable (_ ∧ _))

/-- Why an attempt is unknown, as an entry carries it. A list of the two keys has
the right set, and no values. -/
def unknownOf (v : Value) : Checked (Option Unknown) :=
  match v with
  | .null => pure none
  | .list items =>
    if listed items ["reason", "recorded_at"] then .error (.raised .attribute_error)
    else .error (.refused REFUSED)
  | v => do
    let _ ← needKeys v ["reason", "recorded_at"]
    pure (some { reason := ← textOf (← item v "reason"),
                 recorded_at := ← textOf (← item v "recorded_at") })

/-- A result, as an entry carries it. -/
def resultOf (v : Value) : Checked (Option service_attempt.Result) :=
  match v with
  | .null => pure none
  | v => do
    let _ ← needKeys v ["result_sha256", "stdout_sha256", "stderr_sha256", "stdout_bytes",
      "stderr_bytes", "exit", "classification", "recorded_at"]
    pure (some { result_sha256 := ← hex64Of (← item v "result_sha256"),
                 stdout_sha256 := ← hex64Of (← item v "stdout_sha256"),
                 stderr_sha256 := ← hex64Of (← item v "stderr_sha256"),
                 stdout_bytes := ← integerOf (← item v "stdout_bytes"),
                 stderr_bytes := ← integerOf (← item v "stderr_bytes"),
                 exit := ← exitOf (← item v "exit"),
                 classification := ← stateOf (← item v "classification"),
                 recorded_at := ← textOf (← item v "recorded_at") })

/-- What an entry of a snapshot says of its admission. -/
structure Admission where
  request_raw : ByteArray
  request : service_attempt.Request
  recorded_at : Str
  state : EntryState
  approval_raw : ByteArray

/-- An entry up to its approval: its request was not charged before. -/
def read_admission (P : ServicePool) (seen : service_attempt.Seen) (v : Value) : Checked Admission := do
  let _ ← needKeys v ["request_raw_hex", "request_sha256", "approval_raw_hex", "approval_sha256",
    "recorded_at", "consumed_at", "start_sha256", "state", "unknown", "result"]
  let request_raw ← hexBytes (← item v "request_raw_hex")
  let request ← read_request P request_raw
  let request_sha256 ← stringOf (← item v "request_sha256")
  let recorded_at ← textOf (← item v "recorded_at")
  let state ← stateOf (← item v "state")
  need (request_sha256 = sha request_raw)
  needOr (request.attempt_id ∉ seen.ids ∧ request.attempt_root ∉ seen.roots ∧
    request.preview_sha256 ∉ seen.previews) "Attempt, root or PREVIEW already charged; no replay."
  let approval_raw ← hexBytes (← item v "approval_raw_hex")
  let approval_sha256 ← stringOf (← item v "approval_sha256")
  need (approval_sha256 = sha approval_raw)
  pure { request_raw, request, recorded_at, state, approval_raw }

/-- The entry of an admission, up to its start. -/
def read_start (a : Admission) (v : Value) : Checked service_attempt.Entry := do
  let e : service_attempt.Entry :=
    { request_raw := a.request_raw, request_sha256 := sha a.request_raw
      approval_raw := a.approval_raw, approval_sha256 := sha a.approval_raw
      recorded_at := a.recorded_at, consumed_at := ← stringOrNull (← item v "consumed_at")
      start_sha256 := ← stringOrNull (← item v "start_sha256"), state := a.state
      unknown := none, result := none }
  check_consumption e
  pure e

/-- One turn of the loop of `_validate`, over an entry of a snapshot. -/
def read_entry (P : ServicePool) (seen : service_attempt.Seen) (v : Value) :
    Checked (service_attempt.Entry × service_attempt.Seen) := do
  let a ← read_admission P seen v
  check_approval P a.approval_raw a.request_raw a.request
  let e ← read_start a v
  let unknown ← unknownOf (← item v "unknown")
  let e := { e with unknown }
  check_unknown e
  let result ← resultOf (← item v "result")
  let e := { e with result }
  check_observation a.request e
  need (e.state = e.expected)
  pure (e, { ids := seen.ids ++ [a.request.attempt_id], roots := seen.roots ++ [a.request.attempt_root],
             previews := seen.previews ++ [a.request.preview_sha256], events := seen.events + e.events })

/-- The loop of `_validate`: the entries, and what was seen of them. -/
def read_entries (P : ServicePool) (seen : service_attempt.Seen) :
    List Value → Checked (List service_attempt.Entry × service_attempt.Seen)
  | [] => pure ([], seen)
  | v :: items => do
    let (e, seen) ← read_entry P seen v
    let (entries, seen) ← read_entries P seen items
    pure (e :: entries, seen)

/-- What a snapshot says besides its entries, which are not looked at yet. -/
structure Snapshot where
  service_identity : Value
  revision : Nat
  previous : Str
  items : List Value

/-- The record of a snapshot, as it stands there. -/
def recordOf (data : ByteArray) : Checked (Envelope Value) := do
  envelopeOf (← lift (load.load_json_bytes data))

/-- `_validate`, up to the loop over the entries. -/
def read_snapshot (P : ServicePool) (data : ByteArray) : Checked Snapshot := do
  let record ← recordOf data
  let b ← authenticate P.owner.host record P.owner.trust
  need (record.issuer_identity = P.owner.issuer)
  let _ ← needKeys b ["schema", "pool_root", "policy_sha256", "service_identity",
    "predecessor_raw_hex", "entries", "revision", "previous", "authority_granted", "automatic_retry"]
  let schema ← item b "schema"
  let pool_root ← item b "pool_root"
  let policy_sha256 ← item b "policy_sha256"
  let service_identity ← item b "service_identity"
  let predecessor_raw_hex ← item b "predecessor_raw_hex"
  let authority_granted ← item b "authority_granted"
  let automatic_retry ← item b "automatic_retry"
  need (isStr schema service_attempt.PROFILE ∧ isStr pool_root P.root ∧
    isStr policy_sha256 (sha P.policy_bytes) ∧ python.eq service_identity P.profile ∧
    isStr predecessor_raw_hex (hexOf P.head) ∧ isFalseValue authority_granted ∧
    isFalseValue automatic_retry)
  let revision ← integerOf (← item b "revision")
  let previous ← hex64Of (← item b "previous")
  match ← item b "entries" with
  | .list items => pure { service_identity, revision, previous, items }
  | _ => .error (.refused REFUSED)

/-- `verify_snapshot`, over the bytes of a snapshot: the entries that it has. -/
def verify_snapshot (P : ServicePool) (data : ByteArray) : Checked (List service_attempt.Entry) := do
  let s ← read_snapshot P data
  let (entries, seen) ← read_entries P ⟨[], [], [], 1⟩ s.items
  need (s.revision = P.predecessor.revision + seen.events)
  let _ ← totals P { pool_root := P.root, policy_sha256 := sha P.policy_bytes,
                     service_identity := s.service_identity, predecessor_raw := P.head, entries
                     revision := s.revision, previous := s.previous }
  pure entries

/-! ## The evidence of an attempt -/

/-- The raw evidence that a check is given. -/
@[ext] structure Evidence where
  preview_bytes : ByteArray
  start_bytes : ByteArray
  result_bytes : ByteArray
  stdout_bytes : ByteArray
  stderr_bytes : ByteArray
  accounting_snapshot_bytes : ByteArray
  request_sha256 : Str
deriving DecidableEq

def Evidence.members (E : Evidence) : List (Str × ByteArray) :=
  [("preview_bytes", E.preview_bytes), ("start_bytes", E.start_bytes),
   ("result_bytes", E.result_bytes), ("stdout_bytes", E.stdout_bytes),
   ("stderr_bytes", E.stderr_bytes), ("accounting_snapshot_bytes", E.accounting_snapshot_bytes)]

/-- One reported case. -/
structure Event where
  id : Str
  outcome : Outcome

/-- The structured report: all of stdout. -/
structure Report where
  value : Value
  preview_sha256 : Str
  events : List Event
  tests_run : Nat
  completed : Bool
  successful : Bool

/-- `integer`, or a refusal that says this. -/
def integerOr (v : Value) (message : Str) : Checked Nat :=
  match v with
  | .int i => do
    needOr (0 ≤ i ∧ integer i.toNat) message
    pure i.toNat
  | _ => .error (.refused message)

def boolOr (v : Value) (message : Str) : Checked Bool :=
  match v with
  | .bool b => pure b
  | _ => .error (.refused message)

def eventOf (v : Value) : Checked Event := do
  let _ ← exactly v ["id", "outcome"] "INVALID_REPORT_EVENT"
  let id ← stringOr (← item v "id") "INVALID_REPORT_EVENT"
  needOr (name id) "INVALID_REPORT_EVENT"
  let outcome ← stringOr (← item v "outcome") "INVALID_REPORT_EVENT"
  match outcomeOf outcome with
  | some outcome => pure { id, outcome }
  | none => .error (.refused "INVALID_REPORT_EVENT")

def read_report (limits : Limits) (stdout_bytes : ByteArray) : Checked Report := do
  let report ← lift (load.load_json_bytes stdout_bytes)
  let _ ← exactly report
    ["schema", "preview_sha256", "events", "tests_run", "completed", "successful"]
    "INVALID_REPORT_SCHEMA"
  needOr (isStr (← item report "schema") "engineer.service-tests/1") "INVALID_REPORT_SCHEMA"
  match ← item report "events" with
  | .list items => do
    needOr (items.length ≤ limits.cases) "REPORT_CASE_LIMIT"
    let tests_run ← integerOr (← item report "tests_run") "INVALID_REPORT_TYPES"
    let completed ← boolOr (← item report "completed") "INVALID_REPORT_TYPES"
    let successful ← boolOr (← item report "successful") "INVALID_REPORT_TYPES"
    let preview_sha256 ← hex64Or (← item report "preview_sha256") "INVALID_REPORT_TYPES"
    let events ← items.mapM eventOf
    pure { value := report, preview_sha256, events, tests_run, completed, successful }
  | _ => .error (.refused "REPORT_CASE_LIMIT")

/-! ## What an observation says -/

/-- `identity`, of the module's own file. -/
def identity (source : ByteArray) : Value :=
  .dict [("profile", .str PROFILE), ("source_sha256", .str (sha source))]

/-- What a check returns. -/
structure Observation where
  source : ByteArray
  state : State
  all_selected_cases_reported_success : Bool
  reason_codes : List Str
  refs : List (Str × Str)
  report : Option Value
  /-- The cases of each requirement, and whether all of them were successes. -/
  requirements : List (Str × (List Str × Bool))
  selected_limits : Limits
  input_bytes : Option Nat
  case_events : Option Nat
  requirement_count : Nat
  request_sha256 : Option Str

def intOrNull (n : Option Nat) : Value := (n.map fun n => .int n).getD .null

def requirementValue (r : List Str × Bool) : Value := .dict
  [("case_ids", .list (r.1.map .str)),
   ("state", .str (if r.2 then "ALL_MAPPED_CASES_REPORTED_SUCCESS" else "MAPPED_CASES_NOT_ALL_SUCCESS"))]

def Observation.costs (o : Observation) : Value := .dict
  [("input_bytes", intOrNull o.input_bytes), ("case_events", intOrNull o.case_events),
   ("requirements", .int o.requirement_count),
   ("additional_evidence_charged_to_service_pool", .bool false),
   ("checker_cpu_wall_and_global_retention", .str "UNESTABLISHED")]

def Observation.said (o : Observation) : List (Str × Value) :=
  [("schema", .str PROFILE), ("checker_identity", identity o.source), ("state", .str o.state.name),
   ("all_selected_cases_reported_success", .bool o.all_selected_cases_reported_success),
   ("reason_codes", .list (o.reason_codes.map .str)),
   ("refs", .dict (o.refs.map fun r => (r.1, .str r.2))), ("report", o.report.getD .null),
   ("requirements", .dict (o.requirements.map fun r => (r.1, requirementValue r.2))),
   ("selected_limits", o.selected_limits.value), ("costs", o.costs)]

def Observation.value (o : Observation) : Value :=
  .dict (o.said ++ SCOPE ++ FLAGS ++ (o.request_sha256.map fun s => (lit "request_sha256", Value.str s)).toList)

/-- The name of the class of a typed failure: its code, in capitals and small letters. -/
def className (code : Code) : Str :=
  let rec go (start : Bool) : Text → Text
    | [] => []
    | c :: rest => if c = '_' then go true rest else (if start then c.toUpper else c) :: go false rest
  ofText (go true code.text.toList)

/-- The exceptions that a check turns into a reason, by the name of their class. -/
def caught : Exn → Option Str
  | .verify failure => some (className failure.code)
  | .json_decode_error => some "JSONDecodeError"
  | .value_error => some "ValueError"
  | .type_error => some "TypeError"
  | .key_error => some "KeyError"
  | _ => none

/-- The observation so far, with the reason of what went wrong. -/
def Observation.failed (out : Observation) : Refusal → Checked Observation
  | .refused message => pure { out with reason_codes := [message] }
  | .raised e =>
    match caught e with
    | some n => pure { out with reason_codes := [lit "INVALID_" ++ n] }
    | none => .error (.raised e)

/-- A stage of a check: what it returns, or the observation so far. -/
def attempt {α : Type} (out : Observation) (x : Checked α) (next : α → Checked Observation) :
    Checked Observation :=
  match x with
  | .ok a => next a
  | .error e => out.failed e

/-! ## The check -/

mutual

/-- There is a float in the value. -/
def hasFloat : Value → Bool
  | .list items => hasFloatItems items
  | .dict members => decide (¬ (members.map Prod.fst).Nodup) || hasFloatMembers members
  | _ => false

def hasFloatItems : List Value → Bool
  | [] => false
  | v :: rest => hasFloat v || hasFloatItems rest

def hasFloatMembers : List (Str × Value) → Bool
  | [] => false
  | m :: rest => hasFloat m.2 || hasFloatMembers rest

end

/-- A mapping of the preview, by its digest. -/
def check_selected (p : Value) (field expected message : Str) : Checked Unit :=
  match get p field with
  | .dict members => do
    needOr (members.map Prod.fst).Nodup message
    raiseIf (hasFloat (.dict members) = true) (.raised (fail .float_not_permitted
      "A float is never valid input; carry non-integer numbers as canonical decimal strings."))
    let d ← digest (.dict members)
    needOr (d = expected) message
  | _ => .error (.refused message)

/-- `v is True` and `v is None`, of a member that may be missing. -/
def isTrue : Option Value → Bool
  | some (.bool b) => b
  | _ => false
def isNone : Option Value → Bool
  | some .null => true
  | _ => false

namespace TestObservationChecker

variable (C : TestObservationChecker)

def selected : List (Str × ByteArray) :=
  [("selection_bytes", C.selection_bytes), ("requirements_bytes", C.requirements_bytes),
   ("runner_bytes", C.runner_bytes)]

/-- `_base`. -/
def base : Observation where
  source := C.source
  state := .UNKNOWN
  all_selected_cases_reported_success := false
  reason_codes := []
  refs := []
  report := none
  requirements := []
  selected_limits := C.limits
  input_bytes := none
  case_events := none
  requirement_count := C.requirements.length
  request_sha256 := none

/-- The preview is of what was selected. -/
def check_preview (p : Value) : Checked Unit := do
  needOr (isStr (get p "schema") "engineer.service-observation/1" ∧
    isStr (get p "test_selection_sha256") (sha C.selection_bytes) ∧
    isStr (get p "test_runner_sha256") C.selection.runner_sha256) "PREVIEW_SELECTION_MISMATCH"
  check_selected p "source" C.selection.source_sha256 "SELECTED_SOURCE_MISMATCH"
  check_selected p "examiner" C.selection.examiner_sha256 "SELECTED_EXAMINER_MISMATCH"
  check_selected p "environment" C.selection.environment_sha256 "SELECTED_ENVIRONMENT_MISMATCH"
  needOr (isStr (get p "adapter_sha256") C.selection.adapter_sha256 ∧
    isStr (get p "adapter_sha256") C.pool.policy.adapter_sha256) "SELECTED_CODE_MISMATCH"
  needOr (isStr (get p "capture_sha256") C.selection.capture_sha256 ∧
    isStr (get p "capture_sha256") C.pool.policy.capture_sha256) "SELECTED_CODE_MISMATCH"
  needOr (python.eq (get p "labels") (.list (C.selection.labels.map .str)))
    "SELECTED_LABELS_MISMATCH"

/-- The start, the report and the result are of this preview and these streams. -/
def check_streams (E : Evidence) (report : Report) (r : Value) : Checked Unit := do
  let start ← evidence E.start_bytes
  needOr (python.eq start (.dict [("preview", .str (sha E.preview_bytes))]) ∧
    report.preview_sha256 = sha E.preview_bytes ∧ isStr (get r "preview") (sha E.preview_bytes))
    "RAW_PREVIEW_START_REPORT_MISMATCH"
  needOr (isStr (get r "stdout_sha256") (sha E.stdout_bytes) ∧
    isStr (get r "stderr_sha256") (sha E.stderr_bytes)) "RAW_STREAM_MISMATCH"

/-- The result of the one entry of the request. -/
def check_accounting (E : Evidence) (p : Value) : Checked service_attempt.Result := do
  let entries ← verify_snapshot C.pool E.accounting_snapshot_bytes
  match entries.filter fun e => e.request_sha256 = E.request_sha256 with
  | [e] => do
    let q ← read_request C.pool e.request_raw
    needOr (q.preview_sha256 = sha E.preview_bytes ∧ isStr (get p "root") q.attempt_root ∧
      equalsResources (get p "limits") q.resources ∧ e.start_sha256 = some (sha E.start_bytes))
      "ACCOUNTING_START_REQUEST_MISMATCH"
    match e.result with
    | some a => do
      needOr (a.result_sha256 = sha E.result_bytes ∧ a.stdout_sha256 = sha E.stdout_bytes ∧
        a.stderr_sha256 = sha E.stderr_bytes ∧ a.stdout_bytes = E.stdout_bytes.size ∧
        a.stderr_bytes = E.stderr_bytes.size) "ACCOUNTING_RESULT_MISMATCH"
      needOr ((e.state = .OBSERVED_EXIT_ZERO ∨ e.state = .OBSERVED_EXIT_NONZERO) ∧ e.unknown.isNone)
        "ACCOUNTING_UNCERTAIN"
      pure a
    | none => .error (.refused "ACCOUNTING_RESULT_MISMATCH")
  | _ => .error (.refused "REQUEST_NOT_IN_SELECTED_ACCOUNTING")

/-- The process ended, with this exit code, and its inputs are unchanged. -/
def check_process (p r : Value) (a : service_attempt.Result) : Checked Int := do
  match get r "exit" with
  | .int exit => do
    needOr (isStr (get r "state") "PROCESS_OBSERVED" ∧ 0 ≤ exit ∧
      isNone (r.get? "limit_failure") = true ∧ a.exit = some exit) "PROCESS_UNCERTAIN"
    needOr (isTrue (r.get? "inputs_unchanged") = true ∧ python.eq (integral (get r "post_execution"))
      (.dict [("source", get p "source"), ("examiner", get p "examiner")]))
      "POST_EXECUTION_SOURCE_UNCERTAIN"
    pure exit
  | _ => .error (.refused "PROCESS_UNCERTAIN")

/-- The report is of exactly the selected cases, and of this exit code. -/
def check_cases (report : Report) (exit : Int) : Checked Unit := do
  let ids := report.events.map Event.id
  needOr ids.Nodup "DUPLICATE_REPORTED_CASE"
  needOr ((∀ i ∈ ids, i ∈ C.selection.case_ids) ∧ ∀ i ∈ C.selection.case_ids, i ∈ ids)
    "REPORTED_CASES_NOT_EXACT"
  needOr (report.tests_run = report.events.length) "REPORTED_COUNT_MISMATCH"
  needOr (report.completed = true) "REPORT_INCOMPLETE"
  needOr (report.successful = report.events.all fun e =>
    e.outcome = .success || e.outcome = .skip || e.outcome = .expected_failure)
    "REPORT_SUMMARY_INCONSISTENT"
  needOr (decide (exit = 0) = report.successful) "PROCESS_REPORT_INCONSISTENT"

/-- The evidence corresponds, to the selection and to the accounting. -/
def correspond (E : Evidence) (report : Report) : Checked Unit := do
  let p ← evidence E.preview_bytes
  let r ← evidence E.result_bytes
  C.check_preview p
  check_streams E report r
  let a ← C.check_accounting E p
  let exit ← check_process p r a
  C.check_cases report exit

/-- What is concluded of a report that corresponds. -/
def concluded (out : Observation) (report : Report) : Observation :=
  let succeeded (id : Str) := (report.events.find? fun e => e.id = id).any fun e => e.outcome = .success
  let all_success := report.events.all fun e => e.outcome = .success
  { out with
    state := if all_success then .OBSERVED_SELECTED_CASES_SUCCESS
      else .OBSERVED_SELECTED_CASES_NON_SUCCESS
    all_selected_cases_reported_success := all_success
    reason_codes := if all_success then [] else ["SELECTED_CASE_NOT_SUCCESS"]
    requirements := C.selection.requirement_cases.map fun c => (c.1, (c.2, c.2.all succeeded)) }

/-- `check`. -/
def check (E : Evidence) : Checked Observation :=
  let inputs := C.selected ++ E.members
  let out := C.base
  attempt out (bounded C.limits inputs) fun count =>
    let out := { out with input_bytes := some count, refs := inputs.map fun i => (i.1, sha i.2) }
    attempt out (needOr (hex64 E.request_sha256) "INVALID_REQUEST_HASH") fun _ =>
      let out := { out with request_sha256 := some E.request_sha256 }
      attempt out (read_report C.limits E.stdout_bytes) fun report =>
        let out := { out with report := some report.value, case_events := some report.events.length }
        attempt out (C.correspond E report) fun _ => pure (C.concluded out report)

end TestObservationChecker

end vfy.service_tests
