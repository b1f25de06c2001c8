-- The child-budget ledger: signed records over one parent START and one
-- budget. A child is reserved, dispatched, completed and settled, and what is
-- still held is computed again from the events.
import VerifyRun.Load
import VerifyRun.Dynamic
import VerifyRun.Pattern

namespace vfy.child_ledger

open python keys outcomes

/-! ## Refusals -/

/-- `Refused`, or what a function of another module raised. -/
inductive Refusal where
  | refused (message : Str)
  | raised (e : Exn)

/-- A step of this module. -/
abbrev Checked (α : Type) := Except Refusal α

def REFUSED : Str := "Child ledger input or correspondence refused; retain UNKNOWN."

/-- `need(v, message)`. -/
def needOr (v : Prop) [Decidable v] (message : Str) : Checked Unit :=
  raiseIf (¬ v) (.refused message)

/-- `need(v)`. -/
def need (v : Prop) [Decidable v] : Checked Unit := needOr v REFUSED

/-- What another module returns or raises. -/
def lift {α : Type} (x : Except Exn α) : Checked α := x.mapError .raised

/-- What leaves a reader whose hooks may refuse. -/
def refusalOf : Exn → Refusal
  | .refused message => .refused message
  | e => .raised e

/-! ## Values -/

def MAX_BYTES : Nat := 4 * 1024 * 1024

/-- `raw`. -/
def raw (v : Value) : Checked ByteArray := lift (canon.canonical_bytes v)

/-- `sha`. -/
def sha (b : ByteArray) : Str := ofText (canon.sha256_hexdigest b)

/-- `digest`. -/
def digest (v : Value) : Checked Str := do
  let b ← raw v
  pure (sha b)

/-- `text` of a string. -/
def text (v : Str) : Prop := 0 < v.length ∧ v.length ≤ 4096

instance (v : Str) : Decidable (text v) := inferInstanceAs (Decidable (_ ∧ _))

/-- A string that passes `text`. -/
def textOf (v : Value) : Checked Str :=
  match v with
  | .str s => do
    need (text s)
    pure s
  | _ => .error (.refused REFUSED)

/-- The pattern matches the whole string. -/
@[irreducible] def matchesPattern (pattern s : Str) : Bool := re.fullmatch pattern s = some true

/-- `hex64` of a string. -/
def hex64 (v : Str) : Prop := matchesPattern "[0-9a-f]\x7b64\x7d" v = true

instance (v : Str) : Decidable (hex64 v) := inferInstanceAs (Decidable (_ = true))

/-- A string that passes `hex64`. -/
def hex64Of (v : Value) : Checked Str :=
  match v with
  | .str s => do
    need (hex64 s)
    pure s
  | _ => .error (.refused REFUSED)

/-- `set(v) == names`, for a mapping. -/
def sameKeys (members : List (Str × Value)) (names : List Str) : Bool :=
  (members.all fun m => decide (m.1 ∈ names)) && names.all fun n => (members.lookup n).isSome

/-- `set(v)` is exactly these keys, of a value that must be a mapping. -/
def needKeys (v : Value) (names : List Str) : Checked (List (Str × Value)) :=
  match v with
  | .dict members => do
    need (sameKeys members names = true)
    pure members
  | _ => .error (.refused REFUSED)

/-! ## Amounts -/

/-- `Fraction(text)` of a text that the pattern admits. -/
def fraction (s : Str) : ℚ :=
  let (numerator, denominator) := (s.takeWhile (· ≠ .scalar '/'), s.dropWhile (· ≠ .scalar '/'))
  let number (digits : Str) : ℚ := (Nat.ofDigitChars 10 ((toText? digits).getD []) 0 : ℚ)
  match denominator with
  | [] => number numerator
  | _ :: digits => number numerator / number digits

/-- `str(q)`. -/
def fractionText (q : ℚ) : Str :=
  if q.den = 1 then ofText (canon.decimal q.num)
  else ofText (canon.decimal q.num) ++ lit "/" ++ ofText (canon.decimal q.den)

/-- `amount`. -/
def amount (v : Value) : Checked ℚ :=
  match v with
  | .str s => do
    need (s.length ≤ 64 ∧ matchesPattern "(0|[1-9][0-9]*)(/[1-9][0-9]*)?" s = true)
    let q := fraction s
    need (fractionText q = s)
    pure q
  | _ => .error (.refused REFUSED)

/-- `AXES`: the unit, the aggregation and the scope of each axis. -/
def AXES : List (Str × (Str × Str × Str)) :=
  [("local_process_cpu_seconds", "second", "SUM", "DIRECT_CHILD_PROCESS_CPU"),
   ("local_wall_observations_seconds", "second", "SUM", "CHILD_INTERVAL_SUM_NOT_PARENT_ELAPSED"),
   ("captured_console_bytes", "byte", "SUM", "DIRECT_CHILD_CAPTURED_OUTPUT")]

def UNKNOWN_DIMENSIONS : Value :=
  .list [.str "provider", .str "host", .str "storage", .str "memory", .str "overlap",
    .str "financial", .str "undeclared_axes"]

/-- The keys of a row. -/
def rowKeys (field : Str) : List Str :=
  let names : List Str := [lit "axis_id", lit "unit", lit "aggregation", lit "scope", field]
  if field = lit "settled_amount_or_UNKNOWN" then names ++ [lit "measured_amount"] else names

/-- What `axes` returns: an amount, or `None` where it is unknown, for each axis. -/
abbrev Amounts := List (Str × Option ℚ)

/-- One turn of the loop of `axes`. -/
def add_axis (field : Str) (result : Amounts) (row : Value) : Checked Amounts := do
  let _ ← needKeys row (rowKeys field)
  let name ← lift (do string (← getItem row "axis_id"))
  need ((AXES.lookup name).isSome ∧ name ∉ result.map Prod.fst)
  let unit ← lift (getItem row "unit")
  let aggregation ← lift (getItem row "aggregation")
  let scope ← lift (getItem row "scope")
  let axis := (AXES.lookup name).getD default
  need (isStr unit axis.1 ∧ isStr aggregation axis.2.1 ∧ isStr scope axis.2.2)
  let field_value ← lift (getItem row field)
  if isStr field_value "UNKNOWN" then pure (result ++ [(name, none)])
  else do
    let q ← amount field_value
    pure (result ++ [(name, some q)])

/-- `axes`. -/
def axes (rows : Value) (field : Str) : Checked Amounts :=
  match rows with
  | .list rows => do
    need (0 < rows.length ∧ rows.length ≤ AXES.length)
    rows.foldlM (add_axis field) []
  | _ => .error (.refused REFUSED)

/-- `all(v is not None for v in amounts.values())`. -/
def allKnown (amounts : Amounts) : Prop := ∀ a ∈ amounts, a.2.isSome

instance (amounts : Amounts) : Decidable (allKnown amounts) :=
  inferInstanceAs (Decidable (∀ a ∈ _, _))

/-- `set(a) == set(b)`. -/
def sameAxes (a b : Amounts) : Prop :=
  (∀ x ∈ a, x.1 ∈ b.map Prod.fst) ∧ ∀ y ∈ b, y.1 ∈ a.map Prod.fst

instance (a b : Amounts) : Decidable (sameAxes a b) := inferInstanceAs (Decidable (_ ∧ _))

/-- `v is False`. -/
def isFalse : Option Value → Bool
  | some (.bool b) => !b
  | _ => false

/-! ## Signed records -/

/-- What the cryptography package supplies, with keys and signatures as hex
text, and what the module says of itself. -/
structure Host where
  public_key_hex : List UInt8 → Str
  sign : List UInt8 → List UInt8 → Str
  verify : Str → Str → List UInt8 → Bool
  producer : Value

/-- An issuer that is trusted. -/
structure TrustEntry where
  public_key_hex : Str
  producer_identity : Value

/-- `trusted_issuers`. -/
abbrev Trust := List (Str × TrustEntry)

/-- The JSON value of a record. -/
class Encoded (β : Type) where
  value : β → Value

export Encoded (value)

instance : Encoded Value := ⟨id⟩

/-- A signed record. -/
structure Envelope (β : Type) where
  issuer_identity : Str
  producer_identity : Value
  body : β
  signature : Str
  sha256 : Str

section Envelopes

variable {β : Type} [Encoded β]

/-- The members that a signature covers. -/
def Envelope.message (e : Envelope β) : List (Str × Value) :=
  [("issuer_identity", .str e.issuer_identity), ("producer_identity", e.producer_identity),
   ("body", value e.body)]

/-- The members that the digest covers. -/
def Envelope.unsigned (e : Envelope β) : List (Str × Value) :=
  e.message ++ [(lit "signature", .str e.signature)]

instance : Encoded (Envelope β) := ⟨fun e => .dict (e.unsigned ++ [(lit "sha256", .str e.sha256)])⟩

def DOMAIN : List UInt8 := "verify-run.child-ledger.v1".toUTF8.data.toList ++ [0]

/-- The bytes that a signature covers. -/
def signedBytes (e : Envelope β) : Checked (List UInt8) := do
  let b ← raw (.dict e.message)
  pure (DOMAIN ++ b.data.toList)

/-- `envelope`. -/
def envelope (host : Host) (body : β) (key : List UInt8) (issuer : Str) : Checked (Envelope β) := do
  let message : Envelope β :=
    { issuer_identity := issuer, producer_identity := host.producer, body, signature := [],
      sha256 := [] }
  let bytes ← signedBytes message
  let record := { message with signature := host.sign key bytes }
  let sha256 ← digest (.dict record.unsigned)
  pure { record with sha256 }

/-- `authenticate`. -/
def authenticate (host : Host) (record : Envelope β) (trust : Trust) : Checked β := do
  let sha256 ← digest (.dict record.unsigned)
  need (sha256 = record.sha256)
  match trust.lookup record.issuer_identity with
  | none => .error (.refused "Untrusted issuer or producer; UNKNOWN.")
  | some entry => do
    needOr (python.eq entry.producer_identity record.producer_identity = true)
      "Untrusted issuer or producer; UNKNOWN."
    let bytes ← signedBytes record
    needOr (host.verify entry.public_key_hex record.signature bytes = true)
      "Signature verification failed; UNKNOWN."
    let authority ← lift (getMethod (value record.body) "authority_granted")
    need (isFalse authority = true)
    pure record.body

end Envelopes

/-! ## The parent START -/

/-- `basis` and `observation`: a path and the digest of what is there. -/
structure Artifact where
  path : Str
  sha256 : Str
deriving DecidableEq

def Artifact.value (a : Artifact) : Value := .dict [("path", .str a.path), ("sha256", .str a.sha256)]

/-- `parent_binding` of a START: its parent and its children. -/
structure ParentBinding where
  operation_id : Str
  attempt_id : Str
  start_sha256 : Str
  basis_artifact : Artifact

def ParentBinding.value (p : ParentBinding) : Value := .dict
  [("operation_id", .str p.operation_id), ("attempt_id", .str p.attempt_id),
   ("start_sha256", .str p.start_sha256), ("basis_artifact", p.basis_artifact.value)]

/-- What `parent_binding` returns. -/
structure Bound where
  task_key : Str
  task_identity : Value
  parent_binding : ParentBinding
  expected_child_ids : List Str

def START_NS_FIELDS : List Str := ["started_wall_ns", "started_process_ns"]

def MAX_START_NS : Int := 2 ^ 63 - 1

def START_NS : Str := "START nanoseconds must be exact nonnegative signed-64 integers."

/-- `_start_integer`. -/
def start_integer (token : Text) : Py Value := do
  python.lift (raiseIf (¬ (token.length ≤ 20 ∧ token ≠ ['-', '0'])) (.refused "Invalid START integer encoding."))
  let n ← int token
  python.lift (raiseIf (¬ (-(2 ^ 63) ≤ n ∧ n ≤ MAX_START_NS)) (.refused "START integer overflow."))
  pure (.int n)

/-- One turn of the loop over the members of a START. -/
def check_start_member (m : Str × Value) : Checked Unit := do
  let _ ← lift (canon.canonicalize (.str m.1))
  if m.1 ∈ START_NS_FIELDS then
    match m.2 with
    | .int n => needOr (0 ≤ n ∧ n ≤ MAX_START_NS) START_NS
    | _ => .error (.refused START_NS)
  else do
    let _ ← lift (canon.canonicalize m.2)

/-- What leaves the reader of a START, whose `JSONDecodeError` is caught. -/
def startRefusal : Exn → Refusal
  | .json_decode_error => .refused "Malformed parent START JSON."
  | e => refusalOf e

/-- `decode_parent_start`. -/
def decode_parent_start (data : ByteArray) : Checked Value := do
  need (data.size ≤ MAX_BYTES)
  let decoded ← lift (load.decode_utf8 data)
  lift (load.reject_excess_depth decoded)
  let value ← (outcome (json.loads { load.hooks with parse_int := start_integer } decoded)).mapError
    startRefusal
  match value with
  | .dict members => do
    forM members check_start_member
    pure value
  | _ => .error (.refused "Parent START must be an object.")

/-- `any(type(r) is dict and all(r.get(k) == basis[k] for k in basis) for r in rows)`. -/
def namesArtifact (rows : List Value) (basis : Artifact) : Bool :=
  rows.any fun r =>
    match r with
    | .dict members => python.eq ((members.lookup (lit "path")).getD .null) (.str basis.path) &&
        python.eq ((members.lookup (lit "sha256")).getD .null) (.str basis.sha256)
    | _ => false

/-- `parent_binding`. -/
def parent_binding (start_bytes : ByteArray) (basis : Artifact) : Checked Bound := do
  let s ← decode_parent_start start_bytes
  need (isStr ((s.get? "state").getD .null) "STARTED" ∧ isFalse (s.get? "automatic_retry") = true)
  let task_key ← textOf ((s.get? "task_key").getD .null)
  let operation_id ← textOf ((s.get? "operation_id").getD .null)
  let attempt_id ← textOf ((s.get? "attempt_id").getD .null)
  let identity := (s.get? "task_identity").getD .null
  -- the identity must be a mapping: nothing else has the member
  let _ ← hex64Of ((identity.get? "subject_sha256").getD .null)
  let population := (s.get? "native_child_population").getD (.dict [])
  let state ← lift (getMethod population "state")
  need (isStr (state.getD .null) "DECLARED_BEFORE_DISPATCH")
  let ids ← lift (getMethod population "expected_child_ids")
  match ids with
  | some (.list ids) => do
    need (0 < ids.length ∧ ids.length ≤ 128)
    let ids ← ids.mapM textOf
    need ids.Nodup
    need (text basis.path ∧ hex64 basis.sha256)
    let rows ← lift (iterate ((s.get? "input_artifacts").getD (.list [])))
    need (namesArtifact rows basis = true)
    pure { task_key, task_identity := identity,
           parent_binding := { operation_id, attempt_id, start_sha256 := sha start_bytes,
                               basis_artifact := basis },
           expected_child_ids := ids }
  | _ => .error (.refused REFUSED)

/-! ## The records of the ledger -/

/-- What every event of a child is bound to. -/
structure Bind where
  task_key : Str
  task_identity : Value
  child_id : Str
  attempt_id : Str
  parent_operation_id : Str
  parent_attempt_id : Str
  parent_start_sha256 : Str
  basis_artifact : Artifact
  expected_child_ids : List Str
  budget_id : Str
  budget_sha256 : Str

def Bind.members (b : Bind) : List (Str × Value) :=
  [("task_key", .str b.task_key), ("task_identity", b.task_identity), ("child_id", .str b.child_id),
   ("attempt_id", .str b.attempt_id), ("parent_operation_id", .str b.parent_operation_id),
   ("parent_attempt_id", .str b.parent_attempt_id),
   ("parent_start_sha256", .str b.parent_start_sha256), ("basis_artifact", b.basis_artifact.value),
   ("expected_child_ids", .list (b.expected_child_ids.map .str)), ("budget_id", .str b.budget_id),
   ("budget_sha256", .str b.budget_sha256)]

/-- The kinds of events, in their order. -/
inductive Kind where
  | reservation
  | dispatch
  | completion
  | settlement
deriving DecidableEq

def Kind.text : Kind → Str
  | .reservation => "reservation"
  | .dispatch => "dispatch"
  | .completion => "completion"
  | .settlement => "settlement"

/-- The fields of an event that only its kind has. -/
class Fields (φ : Type) where
  members : φ → List (Str × Value)

structure ReservationFields where
  issued_at : Str
  resource_rows : Value
  state : Str
  reservation_id : Option Str

instance : Fields ReservationFields := ⟨fun f =>
  [(lit "issued_at", .str f.issued_at), (lit "resource_rows", f.resource_rows),
   (lit "state", .str f.state)] ++
    (f.reservation_id.map fun id => (lit "reservation_id", Value.str id)).toList⟩

structure DispatchFields where
  reservation_id : Str
  reservation_sha256 : Str
  state : Str

instance : Fields DispatchFields := ⟨fun f =>
  [("reservation_id", .str f.reservation_id), ("reservation_sha256", .str f.reservation_sha256),
   ("state", .str f.state)]⟩

structure CompletionFields where
  reservation_id : Str
  reservation_sha256 : Str
  service_performed : Str
  resource_measured : Str
  financial_or_external_settlement : Str
  observation : Artifact
  measurement_assurance : Str
  resource_rows : Value

instance : Fields CompletionFields := ⟨fun f =>
  [("reservation_id", .str f.reservation_id), ("reservation_sha256", .str f.reservation_sha256),
   ("service_performed", .str f.service_performed), ("resource_measured", .str f.resource_measured),
   ("financial_or_external_settlement", .str f.financial_or_external_settlement),
   ("observation", f.observation.value), ("measurement_assurance", .str f.measurement_assurance),
   ("resource_rows", f.resource_rows)]⟩

structure SettlementFields where
  settled_at : Str
  settlement_id : Str
  reservation_id : Str
  reservation_sha256 : Str
  completion_sha256 : Str
  service_performed : Str
  resource_measured : Str
  financial_or_external_settlement : Str
  state : Str
  resource_rows : Value

instance : Fields SettlementFields := ⟨fun f =>
  [("settled_at", .str f.settled_at), ("settlement_id", .str f.settlement_id),
   ("reservation_id", .str f.reservation_id), ("reservation_sha256", .str f.reservation_sha256),
   ("completion_sha256", .str f.completion_sha256),
   ("service_performed", .str f.service_performed), ("resource_measured", .str f.resource_measured),
   ("financial_or_external_settlement", .str f.financial_or_external_settlement),
   ("state", .str f.state), ("resource_rows", f.resource_rows)]⟩

/-- The body of an event. -/
structure Event (φ : Type) where
  bind : Bind
  schema : Str
  event_id : Str
  recorded_at : Str
  fields : φ

instance {φ : Type} [Fields φ] : Encoded (Event φ) := ⟨fun e => .dict (e.bind.members ++
  ([("schema", .str e.schema), ("event_id", .str e.event_id), ("recorded_at", .str e.recorded_at),
    ("authority_granted", .bool false), ("automatic_retry", .bool false)] : List (Str × Value)) ++
  Fields.members e.fields)⟩

/-- A child of the parent, with its events. -/
structure Child where
  child_id : Str
  attempt_id : Option Str
  reservation : Option (Envelope (Event ReservationFields))
  dispatch : Option (Envelope (Event DispatchFields))
  completion : Option (Envelope (Event CompletionFields))
  settlement : Option (Envelope (Event SettlementFields))

/-- A record that may be missing. -/
def orNull {β : Type} [Encoded β] : Option β → Value
  | some e => value e
  | none => .null

def Child.value (c : Child) : Value := .dict
  ([(lit "child_id", .str c.child_id), (lit "reservation", orNull c.reservation),
    (lit "dispatch", orNull c.dispatch), (lit "completion", orNull c.completion),
    (lit "settlement", orNull c.settlement)] ++
    (c.attempt_id.map fun id => (lit "attempt_id", Value.str id)).toList)

/-- The budget, as its source has it. -/
structure Budget where
  budget_id : Str
  task_key : Str
  task_identity : Value
  parent_start_sha256 : Str
  resource_rows : Value

def BUDGET_SCHEMA : Str := "vfy.child-resource-budget/1"

def Budget.members (b : Budget) : List (Str × Value) :=
  [("schema", .str BUDGET_SCHEMA), ("budget_id", .str b.budget_id), ("task_key", .str b.task_key),
   ("task_identity", b.task_identity), ("parent_start_sha256", .str b.parent_start_sha256),
   ("resource_rows", b.resource_rows)]

def SCHEMA : Str := "engineer.resource-child-ledger/2"

/-- The body of the ledger. -/
structure Body where
  bound : Bound
  revision : Nat
  previous_snapshot_sha256 : Option Str
  budget : Budget
  budget_sha256 : Str
  children : List Child

instance : Encoded Body := ⟨fun b => .dict
  [("task_key", .str b.bound.task_key), ("task_identity", b.bound.task_identity),
   ("parent_binding", b.bound.parent_binding.value),
   ("expected_child_ids", .list (b.bound.expected_child_ids.map .str)), ("schema", .str SCHEMA),
   ("revision", .int b.revision),
   ("previous_snapshot_sha256", (b.previous_snapshot_sha256.map .str).getD .null),
   ("budget", .dict (b.budget.members ++ [(lit "budget_sha256", .str b.budget_sha256),
      (lit "domain", .str "THIS_LOCAL_LEDGER_ONLY")])),
   ("children", .list (b.children.map Child.value)),
   ("unsupported_dimensions", UNKNOWN_DIMENSIONS), ("authority_granted", .bool false),
   ("automatic_retry", .bool false)]⟩

/-! ## Exposure -/

/-- The amounts of an event's rows, if the event is there. -/
def amountsOf {φ : Type} (e : Option (Envelope (Event φ))) (rows : φ → Value) (field : Str) :
    Checked Amounts :=
  match e with
  | some e => axes (rows e.body.fields) field
  | none => pure []

/-- `used[name] += value`. -/
def add (used : List (Str × ℚ)) (name : Str) (value : ℚ) : Checked (List (Str × ℚ)) :=
  match used.lookup name with
  | some q => pure (setItem used name (q + value))
  | none => .error (.raised .key_error)

/-- One turn of the inner loop of `_usage`. -/
def add_held (measured settled : Amounts) (used : List (Str × ℚ)) (held : Str × Option ℚ) :
    Checked (List (Str × ℚ)) :=
  -- Unknown keeps the hold; an observed overrun cannot disappear from capacity.
  match (settled.lookup held.1).join, held.2 with
  | some value, _ => add used held.1 value
  | none, some reserved => add used held.1 (max reserved ((measured.lookup held.1).join.getD 0))
  | none, none => .error (.raised .type_error)

/-- One turn of the outer loop of `_usage`. -/
def add_child (used : List (Str × ℚ)) (c : Child) : Checked (List (Str × ℚ)) :=
  match c.reservation with
  | none => pure used
  | some reservation => do
    let held ← axes reservation.body.fields.resource_rows "reserved_amount"
    let measured ← amountsOf c.completion CompletionFields.resource_rows "measured_amount"
    let settled ← amountsOf c.settlement SettlementFields.resource_rows "settled_amount_or_UNKNOWN"
    held.foldlM (add_held measured settled) used

/-- `_usage`. -/
def usage (body : Body) : Checked (List (Str × ℚ)) := do
  let rows ← lift (iterate body.budget.resource_rows)
  let names ← rows.mapM fun r => lift (do string (← getItem r "axis_id"))
  body.children.foldlM add_child (dictOf (names.map fun name => (name, 0)))

/-! ## Verifying a report -/

/-- One parent and one budget in one local store. -/
structure Ledger where
  host : Host
  key : List UInt8
  issuer : Str
  trust : Trust
  start_bytes : ByteArray
  basis : Artifact
  budget_bytes : ByteArray

/-- The checks on a budget that creating and verifying share. -/
def check_budget (bound : Bound) (start_bytes : ByteArray) (b : Value) : Checked Budget := do
  let schema ← lift (getItem b "schema")
  let budget_id ← lift (getItem b "budget_id")
  let task_key ← lift (getItem b "task_key")
  let task_identity ← lift (getItem b "task_identity")
  let parent_start ← lift (getItem b "parent_start_sha256")
  let resource_rows ← lift (getItem b "resource_rows")
  need (isStr schema BUDGET_SCHEMA)
  let budget_id ← lift (string budget_id)
  need (isStr task_key bound.task_key ∧ python.eq task_identity bound.task_identity ∧
    isStr parent_start (sha start_bytes))
  let limits ← axes resource_rows "limit"
  need (allKnown limits)
  pure { budget_id, task_key := bound.task_key, task_identity,
         parent_start_sha256 := sha start_bytes, resource_rows }

/-- The keys of a budget. -/
def BUDGET_KEYS : List Str :=
  ["schema", "budget_id", "task_key", "task_identity", "parent_start_sha256", "resource_rows"]

/-- What the verifier has met so far. -/
structure Seen where
  event_ids : List Str
  attempt_ids : List Str
  event_count : Nat

/-- The event of this kind names the body, the child and the budget. -/
def check_event {φ : Type} [Fields φ] (L : Ledger) (body : Body) (budget : Budget) (c : Child)
    (kind : Kind) (specific : Event φ → Checked Unit) (seen : Seen)
    (record : Option (Envelope (Event φ))) : Checked Seen :=
  match record with
  | none => pure seen
  | some record => do
    let e ← authenticate L.host record L.trust
    need (e.schema = lit "vfy.child-" ++ kind.text ++ lit "/1")
    need (e.event_id ∉ seen.event_ids)
    need (e.bind.task_key = body.bound.task_key ∧
      python.eq e.bind.task_identity body.bound.task_identity ∧ e.bind.child_id = c.child_id ∧
      some e.bind.attempt_id = c.attempt_id)
    need (e.bind.parent_operation_id = body.bound.parent_binding.operation_id ∧
      e.bind.parent_attempt_id = body.bound.parent_binding.attempt_id ∧
      e.bind.parent_start_sha256 = body.bound.parent_binding.start_sha256)
    need (e.bind.basis_artifact = L.basis ∧
      e.bind.expected_child_ids = body.bound.expected_child_ids ∧
      e.bind.budget_id = budget.budget_id ∧ e.bind.budget_sha256 = sha L.budget_bytes)
    let d ← digest (.dict e.bind.members)
    need (e.event_id = kind.text ++ lit "-" ++ d)
    specific e
    pure { seen with event_ids := seen.event_ids ++ [e.event_id],
                     event_count := seen.event_count + 1 }

def RESERVED : Str := "RESERVED_LOCAL_HOLD"
def INTENT : Str := "INTENT_RECORDED_NOT_PROOF_OF_LAUNCH"
def ACCOUNTED : Str := "LOCAL_RESOURCE_ACCOUNTING_ONLY"
def ASSURANCE : Str :=
  "TRUSTED_PRODUCER_OBSERVATION_INPUT_NOT_INDEPENDENTLY_MEASURED_BY_LEDGER"
def SERVICES : List Str := ["PERFORMED", "NOT_PERFORMED", "UNKNOWN"]

/-- What a completion says of its measurements. -/
def measuredText (measured : Amounts) : Str :=
  if allKnown measured then "RECORDED_PRODUCER_OBSERVATION" else "PARTIAL_OR_UNKNOWN"

def check_reservation (limits : Amounts) (e : Event ReservationFields) : Checked Unit := do
  let a ← axes e.fields.resource_rows "reserved_amount"
  need (sameAxes a limits ∧ allKnown a)
  need (e.fields.reservation_id = some e.event_id ∧ e.fields.issued_at = e.recorded_at ∧
    e.fields.state = RESERVED)

/-- The event names the reservation of its child. -/
def names_reservation (c : Child) (reservation_id reservation_sha256 : Str) : Checked Unit :=
  match c.reservation with
  | none => .error (.raised .type_error)
  | some r => need (some reservation_id = r.body.fields.reservation_id ∧
      reservation_sha256 = r.sha256)

def check_dispatch (c : Child) (e : Event DispatchFields) : Checked Unit := do
  names_reservation c e.fields.reservation_id e.fields.reservation_sha256
  need (e.fields.state = INTENT)

def check_completion (c : Child) (limits : Amounts) (e : Event CompletionFields) :
    Checked Unit := do
  names_reservation c e.fields.reservation_id e.fields.reservation_sha256
  let measured ← axes e.fields.resource_rows "measured_amount"
  need (sameAxes measured limits)
  need (e.fields.service_performed ∈ SERVICES ∧
    e.fields.financial_or_external_settlement = lit "UNKNOWN")
  need (e.fields.resource_measured = measuredText measured)
  need (e.fields.measurement_assurance = ASSURANCE)
  need (text e.fields.observation.path ∧ hex64 e.fields.observation.sha256)

/-- The row of a settlement, from a row of a completion. -/
def settled_row (service_performed : Str) (row : Value) : Checked Value :=
  match row with
  | .dict members => do
    let measured ← lift (getItem row "measured_amount")
    pure (.dict (setItem members (lit "settled_amount_or_UNKNOWN")
      (if service_performed ≠ lit "UNKNOWN" then measured else .str "UNKNOWN")))
  | _ => .error (.raised .type_error)

/-- `settlement_id`. -/
def settlement_id (reservation_id completion_sha256 : Str) : Checked Str := do
  let d ← digest (.dict [("reservation", .str reservation_id),
    ("completion", .str completion_sha256)])
  pure (lit "settlement-" ++ d)

/-- The settlement corresponds to the completion. -/
def check_settlement (c : Child) (e : Event SettlementFields) : Checked Unit :=
  match c.completion with
  | none => .error (.refused REFUSED)
  | some completion => do
    need (e.fields.completion_sha256 = completion.sha256)
    let id ← settlement_id e.fields.reservation_id e.fields.completion_sha256
    need (e.fields.settlement_id = id)
    need (e.fields.settled_at = e.recorded_at ∧ e.fields.state = ACCOUNTED)
    need (e.fields.service_performed = completion.body.fields.service_performed ∧
      e.fields.resource_measured = completion.body.fields.resource_measured ∧
      e.fields.financial_or_external_settlement = lit "UNKNOWN")
    let rows ← lift (iterate completion.body.fields.resource_rows)
    let expected_rows ← rows.mapM (settled_row completion.body.fields.service_performed)
    needOr (python.eq e.fields.resource_rows (.list expected_rows) = true)
      "Settlement conflicts with measured completion; UNKNOWN."

/-- One turn of the loop over the children. -/
def check_child (L : Ledger) (body : Body) (budget : Budget) (limits : Amounts) (seen : Seen)
    (c : Child) : Checked Seen := do
  need (c.reservation.isNone ↔ c.attempt_id.isNone)
  match c.attempt_id with
  | none => do
    need (c.dispatch.isNone ∧ c.completion.isNone ∧ c.settlement.isNone)
    pure seen
  | some attempt_id => do
    need (text attempt_id ∧ attempt_id ∉ seen.attempt_ids)
    let seen := { seen with attempt_ids := seen.attempt_ids ++ [attempt_id] }
    let seen ← check_event L body budget c .reservation (check_reservation limits) seen c.reservation
    let seen ← check_event L body budget c .dispatch (check_dispatch c) seen c.dispatch
    let seen ← check_event L body budget c .completion (check_completion c limits) seen c.completion
    let seen ← check_event L body budget c .settlement
      (fun e => names_reservation c e.fields.reservation_id e.fields.reservation_sha256) seen
      c.settlement
    need (c.completion.isNone ∨ c.dispatch.isSome)
    match c.settlement with
    | none => pure seen
    | some settlement => do
      check_settlement c settlement.body
      pure seen

/-- Something of the child is not known. -/
def isUnknown (c : Child) : Bool :=
  match c.completion, c.settlement with
  | some completion, some settlement =>
    decide (completion.body.fields.service_performed = lit "UNKNOWN") ||
      match settlement.body.fields.resource_rows with
      | .list rows => rows.any fun r =>
          isStr ((r.get? "settled_amount_or_UNKNOWN").getD .null) "UNKNOWN"
      | _ => false
  | _, _ => true

/-- What a verified report says. -/
structure Report where
  revision : Nat
  committed_exposure : List (Str × ℚ)
  limit_exceeded : Bool
  unknown_children : List Str

/-- The bytes of a record are read back: they are not too many, and the loader
takes them. -/
def read_record {β : Type} [Encoded β] (record : Envelope β) : Checked Unit := do
  let b ← raw (value record)
  need (b.size ≤ MAX_BYTES)
  let _ ← lift (load.load_json_bytes b)

/-- `verify_report`, over the bytes of a record. -/
def verify_report (L : Ledger) (record : Envelope Body) : Checked Report := do
  read_record record
  let body ← authenticate L.host record L.trust
  let expected ← parent_binding L.start_bytes L.basis
  let budget ← lift (load.load_json_bytes L.budget_bytes)
  need (body.bound.task_key = expected.task_key ∧
    python.eq body.bound.task_identity expected.task_identity ∧
    python.eq body.bound.parent_binding.value expected.parent_binding.value ∧
    body.bound.expected_child_ids = expected.expected_child_ids)
  need (python.eq (.dict body.budget.members) budget ∧ body.budget_sha256 = sha L.budget_bytes)
  let budget ← check_budget expected L.start_bytes budget
  let limits ← axes budget.resource_rows "limit"
  need (body.children.map Child.child_id = body.bound.expected_child_ids)
  let seen ← body.children.foldlM (check_child L body budget limits) ⟨[], [], 0⟩
  need (body.revision = seen.event_count)
  let used ← usage body
  pure { revision := body.revision, committed_exposure := used,
         limit_exceeded := used.any fun u =>
           ((limits.lookup u.1).join.map fun limit => decide (limit < u.2)).getD false,
         unknown_children := (body.children.filter isUnknown).map Child.child_id }

/-! ## Writing -/

/-- `Ledger.__init__`: the signer is the one that is trusted. -/
def check_signer (L : Ledger) : Checked Unit :=
  match L.trust.lookup L.issuer with
  | some entry => needOr (entry.public_key_hex = L.host.public_key_hex L.key ∧
      python.eq entry.producer_identity L.host.producer)
      "Signer does not match independently configured trust."
  | none => .error (.refused "Signer does not match independently configured trust.")

/-- A child of which nothing is recorded. -/
def freshChild (child_id : Str) : Child :=
  { child_id, attempt_id := none, reservation := none, dispatch := none, completion := none,
    settlement := none }

/-- `Ledger.create`: the record of a new ledger, in an empty directory. -/
def create (L : Ledger) : Checked (Envelope Body) := do
  let bound ← parent_binding L.start_bytes L.basis
  let b ← lift (load.load_json_bytes L.budget_bytes)
  let _ ← needKeys b BUDGET_KEYS
  let budget ← check_budget bound L.start_bytes b
  need (text budget.budget_id)
  check_signer L
  let body : Body :=
    { bound, revision := 0, previous_snapshot_sha256 := none, budget,
      budget_sha256 := sha L.budget_bytes, children := bound.expected_child_ids.map freshChild }
  envelope L.host body L.key L.issuer

/-- The record that `_change` publishes over a record: the body after the
action, one revision later, which names the record it replaces. -/
def change {α : Type} (L : Ledger) (prior : Envelope Body)
    (action : Body → Checked (Body × α)) : Checked (Envelope Body × α) := do
  let _ ← verify_report L prior
  let body ← authenticate L.host prior L.trust
  let (body, result) ← action body
  let body :=
    { body with revision := body.revision + 1, previous_snapshot_sha256 := some prior.sha256 }
  let next ← envelope L.host body L.key L.issuer
  let payload ← raw (value next)
  need (payload.size ≤ MAX_BYTES)
  pure (next, result)

/-- What binds an event of a child that has an attempt. -/
def bindOf (body : Body) (child_id attempt_id : Str) : Bind where
  task_key := body.bound.task_key
  task_identity := body.bound.task_identity
  child_id := child_id
  attempt_id := attempt_id
  parent_operation_id := body.bound.parent_binding.operation_id
  parent_attempt_id := body.bound.parent_binding.attempt_id
  parent_start_sha256 := body.bound.parent_binding.start_sha256
  basis_artifact := body.bound.parent_binding.basis_artifact
  expected_child_ids := body.bound.expected_child_ids
  budget_id := body.budget.budget_id
  budget_sha256 := body.budget_sha256

/-- `_event`. -/
def event {φ : Type} [Fields φ] (L : Ledger) (body : Body) (child : Child) (kind : Kind)
    (recorded_at : Str) (fields : φ) : Checked (Envelope (Event φ)) := do
  need (text recorded_at)
  match child.attempt_id with
  | none => .error (.raised .key_error)
  | some attempt_id => do
    let bind := bindOf body child.child_id attempt_id
    let d ← digest (.dict bind.members)
    envelope L.host
      { bind, schema := lit "vfy.child-" ++ kind.text ++ lit "/1",
        event_id := kind.text ++ lit "-" ++ d, recorded_at, fields } L.key L.issuer

/-- The body with this child at a position. -/
def Body.setChild (body : Body) (i : Nat) (c : Child) : Body :=
  { body with children := body.children.set i c }

/-- The rows of an argument, as they are after canonical text. -/
def rowsOf (resource_rows : Value) : Checked Value := do
  let b ← raw resource_rows
  lift (load.load_json_bytes b)

/-- The requested amounts still fit the budget. -/
def fits (requested limits : Amounts) (used : List (Str × ℚ)) : Prop :=
  ∀ limit ∈ limits, ∀ l ∈ limit.2, ∀ r ∈ (requested.lookup limit.1).join,
    ∀ u ∈ used.lookup limit.1, u + r ≤ l

instance (requested limits : Amounts) (used : List (Str × ℚ)) :
    Decidable (fits requested limits used) :=
  inferInstanceAs (Decidable (∀ limit ∈ limits, ∀ l ∈ limit.2,
    ∀ r ∈ (requested.lookup limit.1).join, ∀ u ∈ used.lookup limit.1, u + r ≤ l))

/-- What `reserve` does to a body. -/
def reserve_child (L : Ledger) (child_id attempt_id : Str) (rows : Value) (requested : Amounts)
    (issued_at : Str) (body : Body) : Checked (Body × Envelope (Event ReservationFields)) :=
  match body.children.zipIdx.find? fun p => p.1.child_id = child_id with
  | none => .error (.refused "Missing, duplicate or already-reserved child; UNKNOWN/no redispatch.")
  | some (child, i) => do
    needOr child.reservation.isNone
      "Missing, duplicate or already-reserved child; UNKNOWN/no redispatch."
    need (∀ c ∈ body.children, c.attempt_id ≠ some attempt_id)
    let limits ← axes body.budget.resource_rows "limit"
    let used ← usage body
    need (sameAxes requested limits)
    needOr (fits requested limits used) "Local budget unavailable; reservation refused."
    let child := { child with attempt_id := some attempt_id }
    let event ← event L body child .reservation issued_at
      ({ issued_at, resource_rows := rows, state := RESERVED, reservation_id := none } :
        ReservationFields)
    -- the reservation carries its own event id, and is signed again
    let event ← envelope L.host { event.body with
      fields := { event.body.fields with reservation_id := some event.body.event_id } } L.key L.issuer
    pure (body.setChild i { child with reservation := some event }, event)

/-- `Ledger.reserve`. -/
def reserve (L : Ledger) (prior : Envelope Body) (child_id attempt_id : Str) (resource_rows : Value)
    (issued_at : Str) : Checked (Envelope Body × Envelope (Event ReservationFields)) := do
  let rows ← rowsOf resource_rows
  let requested ← axes rows "reserved_amount"
  need (allKnown requested ∧ text attempt_id)
  change L prior (reserve_child L child_id attempt_id rows requested issued_at)

/-- `reservation_id` of a child that is reserved. -/
def Child.reservation_id (c : Child) : Option Str :=
  c.reservation.bind fun r => r.body.fields.reservation_id

/-- `_child`: the one child of a reservation, and where it stands. -/
def child_of (body : Body) (reservation_id : Str) : Checked (Child × Nat) :=
  match body.children.zipIdx.filter fun p => p.1.reservation_id = some reservation_id with
  | [found] => pure found
  | _ => .error (.refused REFUSED)

/-- The digest of the reservation of a child. -/
def Child.reservation_sha256 (c : Child) : Str := (c.reservation.map Envelope.sha256).getD []

/-- What `dispatch_record` does to a body. -/
def dispatch_child (L : Ledger) (reservation_id recorded_at : Str) (body : Body) :
    Checked (Body × Envelope (Event DispatchFields)) := do
  let (c, i) ← child_of body reservation_id
  need c.dispatch.isNone
  let event ← event L body c .dispatch recorded_at
    ({ reservation_id, reservation_sha256 := c.reservation_sha256, state := INTENT } :
      DispatchFields)
  pure (body.setChild i { c with dispatch := some event }, event)

/-- `Ledger.dispatch_record`. -/
def dispatch_record (L : Ledger) (prior : Envelope Body) (reservation_id recorded_at : Str) :
    Checked (Envelope Body × Envelope (Event DispatchFields)) :=
  change L prior (dispatch_child L reservation_id recorded_at)

/-- What `complete` does to a body. -/
def complete_child (L : Ledger) (reservation_id service_performed : Str) (rows : Value)
    (measured : Amounts) (observation : Artifact) (recorded_at : Str) (body : Body) :
    Checked (Body × Envelope (Event CompletionFields)) := do
  let (c, i) ← child_of body reservation_id
  need (c.dispatch.isSome ∧ c.completion.isNone)
  let reserved ← amountsOf c.reservation ReservationFields.resource_rows "reserved_amount"
  need (sameAxes measured reserved)
  let event ← event L body c .completion recorded_at
    ({ reservation_id, reservation_sha256 := c.reservation_sha256, service_performed,
       resource_measured := measuredText measured, financial_or_external_settlement := "UNKNOWN",
       observation, measurement_assurance := ASSURANCE, resource_rows := rows } : CompletionFields)
  pure (body.setChild i { c with completion := some event }, event)

/-- The captured observation is the one of these arguments. -/
def check_observation (observation_bytes : ByteArray) (reservation_id service_performed : Str)
    (rows : Value) : Checked Unit := do
  let captured ← lift (load.load_json_bytes observation_bytes)
  need (python.eq captured (.dict [("schema", .str "vfy.child-observation/1"),
    ("reservation_id", .str reservation_id), ("service_performed", .str service_performed),
    ("resource_rows", rows)]) = true)

/-- `Ledger.complete`, where `observation_bytes` is what is at the path of the observation. -/
def complete (L : Ledger) (prior : Envelope Body) (reservation_id service_performed : Str)
    (resource_rows : Value) (observation : Artifact) (observation_bytes : Option ByteArray)
    (recorded_at : Str) : Checked (Envelope Body × Envelope (Event CompletionFields)) := do
  let rows ← rowsOf resource_rows
  let measured ← axes rows "measured_amount"
  need (service_performed ∈ SERVICES)
  need (text observation.path ∧ hex64 observation.sha256)
  match observation_bytes with
  | none => .error (.raised .os_error)
  | some observation_bytes => do
    need (observation_bytes.size ≤ MAX_BYTES)
    need (sha observation_bytes = observation.sha256)
    check_observation observation_bytes reservation_id service_performed rows
    change L prior (complete_child L reservation_id service_performed rows measured observation
      recorded_at)

/-- A row of a settlement, built from a row of a completion. -/
def settlement_row (service_performed : Str) (row : Value) : Checked Value := do
  let axis_id ← lift (getItem row "axis_id")
  let unit ← lift (getItem row "unit")
  let aggregation ← lift (getItem row "aggregation")
  let scope ← lift (getItem row "scope")
  let measured ← lift (getItem row "measured_amount")
  pure (.dict [("axis_id", axis_id), ("unit", unit), ("aggregation", aggregation), ("scope", scope),
    ("measured_amount", measured), ("settled_amount_or_UNKNOWN",
      if service_performed ≠ lit "UNKNOWN" then measured else .str "UNKNOWN")])

/-- What `settle` does to a body. -/
def settle_child (L : Ledger) (reservation_id completion_sha256 settled_at : Str) (body : Body) :
    Checked (Body × Envelope (Event SettlementFields)) := do
  let (c, i) ← child_of body reservation_id
  match c.completion, c.settlement with
  | some completion, none => do
    need (completion.sha256 = completion_sha256)
    let performed := completion.body.fields.service_performed
    let rows ← lift (iterate completion.body.fields.resource_rows)
    -- Settlement consumes the observed cost once, releasing the unused reservation only on known axes.
    let rows ← rows.mapM (settlement_row performed)
    let id ← settlement_id reservation_id completion_sha256
    let event ← event L body c .settlement settled_at
      ({ settled_at, settlement_id := id, reservation_id,
         reservation_sha256 := c.reservation_sha256, completion_sha256,
         service_performed := performed,
         resource_measured := completion.body.fields.resource_measured,
         financial_or_external_settlement := "UNKNOWN", state := ACCOUNTED,
         resource_rows := .list rows } : SettlementFields)
    pure (body.setChild i { c with settlement := some event }, event)
  | _, _ => .error (.refused REFUSED)

/-- `Ledger.settle`. -/
def settle (L : Ledger) (prior : Envelope Body) (reservation_id completion_sha256 settled_at : Str) :
    Checked (Envelope Body × Envelope (Event SettlementFields)) :=
  change L prior (settle_child L reservation_id completion_sha256 settled_at)

/-! ## Runs -/

/-- A call of a writer, with its arguments. -/
inductive Op where
  | reserve (child_id attempt_id : Str) (resource_rows : Value) (issued_at : Str)
  | dispatch_record (reservation_id recorded_at : Str)
  | complete (reservation_id service_performed : Str) (resource_rows : Value)
      (observation : Artifact) (observation_bytes : Option ByteArray) (recorded_at : Str)
  | settle (reservation_id completion_sha256 settled_at : Str)

/-- The record that an accepted call publishes. -/
def step (L : Ledger) (prior : Envelope Body) : Op → Checked (Envelope Body)
  | .reserve child_id attempt_id resource_rows issued_at => do
    let (next, _) ← reserve L prior child_id attempt_id resource_rows issued_at
    pure next
  | .dispatch_record reservation_id recorded_at => do
    let (next, _) ← dispatch_record L prior reservation_id recorded_at
    pure next
  | .complete reservation_id service_performed resource_rows observation observation_bytes
      recorded_at => do
    let (next, _) ← complete L prior reservation_id service_performed resource_rows observation
      observation_bytes recorded_at
    pure next
  | .settle reservation_id completion_sha256 settled_at => do
    let (next, _) ← settle L prior reservation_id completion_sha256 settled_at
    pure next

/-- The record after a call: a refused one changes nothing. -/
def after (L : Ledger) (prior : Envelope Body) (op : Op) : Envelope Body :=
  match step L prior op with
  | .ok next => next
  | .error _ => prior

/-- The record after a sequence of calls, accepted or refused. -/
def run (L : Ledger) (record : Envelope Body) (ops : List Op) : Envelope Body :=
  ops.foldl (after L) record

end vfy.child_ledger
