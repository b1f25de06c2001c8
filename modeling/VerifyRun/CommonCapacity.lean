-- One shared pool of dispatch slots and retained output bytes. Its owner signs
-- every reservation of a child, and the pool counts what was ever reserved.
import VerifyRun.ChildLedger

namespace vfy.common_capacity

open python keys outcomes child_ledger

def OUTPUT_HOLD : Nat := 262144
def PROFILE : Str := "vfy.common-capacity/1"
def STATE : Str := "vfy.common-capacity-state/1"
def RESERVATION : Str := "vfy.common-reservation/1"

/-- `integer` of a number. -/
def integer (n : Nat) : Prop := n ≤ canon.MAX_SAFE_INTEGER

instance (n : Nat) : Decidable (integer n) := inferInstanceAs (Decidable (_ ≤ _))

/-- A value that passes `integer`. -/
def integerOf (v : Value) : Checked Nat :=
  match v with
  | .int i => do
    need (0 ≤ i ∧ integer i.toNat)
    pure i.toNat
  | _ => .error (.refused REFUSED)

/-- `type(v) is str`, of a value that must be one. -/
def stringOf (v : Value) : Checked Str :=
  match v with
  | .str s => pure s
  | _ => .error (.refused REFUSED)

/-- A member of a value that the code subscripts. -/
def item (v : Value) (key : Str) : Checked Value := lift (getItem v key)

/-- `v is False` of a value. -/
def isFalseValue (v : Value) : Prop := isFalse (some v) = true

instance (v : Value) : Decidable (isFalseValue v) := inferInstanceAs (Decidable (_ = true))

/-! ## Usage -/

/-- What is used of the shared dimensions, or what there is of them. The third
one exists only in a managed epoch. -/
structure Usage where
  dispatch_slots : Nat
  retained_output_bytes : Nat
  managed_receipt_bytes : Option Nat
deriving DecidableEq

/-- `all(used[k] <= v for k, v in capacities.items())`. -/
def Usage.within (used capacities : Usage) : Prop :=
  used.dispatch_slots ≤ capacities.dispatch_slots ∧
  used.retained_output_bytes ≤ capacities.retained_output_bytes ∧
  ∀ u ∈ used.managed_receipt_bytes, ∀ c ∈ capacities.managed_receipt_bytes, u ≤ c

instance (used capacities : Usage) : Decidable (used.within capacities) :=
  inferInstanceAs (Decidable (_ ∧ _ ∧ _))

/-! ## The owner -/

/-- What the configuration of a pool selects. -/
structure Config where
  pool_id : Str
  owner_issuer : Str
  dispatch_slots : Nat
  retained_output_bytes : Nat

def Config.capacities (c : Config) : Usage where
  dispatch_slots := c.dispatch_slots
  retained_output_bytes := c.retained_output_bytes
  managed_receipt_bytes := none

def CONFIG_KEYS : List Str := ["schema", "pool_id", "owner_issuer", "capacities", "scope"]

/-- The checks of `CapacityOwner.__init__` on its configuration. -/
def read_config (config_bytes : ByteArray) (owner_issuer : Str) : Checked Config := do
  let c ← lift (load.load_json_bytes config_bytes)
  let _ ← needKeys c CONFIG_KEYS
  let schema ← item c "schema"
  let issuer ← item c "owner_issuer"
  let pool_id ← textOf (← item c "pool_id")
  let scope ← item c "scope"
  need (isStr schema PROFILE ∧ isStr issuer owner_issuer ∧ isStr scope "REVIEWED_LOCAL_VERIFIER_ONLY")
  let capacities ← item c "capacities"
  let _ ← needKeys capacities ["dispatch_slots", "retained_output_bytes"]
  let dispatch_slots ← integerOf (← item capacities "dispatch_slots")
  let retained_output_bytes ← integerOf (← item capacities "retained_output_bytes")
  pure { pool_id, owner_issuer, dispatch_slots, retained_output_bytes }

/-- `CapacityOwner`. -/
structure Owner where
  root : Str
  host : Host
  key : List UInt8
  issuer : Str
  trust : Trust
  config_bytes : ByteArray
  config : Config
  child_trust : Trust
  observer : Value
  owner_profile : Value

/-- No issuer of the children has the key of the owner. -/
def independent (child_trust : Trust) (owner_public : Str) : Prop :=
  child_trust ≠ [] ∧ ∀ e ∈ child_trust, e.2.public_key_hex ≠ owner_public

instance (child_trust : Trust) (owner_public : Str) : Decidable (independent child_trust owner_public) :=
  decidable_of_iff (child_trust.isEmpty = false ∧ ∀ e ∈ child_trust, e.2.public_key_hex ≠ owner_public)
    (by simp [independent, List.isEmpty_eq_false_iff])

/-- `CapacityOwner.__init__`. -/
def init (root : Str) (host : Host) (key : List UInt8) (issuer : Str) (trust : Trust)
    (config_bytes : ByteArray) (child_trust : Trust) (observer owner_profile : Value) :
    Checked Owner := do
  let public_key := host.public_key_hex key
  match trust.lookup issuer with
  | none => .error (.refused REFUSED)
  | some entry => do
    need (entry.public_key_hex = public_key ∧ python.eq entry.producer_identity host.producer)
    needOr (independent child_trust public_key)
      "Capacity owner must use independently selected issuer key."
    let config ← read_config config_bytes issuer
    pure { root, host, key, issuer, trust, config_bytes, config, child_trust, observer,
           owner_profile }

/-! ## The records of a pool -/

/-- The JSON value of a trust. -/
def trustValue (trust : Trust) : Value := .dict (trust.map fun e => (e.1, .dict
  [("public_key_hex", .str e.2.public_key_hex), ("producer_identity", e.2.producer_identity)]))

/-- What a reservation is for. -/
structure Binding where
  pool_id : Str
  config_sha256 : Str
  pool_root : Str
  task_key : Str
  task_identity : Value
  parent_start_sha256 : Str
  parent_operation_id : Str
  parent_attempt_id : Str
  child_id : Str
  request_identity : Str
  request_sha256 : Str
  child_trust : Trust
  input_sha256 : Value
  ledger_root : Str
  budget_sha256 : Str
  observer : Value

def Binding.members (b : Binding) : List (Str × Value) :=
  [("pool_id", .str b.pool_id), ("config_sha256", .str b.config_sha256),
   ("pool_root", .str b.pool_root), ("task_key", .str b.task_key),
   ("task_identity", b.task_identity), ("parent_start_sha256", .str b.parent_start_sha256),
   ("parent_operation_id", .str b.parent_operation_id),
   ("parent_attempt_id", .str b.parent_attempt_id), ("child_id", .str b.child_id),
   ("request_identity", .str b.request_identity), ("request_sha256", .str b.request_sha256),
   ("child_trust", trustValue b.child_trust), ("input_sha256", b.input_sha256),
   ("ledger_root", .str b.ledger_root), ("budget_sha256", .str b.budget_sha256),
   ("observer", b.observer)]

/-- The names of a child: its task, operation, attempt and id. -/
def Binding.logical_key (b : Binding) : Str × Str × Str × Str :=
  (b.task_key, b.parent_operation_id, b.parent_attempt_id, b.child_id)

/-- What the owner signs for a reservation. -/
structure Ticket where
  binding : Binding
  reservation_id : Str
  retained_output_bytes : Nat
  dispatch_slots : Nat

instance : Encoded Ticket := ⟨fun t => .dict (t.binding.members ++
  ([("schema", .str RESERVATION), ("reservation_id", .str t.reservation_id),
    ("retained_output_bytes", .int t.retained_output_bytes),
    ("dispatch_slots", .int t.dispatch_slots), ("authority_granted", .bool false),
    ("automatic_retry", .bool false)] : List (Str × Value)))⟩

/-- The records of the child ledger that a dispatch names. -/
structure Dispatch where
  reservation : Envelope Value
  binding : Envelope Value

def Dispatch.value (d : Dispatch) : Value :=
  .dict [("reservation", Encoded.value d.reservation), ("binding", Encoded.value d.binding)]

def KNOWN : Str := "KNOWN_LOCAL_RETAINED_OUTPUT"
def UNKNOWN_HOLD : Str := "UNKNOWN_HOLD_RETAINED"

/-- What the owner signs for a settlement. -/
structure Settlement where
  reservation_id : Str
  reservation_sha256 : Str
  acquisition_sha256 : Str
  child_settlement_sha256 : Str
  retained_bytes : Nat
  dispatch_slots_consumed : Nat
  state : Str

instance : Encoded Settlement := ⟨fun s => .dict
  [("schema", .str "vfy.common-settlement/1"), ("reservation_id", .str s.reservation_id),
   ("reservation_sha256", .str s.reservation_sha256),
   ("acquisition_sha256", .str s.acquisition_sha256),
   ("child_settlement_sha256", .str s.child_settlement_sha256),
   ("retained_bytes", .int s.retained_bytes),
   ("dispatch_slots_consumed", .int s.dispatch_slots_consumed), ("state", .str s.state),
   ("authority_granted", .bool false), ("automatic_retry", .bool false)]⟩

/-- A child that is held in the pool. -/
structure Entry where
  key : Str
  binding : Binding
  ticket : Envelope Ticket
  dispatch : Option Dispatch
  settlement : Option (Envelope Settlement)
  retained_bytes : Nat

def Entry.value (e : Entry) : Value := .dict
  [("key", .str e.key), ("binding", .dict e.binding.members), ("ticket", Encoded.value e.ticket),
   ("dispatch", (e.dispatch.map Dispatch.value).getD .null), ("settlement", orNull e.settlement),
   ("retained_bytes", .int e.retained_bytes)]

/-- The body of the state of a pool. -/
structure Body where
  pool_root : Str
  config_sha256 : Str
  owner_profile : Value
  observer : Value
  revision : Nat
  previous : Option Str
  entries : List Entry

instance : Encoded Body := ⟨fun b => .dict
  [("schema", .str STATE), ("pool_root", .str b.pool_root), ("config_sha256", .str b.config_sha256),
   ("owner_profile", b.owner_profile), ("observer", b.observer), ("revision", .int b.revision),
   ("previous", (b.previous.map .str).getD .null), ("entries", .list (b.entries.map Entry.value)),
   ("authority_granted", .bool false), ("automatic_retry", .bool false)]⟩

/-- `usage`. -/
def usage (b : Body) : Usage where
  dispatch_slots := b.entries.length
  retained_output_bytes := (b.entries.map Entry.retained_bytes).sum
  managed_receipt_bytes := none

/-! ## Reading a state -/

/-- The ticket of an entry. -/
def ticketOf (binding : Binding) (key : Str) : Ticket where
  binding := binding
  reservation_id := key
  retained_output_bytes := OUTPUT_HOLD
  dispatch_slots := 1

/-- The dispatch of an entry names the reservation of its child. -/
def check_dispatch (O : Owner) (e : Entry) (d : Dispatch) : Checked Unit := do
  let cr ← authenticate O.host d.reservation e.binding.child_trust
  let cb ← authenticate O.host d.binding e.binding.child_trust
  let start ← item cr "parent_start_sha256"
  let child ← item cr "child_id"
  need (isStr start e.binding.parent_start_sha256 ∧ isStr child e.binding.child_id)
  let request_identity ← item cb "request_identity"
  let request_sha256 ← item cb "request_sha256"
  need (isStr request_identity e.binding.request_identity ∧
    isStr request_sha256 e.binding.request_sha256)
  let reservation_sha256 ← item cb "reservation_sha256"
  let common_reservation_sha256 ← item cb "common_reservation_sha256"
  need (isStr reservation_sha256 d.reservation.sha256 ∧
    isStr common_reservation_sha256 e.ticket.sha256)

/-- The settlement of an entry names its ticket and what it retains. -/
def check_settlement (O : Owner) (e : Entry) (s : Envelope Settlement) : Checked Unit := do
  need (s.issuer_identity = O.config.owner_issuer)
  let f ← authenticate O.host s O.trust
  need (f.reservation_id = e.key ∧ f.reservation_sha256 = e.ticket.sha256 ∧
    f.retained_bytes = e.retained_bytes ∧ f.dispatch_slots_consumed = 1)
  need (e.dispatch.isSome ∧ (f.state = KNOWN ∨ f.state = UNKNOWN_HOLD))
  need (f.state = UNKNOWN_HOLD → e.retained_bytes = OUTPUT_HOLD)

/-- The events of an entry: its reservation, and its dispatch and settlement where they are. -/
def Entry.events (e : Entry) : Nat :=
  1 + (if e.dispatch.isSome then 1 else 0) + if e.settlement.isSome then 1 else 0

/-- What the reader has met so far. -/
structure Seen where
  keys : List Str
  logical : List (Str × Str × Str × Str)
  event_count : Nat

/-- One turn of the loop of `_validate_record`. -/
def check_entry (O : Owner) (owner_public : Str) (seen : Seen) (e : Entry) : Checked Seen := do
  need (e.key ∉ seen.keys)
  need (e.binding.logical_key ∉ seen.logical)
  let d ← digest (.dict e.binding.members)
  need (e.key = d)
  need (independent e.binding.child_trust owner_public)
  match e.dispatch with
  | some dispatch => check_dispatch O e dispatch
  | none => pure ()
  need (e.ticket.issuer_identity = O.config.owner_issuer)
  let t ← authenticate O.host e.ticket O.trust
  need (python.eq (value t) (value (ticketOf e.binding e.key)) = true)
  need (integer e.retained_bytes ∧ e.retained_bytes ≤ OUTPUT_HOLD)
  match e.settlement with
  | some s => check_settlement O e s
  | none => need (e.retained_bytes = OUTPUT_HOLD)
  pure { keys := seen.keys ++ [e.key], logical := seen.logical ++ [e.binding.logical_key],
         event_count := seen.event_count + e.events }

/-- `_validate_record`. -/
def validate_record (O : Owner) (record : Envelope Body) : Checked Unit := do
  need (record.issuer_identity = O.config.owner_issuer)
  let b ← authenticate O.host record O.trust
  need (b.pool_root = O.root ∧ b.config_sha256 = sha O.config_bytes)
  need (python.eq b.owner_profile O.owner_profile ∧ python.eq b.observer O.observer)
  match O.trust.lookup O.config.owner_issuer with
  | none => .error (.raised .key_error)
  | some owner => do
    let seen ← b.entries.foldlM (check_entry O owner.public_key_hex) ⟨[], [], 0⟩
    need (b.revision = seen.event_count)
    need ((usage b).within O.config.capacities)

/-- `_load`, over what is in the state file. -/
def load (O : Owner) (record : Envelope Body) : Checked Unit := do
  read_record record
  validate_record O record

/-! ## Writing -/

/-- `CapacityOwner.create`: the record of a new pool, in an empty directory. -/
def create (O : Owner) : Checked (Envelope Body) :=
  envelope O.host
    { pool_root := O.root, config_sha256 := sha O.config_bytes, owner_profile := O.owner_profile,
      observer := O.observer, revision := 0, previous := none, entries := [] } O.key O.issuer

/-- The record that `_change` publishes over a record. -/
def change {α : Type} (O : Owner) (old : Envelope Body) (fn : Body → Checked (Body × α)) :
    Checked (Envelope Body × α) := do
  load O old
  let (b, result) ← fn old.body
  let b := { b with revision := b.revision + 1, previous := some old.sha256 }
  let next ← envelope O.host b O.key O.issuer
  let data ← raw (value next)
  need (data.size ≤ MAX_BYTES)
  pure (next, result)

/-- `json.dumps` with sorted keys and no spaces: a loaded value has its canonical text. -/
def dumps (v : Value) : Checked ByteArray := raw v

/-- The request and the child ledger are of one task, and the child is one of its children. -/
def bind_request (O : Owner) (ledger : Ledger) (ledger_root : Str) (request_bytes : ByteArray) :
    Checked Binding := do
  let q ← lift (load.load_json_bytes request_bytes)
  let p ← parent_binding ledger.start_bytes ledger.basis
  let schema ← item q "schema"
  let authority_granted ← item q "authority_granted"
  let automatic_retry ← item q "automatic_retry"
  need (isStr schema "engineer.child-dispatch-request/1" ∧ isFalseValue authority_granted ∧
    isFalseValue automatic_retry)
  let task_key ← item q "task_key"
  let task_identity ← item q "task_identity"
  let operation_id ← item q "operation_id"
  let attempt_id ← item q "attempt_id"
  need (isStr task_key p.task_key ∧ python.eq task_identity p.task_identity ∧
    isStr operation_id p.parent_binding.operation_id ∧
    isStr attempt_id p.parent_binding.attempt_id)
  let start ← item (← item q "parent_start") "sha256"
  let child_id ← stringOf (← item q "child_id")
  need (isStr start (sha ledger.start_bytes) ∧ child_id ∈ p.expected_child_ids)
  let identity_sha256 ← stringOf (← item q "identity_sha256")
  let unsigned ← match q with
    | .dict members => dumps (.dict (members.filter fun m => m.1 ≠ lit "identity_sha256"))
    | _ => .error (.raised .attribute_error)
  need (identity_sha256 = sha unsigned)
  needOr (python.eq (trustValue ledger.trust) (trustValue O.child_trust) = true)
    "Unselected child issuer."
  let input_sha256 ← item q "input_sha256"
  pure { pool_id := O.config.pool_id, config_sha256 := sha O.config_bytes, pool_root := O.root,
         task_key := p.task_key, task_identity := p.task_identity,
         parent_start_sha256 := sha ledger.start_bytes,
         parent_operation_id := p.parent_binding.operation_id,
         parent_attempt_id := p.parent_binding.attempt_id, child_id,
         request_identity := identity_sha256, request_sha256 := sha request_bytes,
         child_trust := O.child_trust, input_sha256, ledger_root,
         budget_sha256 := sha ledger.budget_bytes, observer := O.observer }

/-- The record at `common-owner.json`, which ties a child ledger to this pool. -/
def marker (O : Owner) (ledger_root : Str) : Checked ByteArray := do
  let record ← envelope O.host
    (.dict [("schema", .str "vfy.common-owner-binding/1"), ("pool_root", .str O.root),
      ("config_sha256", .str (sha O.config_bytes)), ("owner_issuer", .str O.issuer),
      ("ledger_root", .str ledger_root), ("authority_granted", .bool false),
      ("automatic_retry", .bool false)] : Value) O.key O.issuer
  raw (value record)

/-- The child of the binding is the child of the entry. -/
def sameChild (e : Entry) (binding : Binding) : Prop :=
  (e.binding.parent_start_sha256 = binding.parent_start_sha256 ∧
    e.binding.child_id = binding.child_id) ∨ e.binding.logical_key = binding.logical_key

instance (e : Entry) (binding : Binding) : Decidable (sameChild e binding) :=
  inferInstanceAs (Decidable (_ ∨ _))

/-- A partition that is bound already is bound to this pool. -/
def check_partition (marker : ByteArray) (present : Option ByteArray) : Checked Unit :=
  match present with
  | some bytes => needOr (bytes = marker) "Partition bound to a different pool."
  | none => pure ()

/-- What `reserve` does to a body, where `present` is what is at `common-owner.json`. -/
def reserve_entry (O : Owner) (binding : Binding) (key : Str) (present : Option ByteArray)
    (b : Body) : Checked (Body × Envelope Ticket) := do
  let marker ← marker O binding.ledger_root
  check_partition marker present
  -- Changing request bytes or partition store cannot buy a second attempt at same child.
  needOr (∀ e ∈ b.entries, ¬ sameChild e binding) "Child already held/consumed in this pool; no resend."
  let used := usage b
  needOr (used.dispatch_slots + 1 ≤ O.config.dispatch_slots ∧
    used.retained_output_bytes + OUTPUT_HOLD ≤ O.config.retained_output_bytes)
    "Common capacity exhausted; no dispatch."
  let ticket ← envelope O.host (ticketOf binding key) O.key O.issuer
  pure ({ b with entries := b.entries ++ [{ key, binding, ticket, dispatch := none,
                                            settlement := none,
                                            retained_bytes := OUTPUT_HOLD }] }, ticket)

/-- `reserve`. -/
def reserve (O : Owner) (old : Envelope Body) (ledger : Ledger) (ledger_root : Str)
    (request_bytes : ByteArray) (present : Option ByteArray) :
    Checked (Envelope Body × Envelope Ticket) := do
  let binding ← bind_request O ledger ledger_root request_bytes
  let key ← digest (.dict binding.members)
  change O old (reserve_entry O binding key present)

/-- `_entry`: the one entry of a ticket, and where it stands. -/
def entry_of (O : Owner) (b : Body) (ticket : Envelope Ticket) : Checked (Entry × Nat) := do
  let t ← authenticate O.host ticket O.trust
  match b.entries.zipIdx.filter fun p => p.1.key = t.reservation_id with
  | [found] => do
    need (python.eq (value found.1.ticket) (value ticket) = true)
    pure found
  | _ => .error (.refused REFUSED)

/-- The body with this entry at a position. -/
def Body.setEntry (b : Body) (i : Nat) (e : Entry) : Body := { b with entries := b.entries.set i e }

/-- The owner still selects the children of the entry. -/
def selects (O : Owner) (e : Entry) : Prop :=
  python.eq (trustValue O.child_trust) (trustValue e.binding.child_trust) = true

instance (O : Owner) (e : Entry) : Decidable (selects O e) := inferInstanceAs (Decidable (_ = true))

/-- What `bind_dispatch` does to a body. -/
def bind_entry (O : Owner) (ticket : Envelope Ticket) (reservation binding_record : Envelope Value)
    (b : Body) : Checked (Body × Dispatch) := do
  let (e, i) ← entry_of O b ticket
  need (e.dispatch.isNone ∧ selects O e)
  let r ← authenticate O.host reservation O.child_trust
  let d ← authenticate O.host binding_record O.child_trust
  let start ← item r "parent_start_sha256"
  let child_id ← item r "child_id"
  let budget_sha256 ← item r "budget_sha256"
  need (isStr start e.binding.parent_start_sha256 ∧ isStr child_id e.binding.child_id ∧
    isStr budget_sha256 e.binding.budget_sha256)
  let reservation_sha256 ← item d "reservation_sha256"
  let request_sha256 ← item d "request_sha256"
  let request_identity ← item d "request_identity"
  let observer ← item d "observer"
  need (isStr reservation_sha256 reservation.sha256 ∧ isStr request_sha256 e.binding.request_sha256 ∧
    isStr request_identity e.binding.request_identity ∧ python.eq observer O.observer)
  let common_reservation_sha256 ← item d "common_reservation_sha256"
  need (isStr common_reservation_sha256 ticket.sha256)
  let dispatch : Dispatch := { reservation, binding := binding_record }
  pure (b.setEntry i { e with dispatch := some dispatch }, dispatch)

/-- `bind_dispatch`. -/
def bind_dispatch (O : Owner) (old : Envelope Body) (ticket : Envelope Ticket)
    (reservation binding_record : Envelope Value) : Checked (Envelope Body × Dispatch) :=
  change O old (bind_entry O ticket reservation binding_record)

/-- The result of a dispatch, as `settle` is given it. -/
structure Result where
  reservation : Envelope Value
  acquisition : Envelope Value
  completion : Envelope Value
  settlement : Envelope Value
  stdout : ByteArray
  stderr : ByteArray

/-- `bool(v)`. -/
def truthy : Value → Bool
  | .null => false
  | .bool b => b
  | .int i => i ≠ 0
  | .str s => s ≠ []
  | .list items => !items.isEmpty
  | .dict members => !members.isEmpty

/-- The bytes that a result captured. -/
def Result.captured (r : Result) : Nat := r.stdout.size + r.stderr.size

/-- The amount of the console axis is the number of captured bytes. -/
def consoleAmount (amounts : Amounts) (n : Nat) : Checked Unit :=
  match amounts.lookup (lit "captured_console_bytes") with
  | none => .error (.raised .key_error)
  | some q => need (q = some (n : ℚ))

/-- `known` of `settle`: each record is looked at only where the ones before it agree. -/
def known_result (a c s : Value) : Checked Bool := do
  let acquired ← item a "service_performed"
  let completed ← item c "service_performed"
  if python.eq acquired completed = false then pure false else do
  let settled ← item s "service_performed"
  if (python.eq completed settled && isStr settled "PERFORMED") = false then pure false else do
  let timed_out ← item a "timed_out"
  if truthy timed_out then pure false else do
  let output_truncated ← item a "output_truncated"
  if truthy output_truncated then pure false else do
  let exit_status ← item a "exit_status"
  pure (python.eq exit_status (.int 0))

/-- The result corresponds to the dispatch, and whether its cost is known. -/
def check_result (O : Owner) (dispatch : Dispatch) (result : Result) : Checked Bool := do
  need (python.eq (value result.reservation) (value dispatch.reservation) = true)
  let a ← authenticate O.host result.acquisition O.child_trust
  let c ← authenticate O.host result.completion O.child_trust
  let s ← authenticate O.host result.settlement O.child_trust
  let binding ← raw (value dispatch.binding)
  let binding_sha256 ← item a "binding_sha256"
  let observer ← item a "observer"
  need (isStr binding_sha256 (sha binding) ∧ python.eq observer O.observer)
  let completion_sha256 ← item a "completion_sha256"
  let settlement_sha256 ← item a "settlement_sha256"
  need (isStr completion_sha256 result.completion.sha256 ∧
    isStr settlement_sha256 result.settlement.sha256)
  let completed ← item c "reservation_sha256"
  let settled ← item s "reservation_sha256"
  let settled_completion ← item s "completion_sha256"
  need (isStr completed dispatch.reservation.sha256 ∧ isStr settled dispatch.reservation.sha256 ∧
    isStr settled_completion result.completion.sha256)
  let n := result.captured
  let captured_bytes ← item a "captured_bytes"
  need (n ≤ OUTPUT_HOLD ∧ python.eq captured_bytes (.int n))
  let stdout_sha256 ← item a "stdout_sha256"
  let stderr_sha256 ← item a "stderr_sha256"
  need (isStr stdout_sha256 (sha result.stdout) ∧ isStr stderr_sha256 (sha result.stderr))
  let rows ← item c "resource_rows"
  let measured ← axes rows "measured_amount"
  consoleAmount measured n
  let known ← known_result a c s
  if known then do
    let rows ← item s "resource_rows"
    let settled ← axes rows "settled_amount_or_UNKNOWN"
    consoleAmount settled n
  else pure ()
  pure known

/-- What `settle` does to a body. -/
def settle_entry (O : Owner) (ticket : Envelope Ticket) (result : Result) (b : Body) :
    Checked (Body × Envelope Settlement) := do
  let (e, i) ← entry_of O b ticket
  need (e.settlement.isNone ∧ selects O e)
  match e.dispatch with
  | none => .error (.refused REFUSED)
  | some dispatch => do
    let known ← check_result O dispatch result
    let retained_bytes := if known then result.captured else OUTPUT_HOLD
    let settlement ← envelope O.host
      { reservation_id := e.key, reservation_sha256 := ticket.sha256,
        acquisition_sha256 := result.acquisition.sha256,
        child_settlement_sha256 := result.settlement.sha256, retained_bytes,
        dispatch_slots_consumed := 1, state := if known then KNOWN else UNKNOWN_HOLD } O.key O.issuer
    pure (b.setEntry i { e with settlement := some settlement, retained_bytes }, settlement)

/-- `settle`. -/
def settle (O : Owner) (old : Envelope Body) (ticket : Envelope Ticket) (result : Result) :
    Checked (Envelope Body × Envelope Settlement) :=
  change O old (settle_entry O ticket result)

/-- `verify_capacity_snapshot`: what a state says to one who selects the trust
of every request. -/
def verify_capacity_snapshot (O : Owner) (record : Envelope Body)
    (expected_child_trusts : List (Str × Trust)) : Checked (Nat × Usage) := do
  load O record
  let selected := dictOf (record.body.entries.map fun e =>
    (e.binding.request_identity, trustValue e.binding.child_trust))
  let expected := expected_child_trusts.map fun e => (e.1, trustValue e.2)
  needOr (python.eq (.dict selected) (.dict expected) = true)
    "Exact per-request child trust selections required."
  pure (record.body.revision, usage record.body)

end vfy.common_capacity
