-- The managed epoch of a pool: one additive grant over a frozen legacy state,
-- then holds for receipts, each consumed once through a token in memory.
import VerifyRun.Evidence
import VerifyRun.Lib.Journal

namespace vfy.managed_capacity

open python keys outcomes child_ledger common_capacity engineer

def PROFILE : Str := "vfy.managed-capacity/1"
def EFFECT : Str := "managed-json-receipt/1"
def HOLD : Nat := 4096
def GRANT_SLOTS : Nat := 3
def GRANT_BYTES : Nat := 12288

/-! ## Paths and files -/

/-- The parts of a path: what stands between its slashes, without the empty
parts and the dots. -/
def parts (s : Str) : List Str :=
  (s.splitOnP (· = .scalar '/')).filter fun p => p ≠ [] ∧ p ≠ lit "."

/-- What a call finds in the file system, at the parts of a path. -/
structure Files where
  /-- The bytes of a regular file that is not too large. -/
  read : List Str → Option ByteArray
  lexists : List Str → Bool
  is_dir : List Str → Bool
  /-- No part of the path is a symbolic link. -/
  resolved : List Str → Bool

/-- Two slashes at the start, and no third, are a root of their own, which
`resolve` does not keep. -/
def twoSlashes (v : Str) : Bool :=
  decide (v.take 2 = [.scalar '/', .scalar '/'] ∧ v[2]? ≠ some (.scalar '/'))

/-- `path`. -/
def path (F : Files) (v : Str) : Checked (List Str) := do
  need (text v)
  needOr (v.head? = some (.scalar '/') ∧ twoSlashes v = false ∧ F.resolved (parts v) = true)
    "Noncanonical or symlink path."
  pure (parts v)

/-- `read_file`, of a path that is resolved. -/
def read_file (F : Files) (p : List Str) : Checked ByteArray :=
  match F.read p with
  | some data => pure data
  | none => .error (.refused REFUSED)

/-- A reference: a path and the digest of what is there. -/
def refOf (v : Value) : Checked Artifact := do
  let _ ← needKeys v ["path", "sha256"]
  let path ← textOf (← item v "path")
  let sha256 ← hex64Of (← item v "sha256")
  pure { path, sha256 }

/-- `checked_ref`. -/
def checked_ref (F : Files) (r : Artifact) : Checked ByteArray := do
  need (hex64 r.sha256)
  let p ← path F r.path
  let data ← read_file F p
  needOr (sha data = r.sha256) "Selected file changed."
  pure data

/-! ## The records of the epoch -/

/-- `selected_callback_identity`. -/
structure Callback where
  id : Str
  code_sha256 : Str
  adapter_source_sha256 : Str
  python : Str
deriving DecidableEq

def Callback.value (c : Callback) : Value := .dict
  [("id", .str c.id), ("code_sha256", .str c.code_sha256),
   ("adapter_source_sha256", .str c.adapter_source_sha256), ("python", .str c.python)]

/-- The head that a grant is for. -/
structure Head where
  raw_sha256 : Str
  envelope_sha256 : Str
  revision : Nat
deriving DecidableEq

def Head.value (h : Head) : Value := .dict
  [("raw_sha256", .str h.raw_sha256), ("envelope_sha256", .str h.envelope_sha256),
   ("revision", .int h.revision)]

/-- A request for capacity. -/
structure Grant where
  grant_id : Str
  pool_root : Str
  config_sha256 : Str
  owner_issuer : Str
  expected_head : Value
  dispatch_slots : Nat
  managed_receipt_bytes : Nat

def GRANT_SCHEMA : Str := "vfy.local-capacity-grant-request/1"
def GRANT_SCOPE : Str := "EXPLICIT_NONFINANCIAL_LOCAL_DEVELOPMENT_GRANT_NOT_ACTION_AUTHORITY"

def Grant.value (g : Grant) : Value := .dict
  [("schema", .str GRANT_SCHEMA), ("grant_id", .str g.grant_id), ("pool_root", .str g.pool_root),
   ("config_sha256", .str g.config_sha256), ("owner_issuer", .str g.owner_issuer),
   ("expected_head", g.expected_head),
   ("additions", .dict [("dispatch_slots", .int g.dispatch_slots),
      ("managed_receipt_bytes", .int g.managed_receipt_bytes)]),
   ("profile_extension", .str EFFECT), ("retained_byte_dimension", .str "managed_receipt_bytes"),
   ("scope", .str GRANT_SCOPE), ("authority_granted", .bool false),
   ("automatic_retry", .bool false)]

/-- `task_identity` of a managed request. -/
structure TaskIdentity where
  repository : Str
  subject_sha256 : Str
  task_id : Str
deriving DecidableEq

def TaskIdentity.value (t : TaskIdentity) : Value := .dict
  [("repository", .str t.repository), ("subject_sha256", .str t.subject_sha256),
   ("task_id", .str t.task_id)]

/-- What a managed hold is for. -/
structure Binding where
  task_key : Str
  task_identity : TaskIdentity
  operation_id : Str
  attempt_id : Str
  parent_start : Artifact
  basis : Artifact
  child_id : Str
  capture : Artifact
  capture_identity : Str
  managed_state : Str
  managed_attempt : Str
  destination : Str
  callback_identity : Callback
  receipt_sha256 : Str
  receipt_bytes : Nat
  complete_sha256 : Str
  complete_bytes : Nat
  source_refs : List Artifact
  binding_ref : Artifact
  binding_basis : Artifact
  recorded_request_sha256 : Str

def Binding.members (q : Binding) : List (Str × Value) :=
  [("task_key", .str q.task_key), ("task_identity", q.task_identity.value),
   ("operation_id", .str q.operation_id), ("attempt_id", .str q.attempt_id),
   ("parent_start", q.parent_start.value), ("basis", q.basis.value), ("child_id", .str q.child_id),
   ("capture", q.capture.value), ("capture_identity", .str q.capture_identity),
   ("managed_state", .str q.managed_state), ("managed_attempt", .str q.managed_attempt),
   ("destination", .str q.destination), ("callback_identity", q.callback_identity.value),
   ("receipt_sha256", .str q.receipt_sha256), ("receipt_bytes", .int q.receipt_bytes),
   ("complete_sha256", .str q.complete_sha256), ("complete_bytes", .int q.complete_bytes),
   ("source_refs", .list (q.source_refs.map Artifact.value)), ("binding_ref", q.binding_ref.value),
   ("binding_basis", q.binding_basis.value),
   ("recorded_request_sha256", .str q.recorded_request_sha256)]

def KNOWN : Str := "KNOWN_LOCAL_MANAGED_RECEIPT"

/-- How a hold ended. -/
structure Settlement where
  state : Str
  recorded_at : Str
  reason : Option Str
  callback_sha256 : Option Str
  complete_sha256 : Option Str

/-- A text that may be missing. -/
def textOrNull (s : Option Str) : Value := (s.map .str).getD .null

def Settlement.value (s : Settlement) : Value := .dict
  [("state", .str s.state), ("recorded_at", .str s.recorded_at), ("reason", textOrNull s.reason),
   ("callback_sha256", textOrNull s.callback_sha256),
   ("complete_sha256", textOrNull s.complete_sha256)]

/-- A hold of the epoch. Its consumption is the digest of its receipt. -/
structure Entry where
  key : Str
  binding : Binding
  recorded_at : Str
  consumption : Option Str
  settlement : Option Settlement
  retained_bytes : Nat

def Entry.value (e : Entry) : Value := .dict
  [("key", .str e.key), ("binding", .dict e.binding.members), ("recorded_at", .str e.recorded_at),
   ("consumption", (e.consumption.map fun s => Value.dict [("receipt_sha256", .str s)]).getD .null),
   ("settlement", (e.settlement.map Settlement.value).getD .null),
   ("retained_bytes", .int e.retained_bytes)]

/-- The lowercase hex text of bytes. -/
def hexOf (b : ByteArray) : Str :=
  b.data.toList.flatMap fun n =>
    [.scalar (Nat.digitChar (n.toNat / 16)), .scalar (Nat.digitChar (n.toNat % 16))]

/-- The body of the state of a managed epoch. -/
structure Body where
  pool_root : Str
  config_sha256 : Str
  owner_profile : Value
  legacy_raw : ByteArray
  callback_identity : Callback
  revision : Nat
  previous : Str
  grants : List (Grant × Str)
  managed_entries : List Entry

instance : Encoded Body := ⟨fun b => .dict
  [("schema", .str PROFILE), ("pool_root", .str b.pool_root), ("config_sha256", .str b.config_sha256),
   ("owner_profile", b.owner_profile), ("legacy_raw_hex", .str (hexOf b.legacy_raw)),
   ("callback_identity", b.callback_identity.value), ("revision", .int b.revision),
   ("previous", .str b.previous),
   ("grants", .list (b.grants.map fun g =>
      Value.dict [("request", g.1.value), ("recorded_at", .str g.2)])),
   ("managed_entries", .list (b.managed_entries.map Entry.value)),
   ("authority_granted", .bool false), ("automatic_retry", .bool false)]⟩

/-- `ManagedCapacityOwner`. -/
structure ManagedOwner where
  owner : Owner
  legacy : Envelope common_capacity.Body
  legacy_bytes : ByteArray
  legacy_trusts : List (Str × Trust)
  callback : Callback
  profile : Value

/-- `self.legacy_view`. -/
def legacy_view (M : ManagedOwner) : Checked (Nat × Usage) := do
  let b ← raw (value M.legacy)
  need (b = M.legacy_bytes)
  verify_capacity_snapshot M.owner M.legacy M.legacy_trusts

/-- `ManagedCapacityOwner.__init__`, over the owner that its base class makes. -/
def init (owner : Owner) (legacy : Envelope common_capacity.Body) (legacy_bytes : ByteArray)
    (legacy_trusts : List (Str × Trust)) (callback : Callback) (profile : Value) : Checked ManagedOwner := do
  let M : ManagedOwner := { owner, legacy, legacy_bytes, legacy_trusts, callback, profile }
  let _ ← legacy_view M
  need (callback.id = EFFECT ∧ hex64 callback.code_sha256 ∧ hex64 callback.adapter_source_sha256 ∧
    text callback.python)
  pure M

/-! ## Usage -/

/-- `usage`. -/
def usage (old : Usage) (b : Body) : Usage where
  dispatch_slots := old.dispatch_slots + b.managed_entries.length
  retained_output_bytes := old.retained_output_bytes
  managed_receipt_bytes := some (b.managed_entries.map Entry.retained_bytes).sum

/-- One turn of the loop of `capacities`. -/
def add_grant (base : Usage) (g : Grant × Str) : Checked Usage := do
  let dispatch_slots := base.dispatch_slots + g.1.dispatch_slots
  let receipt_bytes := base.managed_receipt_bytes.getD 0 + g.1.managed_receipt_bytes
  needOr (integer dispatch_slots ∧ integer receipt_bytes) "Capacity overflow."
  pure { base with dispatch_slots, managed_receipt_bytes := some receipt_bytes }

/-- `capacities`. -/
def capacities (M : ManagedOwner) (b : Body) : Checked Usage :=
  b.grants.foldlM add_grant { M.owner.config.capacities with managed_receipt_bytes := some 0 }

/-- Every used amount is an integer of the model and within what there is. -/
def fitsWithin (used caps : Usage) : Prop :=
  integer used.dispatch_slots ∧ integer used.retained_output_bytes ∧
  (∀ u ∈ used.managed_receipt_bytes, integer u) ∧ used.within caps

instance (used caps : Usage) : Decidable (fitsWithin used caps) :=
  inferInstanceAs (Decidable (_ ∧ _ ∧ _ ∧ _))

/-! ## Reading a state -/

/-- `_grant_shape`. -/
def grant_shape (M : ManagedOwner) (g : Grant) : Checked Unit := do
  need (text g.grant_id ∧ g.pool_root = M.owner.root ∧ g.config_sha256 = sha M.owner.config_bytes ∧
    g.owner_issuer = M.owner.issuer)
  need (g.dispatch_slots = GRANT_SLOTS ∧ g.managed_receipt_bytes = GRANT_BYTES)

/-- `_binding_shape`. -/
def binding_shape (M : ManagedOwner) (F : Files) (q : Binding) : Checked Unit := do
  need (text q.task_identity.repository ∧ text q.task_identity.subject_sha256 ∧
    text q.task_identity.task_id ∧ hex64 q.task_identity.subject_sha256)
  need (q.child_id = lit "managed-json-callback" ∧ q.callback_identity = M.callback)
  need (hex64 q.task_key ∧ hex64 q.capture_identity ∧ hex64 q.receipt_sha256 ∧
    hex64 q.complete_sha256 ∧ hex64 q.recorded_request_sha256)
  need (0 < q.receipt_bytes ∧ q.receipt_bytes ≤ HOLD ∧ 0 < q.complete_bytes ∧
    q.complete_bytes ≤ MAX_BYTES)
  let state ← path F q.managed_state
  let attempt ← path F q.managed_attempt
  let destination ← path F q.destination
  let capture ← path F q.capture.path
  need (attempt.dropLast = state ∧ destination = attempt ++ [lit "CALLBACK.json"] ∧
    capture = attempt ++ [lit "CAPTURE.json"])

/-- `_effect_key`, which leaves out the parent: a new one cannot resend a capture. -/
def effect_key (q : Binding) : Checked Str :=
  digest (.dict [("managed_state", .str q.managed_state), ("managed_attempt", .str q.managed_attempt),
    ("capture_identity", .str q.capture_identity), ("destination", .str q.destination),
    ("profile", .str EFFECT)])

/-- The settlement of an entry is one of the two that there are. -/
def check_settlement (e : Entry) (s : Settlement) : Checked Unit := do
  need (text s.recorded_at)
  if s.state = KNOWN then
    need (e.consumption.isSome ∧ s.reason = none ∧ s.callback_sha256 = some e.binding.receipt_sha256 ∧
      s.complete_sha256 = some e.binding.complete_sha256 ∧
      e.retained_bytes = e.binding.receipt_bytes)
  else
    need (s.state = UNKNOWN_HOLD ∧ (∃ r ∈ s.reason, text r) ∧ s.callback_sha256 = none ∧
      s.complete_sha256 = none ∧ e.retained_bytes = HOLD)

/-- The events of an entry. -/
def Entry.events (e : Entry) : Nat :=
  1 + (if e.consumption.isSome then 1 else 0) + if e.settlement.isSome then 1 else 0

/-- What the reader has met so far. -/
structure Seen where
  keys : List Str
  captures : List Str
  attempts : List Str
  destinations : List Str
  events : Nat

/-- One turn of the loop over the entries. -/
def check_entry (M : ManagedOwner) (F : Files) (seen : Seen) (e : Entry) : Checked Seen := do
  binding_shape M F e.binding
  need (integer e.retained_bytes)
  let key ← effect_key e.binding
  need (e.key = key ∧ e.key ∉ seen.keys)
  needOr (e.binding.capture_identity ∉ seen.captures ∧ e.binding.managed_attempt ∉ seen.attempts ∧
    e.binding.destination ∉ seen.destinations) "Duplicate capture or attempt destination."
  need (text e.recorded_at)
  need (∀ receipt ∈ e.consumption, receipt = e.binding.receipt_sha256)
  match e.settlement with
  | none => need (e.retained_bytes = HOLD)
  | some s => check_settlement e s
  pure { keys := seen.keys ++ [e.key], captures := seen.captures ++ [e.binding.capture_identity],
         attempts := seen.attempts ++ [e.binding.managed_attempt],
         destinations := seen.destinations ++ [e.binding.destination],
         events := seen.events + e.events }

/-- The head that the one grant of the epoch is for. -/
def headOf (M : ManagedOwner) (revision : Nat) : Head where
  raw_sha256 := sha M.legacy_bytes
  envelope_sha256 := M.legacy.sha256
  revision := revision

/-- `_validate_record`. -/
def validate_record (M : ManagedOwner) (F : Files) (record : Envelope Body) : Checked Unit := do
  let b ← authenticate M.owner.host record M.owner.trust
  need (record.issuer_identity = M.owner.issuer)
  need (python.eq b.owner_profile M.profile ∧ b.pool_root = M.owner.root ∧
    b.config_sha256 = sha M.owner.config_bytes ∧ b.callback_identity = M.callback)
  needOr (b.legacy_raw = M.legacy_bytes) "Legacy prefix must remain byte-exact."
  let (revision, used) ← legacy_view M
  match b.grants with
  | [grant] => do
    grant_shape M grant.1
    need (text grant.2)
    need (python.eq grant.1.expected_head (headOf M revision).value = true)
    let seen ← b.managed_entries.foldlM (check_entry M F) ⟨[], [], [], [], 1⟩
    need (b.revision = revision + seen.events)
    need (hex64 b.previous)
    let caps ← capacities M b
    need (fitsWithin (usage used b) caps)
  | _ => .error (.refused "This bounded epoch accepts exactly one head-bound additive grant.")

/-- `_load`, over what is in the state file. -/
def load (M : ManagedOwner) (F : Files) (record : Envelope Body) : Checked Unit := do
  read_record record
  validate_record M F record

/-! ## Writing -/

/-- `_publish`, up to the bytes that it writes: the record is checked first. -/
def publish (M : ManagedOwner) (F : Files) (b : Body) : Checked (Envelope Body) := do
  let record ← envelope M.owner.host b M.owner.key M.owner.issuer
  validate_record M F record
  let data ← raw (value record)
  need (data.size ≤ MAX_BYTES)
  pure record

/-- The grant that the bytes of a request ask for. -/
def read_grant (grant_request_bytes : ByteArray) : Checked Grant := do
  let q ← lift (load.load_json_bytes grant_request_bytes)
  let _ ← needKeys q ["schema", "grant_id", "pool_root", "config_sha256", "owner_issuer",
    "expected_head", "additions", "profile_extension", "retained_byte_dimension", "scope",
    "authority_granted", "automatic_retry"]
  let schema ← item q "schema"
  let profile_extension ← item q "profile_extension"
  let dimension ← item q "retained_byte_dimension"
  let scope ← item q "scope"
  let authority_granted ← item q "authority_granted"
  let automatic_retry ← item q "automatic_retry"
  need (isStr schema GRANT_SCHEMA ∧ isStr profile_extension EFFECT ∧
    isStr dimension "managed_receipt_bytes" ∧ isStr scope GRANT_SCOPE ∧
    isFalseValue authority_granted ∧ isFalseValue automatic_retry)
  let additions ← item q "additions"
  let _ ← needKeys additions ["dispatch_slots", "managed_receipt_bytes"]
  pure { grant_id := ← stringOf (← item q "grant_id"), pool_root := ← stringOf (← item q "pool_root"),
         config_sha256 := ← stringOf (← item q "config_sha256"),
         owner_issuer := ← stringOf (← item q "owner_issuer"),
         expected_head := ← item q "expected_head",
         dispatch_slots := ← integerOf (← item additions "dispatch_slots"),
         managed_receipt_bytes := ← integerOf (← item additions "managed_receipt_bytes") }

/-- `apply_grant`, over the legacy state: the record of the epoch. -/
def apply_grant (M : ManagedOwner) (F : Files) (current : Envelope common_capacity.Body)
    (grant_request_bytes : ByteArray) (recorded_at : Str) : Checked (Envelope Body) := do
  let g ← read_grant grant_request_bytes
  grant_shape M g
  need (text recorded_at)
  let (revision, _) ← legacy_view M
  let bytes ← raw (value current)
  needOr (bytes = M.legacy_bytes) "Grant head changed or already used; read state, never retry."
  need (python.eq g.expected_head (headOf M revision).value = true)
  publish M F
    { pool_root := M.owner.root, config_sha256 := sha M.owner.config_bytes,
      owner_profile := M.profile, legacy_raw := bytes, callback_identity := M.callback,
      revision := revision + 1, previous := M.legacy.sha256, grants := [(g, recorded_at)],
      managed_entries := [] }

/-- The record that `_change` publishes over a record. -/
def change {α : Type} (M : ManagedOwner) (F : Files) (old : Envelope Body)
    (fn : Body → Checked (Body × α)) : Checked (Envelope Body × α) := do
  load M F old
  let (b, result) ← fn old.body
  let next ← publish M F { b with revision := b.revision + 1, previous := old.sha256 }
  pure (next, result)

/-- `_check_files`. -/
def check_files (F : Files) (q : Binding) : Checked Unit := do
  let _ ← checked_ref F q.parent_start
  let _ ← checked_ref F q.basis
  let _ ← checked_ref F q.capture
  let _ ← checked_ref F q.binding_ref
  let _ ← checked_ref F q.binding_basis
  forM q.source_refs fun r => do
    let _ ← checked_ref F r
  let _ ← path F q.destination
  let _ ← path F q.managed_attempt

/-! ## Requests -/

def REQUEST_KEYS : List Str :=
  ["task_key", "task_identity", "operation_id", "attempt_id", "parent_start", "basis", "child_id",
   "capture", "capture_identity", "managed_state", "managed_attempt", "destination",
   "callback_identity", "receipt_sha256", "receipt_bytes", "complete_sha256", "complete_bytes",
   "source_refs", "binding_ref", "binding_basis"]

/-- A callback identity, as it stands in a request. -/
def callbackOf (v : Value) : Checked Callback := do
  let _ ← needKeys v ["id", "code_sha256", "adapter_source_sha256", "python"]
  pure { id := ← stringOf (← item v "id"), code_sha256 := ← stringOf (← item v "code_sha256"),
         adapter_source_sha256 := ← stringOf (← item v "adapter_source_sha256"),
         python := ← stringOf (← item v "python") }

/-- The binding that the bytes of a request ask for. -/
def read_request (request_bytes : ByteArray) : Checked Binding := do
  let q ← lift (load.load_json_bytes request_bytes)
  let _ ← needKeys q ((["schema", "authority_granted", "automatic_retry"] : List Str) ++ REQUEST_KEYS)
  let schema ← item q "schema"
  let authority_granted ← item q "authority_granted"
  let automatic_retry ← item q "automatic_retry"
  need (isStr schema "vfy.managed-dispatch-request/1" ∧ isFalseValue authority_granted ∧
    isFalseValue automatic_retry)
  let identity ← item q "task_identity"
  let _ ← needKeys identity ["repository", "subject_sha256", "task_id"]
  let source_refs ← lift (iterate (← item q "source_refs"))
  pure { task_key := ← stringOf (← item q "task_key"),
         task_identity := { repository := ← textOf (← item identity "repository"),
                            subject_sha256 := ← textOf (← item identity "subject_sha256"),
                            task_id := ← textOf (← item identity "task_id") },
         operation_id := ← stringOf (← item q "operation_id"),
         attempt_id := ← stringOf (← item q "attempt_id"),
         parent_start := ← refOf (← item q "parent_start"), basis := ← refOf (← item q "basis"),
         child_id := ← stringOf (← item q "child_id"), capture := ← refOf (← item q "capture"),
         capture_identity := ← stringOf (← item q "capture_identity"),
         managed_state := ← stringOf (← item q "managed_state"),
         managed_attempt := ← stringOf (← item q "managed_attempt"),
         destination := ← stringOf (← item q "destination"),
         callback_identity := ← callbackOf (← item q "callback_identity"),
         receipt_sha256 := ← stringOf (← item q "receipt_sha256"),
         receipt_bytes := ← integerOf (← item q "receipt_bytes"),
         complete_sha256 := ← stringOf (← item q "complete_sha256"),
         complete_bytes := ← integerOf (← item q "complete_bytes"),
         source_refs := ← source_refs.mapM refOf, binding_ref := ← refOf (← item q "binding_ref"),
         binding_basis := ← refOf (← item q "binding_basis"),
         recorded_request_sha256 := sha request_bytes }

/-- The task that an inspection of the engineer is about. -/
def inspectedTask (basis : Artifact) (t : TaskIdentity) : Value := .dict
  [("inspection_sha256", .str basis.sha256), ("task_id", .str t.task_id),
   ("task_subject_identity_sha256", .str t.subject_sha256)]

/-- The capture is the one of the request. -/
def check_capture (M : ManagedOwner) (q : Binding) (c : Value) : Checked Unit := do
  let kind ← item c "kind"
  let identity ← item c "identity_sha256"
  let callback ← item c "callback"
  let binding ← item c "common_capacity_binding"
  let repository ← item c "repository"
  let task_id ← item (← item c "contract") "task_id"
  need (isStr kind "CAPTURE" ∧ isStr identity q.capture_identity ∧
    python.eq callback M.callback.value ∧ python.eq binding q.binding_ref.value ∧
    isStr repository q.task_identity.repository ∧ isStr task_id q.task_identity.task_id)
  let task ← item (← item (← item c "snapshot") "observation") "task"
  need (python.eq task (inspectedTask q.basis q.task_identity) = true)
  match ← item c "refs" with
  | .dict refs => do
    need (python.eq q.basis.value ((refs.lookup (lit "inspection")).getD .null) = true)
    need (q.source_refs.length = refs.length + 1 ∧
      (∀ r ∈ refs, ∃ s ∈ q.source_refs, python.eq r.2 s.value = true) ∧
      (q.source_refs.filter fun r => r.sha256 = M.callback.adapter_source_sha256).length = 1)
  | _ => .error (.raised .type_error)

/-- The binding file ties the state directory to this pool. -/
def check_binding_file (M : ManagedOwner) (F : Files) (q : Binding) : Checked Unit := do
  let binding ← lift (load.load_json_bytes (← checked_ref F q.binding_ref))
  let pool_root ← item binding "pool_root"
  let config ← item binding "config"
  let config_sha256 ← item config "sha256"
  let owner ← item binding "owner"
  let state_root ← item binding "state_root"
  let schema ← item binding "schema"
  let effect ← item binding "effect_profile"
  let authority_granted ← item binding "authority_granted"
  let automatic_retry ← item binding "automatic_retry"
  let task ← item binding "task"
  let public_key := ((M.owner.trust.lookup M.owner.issuer).map TrustEntry.public_key_hex).getD []
  need (isStr pool_root M.owner.root ∧ isStr config_sha256 (sha M.owner.config_bytes) ∧
    python.eq owner (.dict [("owner_issuer", .str M.owner.issuer), ("public_key_hex", .str public_key)]) ∧
    isStr state_root q.managed_state ∧ isStr schema "engineer.managed-task-capacity-binding/1" ∧
    isStr effect EFFECT ∧ isFalseValue authority_granted ∧ isFalseValue automatic_retry ∧
    python.eq task (inspectedTask q.binding_basis q.task_identity))
  let config_bytes ← checked_ref F (← refOf config)
  need (config_bytes = M.owner.config_bytes)

/-- An inspection is of the task of the request. -/
def check_inspection (F : Files) (q : Binding) (basis : Artifact) : Checked Unit := do
  let inspection ← engineer_json (← checked_ref F basis)
  let subject ← item inspection "task_source_binding"
  let repository ← item inspection "repository"
  let task_id ← item subject "task_id"
  let subject_sha256 ← item subject "task_subject_identity_sha256"
  need (isStr repository q.task_identity.repository ∧ isStr task_id q.task_identity.task_id ∧
    isStr subject_sha256 q.task_identity.subject_sha256)

/-- `type(v) is int and v == 1`. -/
def isOne : Value → Bool
  | .int i => i = 1
  | _ => false

/-- `v is True`. -/
def isTrue : Value → Bool
  | .bool b => b
  | _ => false

/-- The receipt and the completion are the ones that the capture leads to. -/
def check_outcome (M : ManagedOwner) (q : Binding) (c r done : Value) : Checked Unit := do
  let schema : Str := "engineer.managed-local-execution/1"
  let r_schema ← item r "schema"
  let c_schema ← item c "schema"
  let done_schema ← item done "schema"
  need (isStr r_schema schema ∧ isStr c_schema schema ∧ isStr done_schema schema)
  let kind ← item r "kind"
  let capture_id ← item r "capture_id"
  let callback_id ← item r "callback_id"
  let label ← item r "destination_label"
  let destination ← item (← item c "contract") "destination"
  let payload ← lift (dumps (← item r "payload"))
  let expected ← lift (dumps (← item (← item c "snapshot") "payload"))
  need (isStr kind "LOCAL_CALLBACK_RECEIPT" ∧ isStr capture_id q.capture_identity ∧
    isStr callback_id EFFECT ∧ python.eq label destination ∧ payload = expected)
  let kind ← item done "kind"
  let capture_id ← item done "capture_id"
  let callback ← item done "callback"
  let receipt ← item done "receipt_sha256"
  let identity ← item r "identity_sha256"
  let guarded ← item done "observed_guard_result"
  let calls ← item done "callback_calls"
  let arguments ← raw (← item done "observed_guard_arguments")
  let values ← item (← item c "snapshot") "values"
  let parameters ← lift (iterate (← item (← item c "criterion") "parameters"))
  let values ← parameters.mapM fun k => do item values (← stringOf k)
  let expected ← raw (.list values)
  let effect ← item done "local_effect"
  let external ← item done "external_effects"
  need (isStr kind "COMPLETE" ∧ isStr capture_id q.capture_identity ∧
    python.eq callback M.callback.value ∧ python.eq receipt identity ∧ isTrue guarded ∧
    isOne calls ∧ arguments = expected ∧ isStr effect "MANAGED_JSON_RECEIPT_ONLY" ∧
    isStr external "UNKNOWN")
  let _ ← needKeys r ["schema", "kind", "capture_id", "callback_id", "destination_label", "payload",
    "identity_sha256"]
  let _ ← needKeys done ["schema", "kind", "capture_id", "callback", "receipt_sha256",
    "observed_guard_arguments", "observed_guard_result", "callback_calls", "local_effect",
    "external_effects", "identity_sha256"]

/-- The arguments of `prepare_managed`. -/
structure Request where
  request_bytes : ByteArray
  parent_start_bytes : ByteArray
  capture_bytes : ByteArray
  expected_receipt_bytes : ByteArray
  expected_complete_bytes : ByteArray

/-- `inspect_managed_request`. -/
def inspect_managed_request (M : ManagedOwner) (F : Files) (R : Request) : Checked Binding := do
  let q ← read_request R.request_bytes
  binding_shape M F q
  check_files F q
  let start ← read_file F (← path F q.parent_start.path)
  need (start = R.parent_start_bytes ∧ sha R.parent_start_bytes = q.parent_start.sha256)
  let p ← parent_binding R.parent_start_bytes q.basis
  need (p.task_key = q.task_key ∧ python.eq p.task_identity q.task_identity.value ∧
    p.parent_binding.operation_id = q.operation_id ∧ p.parent_binding.attempt_id = q.attempt_id ∧
    q.child_id ∈ p.expected_child_ids)
  need (sha R.capture_bytes = q.capture.sha256)
  let c ← sealed R.capture_bytes
  let r ← sealed R.expected_receipt_bytes
  let done ← sealed R.expected_complete_bytes
  needOr ((c.get? "installed_runtime").isNone ∧ (done.get? "installed_runtime").isNone)
    "This epoch selects source-mode callback only."
  check_capture M q c
  check_binding_file M F q
  check_inspection F q q.binding_basis
  check_inspection F q q.basis
  check_outcome M q c r done
  need (sha R.expected_receipt_bytes = q.receipt_sha256 ∧
    R.expected_receipt_bytes.size = q.receipt_bytes)
  need (sha R.expected_complete_bytes = q.complete_sha256 ∧
    R.expected_complete_bytes.size = q.complete_bytes)
  let attempt ← path F q.managed_attempt
  needOr (F.lexists (attempt ++ [lit "START.json"]) = false ∧
    F.lexists (attempt ++ [lit "CALLBACK.json"]) = false ∧
    F.lexists (attempt ++ [lit "COMPLETE.json"]) = false)
    "Managed attempt already started or has evidence; no resend."
  pure q

/-! ## Holds -/

/-- The binding names what the entry names. -/
def sharesClaim (e : Entry) (q : Binding) : Prop :=
  e.binding.capture_identity = q.capture_identity ∨ e.binding.managed_attempt = q.managed_attempt ∨
    e.binding.destination = q.destination

instance (e : Entry) (q : Binding) : Decidable (sharesClaim e q) :=
  inferInstanceAs (Decidable (_ ∨ _ ∨ _))

/-- What `prepare_managed` does to a body. -/
def hold_entry (M : ManagedOwner) (q : Binding) (key recorded_at : Str) (b : Body) :
    Checked (Body × Unit) := do
  needOr (∀ e ∈ b.managed_entries, ¬ sharesClaim e q)
    "Capture or attempt already held/consumed; no resend."
  let (_, old) ← legacy_view M
  let u := usage old b
  let limits ← capacities M b
  needOr (u.dispatch_slots + 1 ≤ limits.dispatch_slots ∧
    u.managed_receipt_bytes.getD 0 + HOLD ≤ limits.managed_receipt_bytes.getD 0)
    "Capacity exhausted."
  pure ({ b with managed_entries := b.managed_entries ++
    [{ key, binding := q, recorded_at, consumption := none, settlement := none,
       retained_bytes := HOLD }] }, ())

/-- `prepare_managed`: the record that it publishes, and the key of the hold. -/
def prepare_managed (M : ManagedOwner) (F : Files) (old : Envelope Body) (R : Request)
    (recorded_at : Str) : Checked (Envelope Body × Str) := do
  need (text recorded_at)
  let q ← inspect_managed_request M F R
  let key ← effect_key q
  let (next, _) ← change M F old (hold_entry M q key recorded_at)
  pure (next, key)

/-- `_entry`: the one entry of a key, and where it stands. -/
def entry_of (b : Body) (key : Str) : Checked (Entry × Nat) :=
  match b.managed_entries.zipIdx.filter fun p => p.1.key = key with
  | [found] => pure found
  | _ => .error (.refused REFUSED)

/-- The body with this entry at a position. -/
def Body.setEntry (b : Body) (i : Nat) (e : Entry) : Body :=
  { b with managed_entries := b.managed_entries.set i e }

/-- The arguments of `before_callback`. -/
structure Callbacks where
  capture_bytes : ByteArray
  callback_identity : Callback
  destination : Str
  receipt_bytes : ByteArray

/-- What `before_callback` does to a body. -/
def consume_entry (F : Files) (key : Str) (A : Callbacks) (b : Body) : Checked (Body × Unit) := do
  let (e, i) ← entry_of b key
  let q := e.binding
  needOr (e.consumption.isNone ∧ e.settlement.isNone) "Already consumed/UNKNOWN; no retry."
  check_files F q
  let attempt ← path F q.managed_attempt
  let start ← sealed (← read_file F (attempt ++ [lit "START.json"]))
  let identity ← item start "identity_sha256"
  need (python.eq start (.dict [("schema", .str "engineer.managed-local-execution/1"),
    ("kind", .str "START"), ("capture_id", .str q.capture_identity),
    ("identity_sha256", identity)]) = true)
  need (sha A.capture_bytes = q.capture.sha256 ∧ A.callback_identity = q.callback_identity ∧
    A.destination = q.destination ∧ sha A.receipt_bytes = q.receipt_sha256 ∧
    A.receipt_bytes.size = q.receipt_bytes)
  let destination ← path F A.destination
  needOr (F.lexists destination = false) "Receipt destination exists; no overwrite."
  pure (b.setEntry i { e with consumption := some q.receipt_sha256 }, ())

/-- What `ManagedGuard.settle` does to a body. -/
def settle_entry (F : Files) (key : Str) (callback_bytes complete_bytes : ByteArray)
    (recorded_at : Str) (b : Body) : Checked (Body × Unit) := do
  let (e, i) ← entry_of b key
  let q := e.binding
  needOr (e.consumption.isSome ∧ e.settlement.isNone) "No one-use consumption or already settled."
  need (sha callback_bytes = q.receipt_sha256 ∧ callback_bytes.size = q.receipt_bytes ∧
    sha complete_bytes = q.complete_sha256 ∧ complete_bytes.size = q.complete_bytes)
  let destination ← path F q.destination
  let attempt ← path F q.managed_attempt
  let callback ← read_file F destination
  let complete ← read_file F (attempt ++ [lit "COMPLETE.json"])
  need (callback = callback_bytes ∧ complete = complete_bytes)
  let settlement : Settlement :=
    { state := KNOWN, recorded_at, reason := none, callback_sha256 := some (sha callback_bytes),
      complete_sha256 := some (sha complete_bytes) }
  pure (b.setEntry i { e with retained_bytes := callback_bytes.size, settlement := some settlement },
    ())

/-- What `ManagedGuard.mark_unknown` does to a body. -/
def unknown_entry (key reason recorded_at : Str) (b : Body) : Checked (Body × Unit) := do
  let (e, i) ← entry_of b key
  need e.settlement.isNone
  let settlement : Settlement :=
    { state := UNKNOWN_HOLD, recorded_at, reason := some reason, callback_sha256 := none,
      complete_sha256 := none }
  pure (b.setEntry i { e with settlement := some settlement }, ())

/-! ## Guards -/

/-- `ManagedGuard`: a handle of an owner object. A recovery handle has no token. -/
structure Guard where
  owner : Nat
  key : Str
  token : Option Nat
deriving DecidableEq

/-- The owner objects in memory: for each its `_live`, which maps keys to
tokens. Tokens are numbered in the order in which they were made. -/
structure Memory where
  live : Nat → List (Str × Nat)
  guards : List Guard
  tokens : Nat

/-- The state file is of the legacy pool or of the epoch. -/
inductive State where
  | legacy (record : Envelope common_capacity.Body)
  | managed (record : Envelope Body)

/-- The files of the pool and the owner objects. -/
structure World where
  disk : journal.Disk State
  memory : Memory

/-- A call, with its arguments, on an owner object or on a guard. -/
inductive Call where
  | apply_grant (owner : Nat) (grant_request_bytes : ByteArray) (recorded_at : Str)
  | prepare_managed (owner : Nat) (R : Request) (recorded_at : Str)
  | guard (owner : Nat) (key : Str)
  | before_callback (guard : Guard) (A : Callbacks)
  | settle (guard : Guard) (callback_bytes complete_bytes : ByteArray) (recorded_at : Str)
  | mark_unknown (guard : Guard) (reason recorded_at : Str)
  /-- The process of an owner object ends, and its memory with it. -/
  | restart (owner : Nat)

/-- The owner object holds this token for the key. -/
def Memory.holds (m : Memory) (owner : Nat) (key : Str) (token : Nat) : Prop :=
  (m.live owner).lookup key = some token

instance (m : Memory) (owner : Nat) (key : Str) (token : Nat) : Decidable (m.holds owner key token) :=
  inferInstanceAs (Decidable (_ = _))

/-- `self._live[key] = token`, with a new token, and the guard that has it. -/
def Memory.issue (m : Memory) (owner : Nat) (key : Str) : Memory where
  live := Function.update m.live owner (setItem (m.live owner) key m.tokens)
  guards := m.guards ++ [{ owner, key, token := some m.tokens }]
  tokens := m.tokens + 1

/-- `self.owner._live.pop(self.key)`. -/
def Memory.burn (m : Memory) (owner : Nat) (key : Str) : Memory :=
  { m with live := Function.update m.live owner ((m.live owner).filter fun l => l.1 ≠ key) }

/-- The memory of an owner object is lost. -/
def Memory.forget (m : Memory) (owner : Nat) : Memory :=
  { m with live := Function.update m.live owner [], guards := m.guards.filter fun g => g.owner ≠ owner }

/-- The record in the state file, where no pending file stands in the way. -/
def World.record (w : World) : Checked (Envelope Body) :=
  match w.disk with
  | { state := .whole (.managed record), pending := none } => pure record
  | _ => .error (.refused REFUSED)

/-- The files after a change of the record, which may stop while it is published. -/
def World.after (w : World) (next : Checked (Envelope Body)) (fault : Option journal.Fault) : World :=
  match next with
  | .ok record => { w with disk := journal.publish (.managed record) fault w.disk }
  | .error _ => w

/-- What a change of the record in the state file publishes. -/
def World.change (M : ManagedOwner) (F : Files) (w : World) (fn : Body → Checked (Body × Unit)) :
    Checked (Envelope Body) := do
  let old ← w.record
  let (next, _) ← managed_capacity.change M F old fn
  pure next

/-- One call, in the files that it finds, which may stop while it publishes.
Each owner object has its own arguments. -/
def step (M : Nat → ManagedOwner) (F : Files) (fault : Option journal.Fault) (w : World) :
    Call → World
  | .apply_grant owner grant_request_bytes recorded_at =>
    match w.disk with
    | { state := .whole (.legacy current), pending := none } =>
      w.after (apply_grant (M owner) F current grant_request_bytes recorded_at) fault
    | _ => w
  | .prepare_managed owner R recorded_at =>
    match (do prepare_managed (M owner) F (← w.record) R recorded_at) with
    | .ok (next, key) =>
      let w := w.after (.ok next) fault
      if fault = none then { w with memory := w.memory.issue owner key } else w
    | .error _ => w
  | .guard owner key =>
    match (do
      let old ← w.record
      load (M owner) F old
      entry_of old.body key) with
    | .ok _ => { w with memory :=
        { w.memory with guards := w.memory.guards ++ [{ owner, key, token := none }] } }
    | .error _ => w
  | .before_callback g A =>
    match g.token with
    | some token =>
      if g ∈ w.memory.guards ∧ w.memory.holds g.owner g.key token then
        -- A failed attempted consumption cannot become a fresh attempt with altered inputs.
        let w := { w with memory := w.memory.burn g.owner g.key }
        w.after (w.change (M g.owner) F (consume_entry F g.key A)) fault
      else w
    | none => w
  | .settle g callback_bytes complete_bytes recorded_at =>
    if g ∈ w.memory.guards ∧ text recorded_at then
      w.after
        (w.change (M g.owner) F (settle_entry F g.key callback_bytes complete_bytes recorded_at)) fault
    else w
  | .mark_unknown g reason recorded_at =>
    if g ∈ w.memory.guards ∧ text reason ∧ text recorded_at then
      w.after (w.change (M g.owner) F (unknown_entry g.key reason recorded_at)) fault
    else w
  | .restart owner => { w with memory := w.memory.forget owner }

/-- The owner object that a call is on. -/
def Call.owner : Call → Nat
  | .apply_grant owner _ _ | .prepare_managed owner _ _ | .guard owner _ | .restart owner => owner
  | .before_callback g _ | .settle g _ _ _ | .mark_unknown g _ _ => g.owner

/-- A call, the files that it finds, and where its publication stops. -/
structure Turn where
  files : Files
  fault : Option journal.Fault
  call : Call

/-- The world after a sequence of calls. -/
def run (M : Nat → ManagedOwner) (w : World) (turns : List Turn) : World :=
  turns.foldl (fun w t => step M t.files t.fault w t.call) w

/-- A legacy pool, before its epoch, and no owner object yet. -/
def start (legacy : Envelope common_capacity.Body) : World where
  disk := { state := .whole (.legacy legacy), pending := none }
  memory := { live := fun _ => [], guards := [], tokens := 0 }

end vfy.managed_capacity
