-- Accounting of service attempts over a frozen shared pool. An attempt is
-- charged when it is admitted, and starts once, with the capability that its
-- own admission left in memory.
import VerifyRun.ManagedCapacity

namespace vfy.service_attempt

open python keys outcomes child_ledger common_capacity managed_capacity engineer

def PROFILE : Str := "vfy.service-attempt/1"
def RESOURCES : List Str :=
  ["wall_seconds", "cpu_seconds", "output_bytes", "file_bytes", "descriptors"]

/-! ## Resources -/

/-- What an attempt may use, or what all of them may. -/
structure Resources where
  wall_seconds : Nat
  cpu_seconds : Nat
  output_bytes : Nat
  file_bytes : Nat
  descriptors : Nat
deriving DecidableEq

/-- The resources, under their names. -/
def Resources.members (r : Resources) : List (Str × Nat) :=
  RESOURCES.zip [r.wall_seconds, r.cpu_seconds, r.output_bytes, r.file_bytes, r.descriptors]

instance : Zero Resources := ⟨⟨0, 0, 0, 0, 0⟩⟩

instance : Add Resources := ⟨fun a b =>
  ⟨a.wall_seconds + b.wall_seconds, a.cpu_seconds + b.cpu_seconds, a.output_bytes + b.output_bytes,
   a.file_bytes + b.file_bytes, a.descriptors + b.descriptors⟩⟩

instance : LE Resources := ⟨fun a b =>
  a.wall_seconds ≤ b.wall_seconds ∧ a.cpu_seconds ≤ b.cpu_seconds ∧ a.output_bytes ≤ b.output_bytes ∧
  a.file_bytes ≤ b.file_bytes ∧ a.descriptors ≤ b.descriptors⟩

instance (a b : Resources) : Decidable (a ≤ b) := inferInstanceAs (Decidable (_ ∧ _ ∧ _ ∧ _ ∧ _))

/-- Every amount passes `integer`. -/
def Resources.integers (r : Resources) : Prop := ∀ m ∈ r.members, integer m.2

instance (r : Resources) : Decidable r.integers := inferInstanceAs (Decidable (∀ m ∈ _, _))

/-- One amount of `resources`. -/
def amountOf (v : Value) (positive : Bool) (name : Str) : Checked Nat := do
  let n ← integerOf (← item v name)
  need (positive = true → 0 < n)
  pure n

/-- `resources`. -/
def resources (v : Value) (positive : Bool) : Checked Resources := do
  let _ ← needKeys v RESOURCES
  pure { wall_seconds := ← amountOf v positive "wall_seconds",
         cpu_seconds := ← amountOf v positive "cpu_seconds",
         output_bytes := ← amountOf v positive "output_bytes",
         file_bytes := ← amountOf v positive "file_bytes",
         descriptors := ← amountOf v positive "descriptors" }

/-- `v == r` of a value of evidence, whose numbers may be floats. -/
def equalsResources (v : Value) (r : Resources) : Bool :=
  match v with
  | .dict members => sameKeys members RESOURCES &&
      r.members.all fun m => equalsNumber ((members.lookup m.1).getD .null) m.2
  | _ => false

/-! ## The pool -/

/-- The shared owner that a pool succeeds, with its last record. -/
inductive Predecessor where
  | common (owner : Owner) (record : Envelope common_capacity.Body)
  | managed (owner : ManagedOwner) (record : Envelope managed_capacity.Body)

def Predecessor.owner : Predecessor → Owner
  | .common owner _ => owner
  | .managed owner _ => owner.owner

/-- The record, as its owner wrote it. -/
def Predecessor.value : Predecessor → Value
  | .common _ record => Encoded.value record
  | .managed _ record => Encoded.value record

/-- `self.prior['body']['revision']`. -/
def Predecessor.revision : Predecessor → Nat
  | .common _ record => record.body.revision
  | .managed _ record => record.body.revision

/-- `self.prior['sha256']`. -/
def Predecessor.sha256 : Predecessor → Str
  | .common _ record => record.sha256
  | .managed _ record => record.sha256

/-- The record is valid for its owner: what is used in it, and of what. -/
def Predecessor.view (F : Files) : Predecessor → Checked (Usage × Usage)
  | .common owner record => do
    common_capacity.validate_record owner record
    pure (common_capacity.usage record.body, owner.config.capacities)
  | .managed owner record => do
    managed_capacity.validate_record owner F record
    let (_, used) ← legacy_view owner
    let caps ← managed_capacity.capacities owner record.body
    pure (managed_capacity.usage used record.body, caps)

/-- What the policy of a pool selects. -/
structure Policy where
  approval_trust : Trust
  adapter_sha256 : Str
  capture_sha256 : Str
  resource_capacities : Resources

/-- `ServicePool`. The bytes that it succeeds are those of its predecessor. -/
structure ServicePool where
  predecessor : Predecessor
  head : ByteArray
  written : raw predecessor.value = .ok head
  base_used : Usage
  caps : Usage
  policy_bytes : ByteArray
  policy : Policy
  profile : Value

namespace ServicePool

variable (P : ServicePool)

def owner : Owner := P.predecessor.owner

/-- `str(self.root)`. -/
def root : Str := P.owner.root

end ServicePool

/-- One issuer of an approval trust, none of the excluded keys. -/
def approvalIssuer (owner : Owner) (m : Str × Value) : Checked (Str × TrustEntry) := do
  need (text m.1)
  let _ ← needKeys m.2 ["public_key_hex", "producer_identity"]
  let public_key_hex ← hex64Of (← item m.2 "public_key_hex")
  let producer_identity ← item m.2 "producer_identity"
  needOr ((∀ e ∈ owner.trust, e.2.public_key_hex ≠ public_key_hex) ∧
    (∀ e ∈ owner.child_trust, e.2.public_key_hex ≠ public_key_hex) ∧
    python.eq producer_identity owner.host.producer) "Select independent approval trust."
  pure (m.1, { public_key_hex, producer_identity })

/-- The checks of `__init__` on a policy. -/
def read_policy (owner : Owner) (head policy_bytes : ByteArray) (profile : Value) :
    Checked Policy := do
  let p ← lift (load.load_json_bytes policy_bytes)
  let _ ← needKeys p ["schema", "pool_root", "config_sha256", "predecessor_sha256",
    "service_identity", "approval_trust", "adapter_sha256", "capture_sha256", "resource_capacities",
    "authority_granted", "automatic_retry"]
  let schema ← item p "schema"
  let pool_root ← item p "pool_root"
  let config_sha256 ← item p "config_sha256"
  let predecessor_sha256 ← item p "predecessor_sha256"
  let service_identity ← item p "service_identity"
  let authority_granted ← item p "authority_granted"
  let automatic_retry ← item p "automatic_retry"
  need (isStr schema "vfy.service-policy/1" ∧ isStr pool_root owner.root ∧
    isStr config_sha256 (sha owner.config_bytes) ∧ isStr predecessor_sha256 (sha head) ∧
    python.eq service_identity profile ∧ isFalseValue authority_granted ∧
    isFalseValue automatic_retry)
  let resource_capacities ← resources (← item p "resource_capacities") false
  let adapter_sha256 ← hex64Of (← item p "adapter_sha256")
  let capture_sha256 ← hex64Of (← item p "capture_sha256")
  match ← item p "approval_trust" with
  | .dict trust => do
    need (trust.isEmpty = false)
    let approval_trust ← trust.mapM (approvalIssuer owner)
    pure { approval_trust, adapter_sha256, capture_sha256, resource_capacities }
  | _ => .error (.refused REFUSED)

instance (v : Value) (b : ByteArray) : Decidable (raw v = .ok b) :=
  decidable_of_iff ((raw v).toOption = some b) (by cases raw v <;> simp [Except.toOption])

/-- `ServicePool.__init__`. -/
def init (F : Files) (predecessor : Predecessor) (predecessor_snapshot_bytes policy_bytes : ByteArray)
    (profile : Value) : Checked ServicePool := do
  let _ ← lift (load.load_json_bytes predecessor_snapshot_bytes)
  if written : raw predecessor.value = .ok predecessor_snapshot_bytes then do
    let (base_used, caps) ← predecessor.view F
    let policy ← read_policy predecessor.owner predecessor_snapshot_bytes policy_bytes profile
    pure { predecessor, head := predecessor_snapshot_bytes, written, base_used, caps, policy_bytes,
           policy, profile }
  else .error (.refused REFUSED)

/-! ## Requests -/

/-- A request for an attempt. -/
structure Request where
  attempt_id : Str
  attempt_root : Str
  preview_sha256 : Str
  resources : Resources

/-- `_request`. -/
def read_request (P : ServicePool) (data : ByteArray) : Checked Request := do
  let q ← lift (load.load_json_bytes data)
  let _ ← needKeys q ["schema", "attempt_id", "attempt_root", "pool_root", "policy_sha256",
    "preview_sha256", "resources", "authority_granted", "automatic_retry"]
  let schema ← item q "schema"
  let attempt_id ← textOf (← item q "attempt_id")
  let pool_root ← item q "pool_root"
  let policy_sha256 ← item q "policy_sha256"
  let preview_sha256 ← hex64Of (← item q "preview_sha256")
  let authority_granted ← item q "authority_granted"
  let automatic_retry ← item q "automatic_retry"
  need (isStr schema PROFILE ∧ isStr pool_root P.root ∧ isStr policy_sha256 (sha P.policy_bytes) ∧
    isFalseValue authority_granted ∧ isFalseValue automatic_retry)
  -- Shape validation is filesystem-independent.
  let attempt_root ← textOf (← item q "attempt_root")
  need (attempt_root.head? = some (.scalar '/'))
  let resources ← resources (← item q "resources") true
  pure { attempt_id, attempt_root, preview_sha256, resources }

/-- `_approval_body`. -/
def approval_body (P : ServicePool) (request_bytes : ByteArray) (preview_sha256 : Str) : Value := .dict
  [("schema", .str "vfy.service-approval/1"), ("request_sha256", .str (sha request_bytes)),
   ("preview_sha256", .str preview_sha256), ("policy_sha256", .str (sha P.policy_bytes)),
   ("authority_granted", .bool false), ("automatic_retry", .bool false)]

/-- A signed record, as it stands in a JSON value. -/
def envelopeOf (v : Value) : Checked (Envelope Value) := do
  let _ ← needKeys v ["issuer_identity", "producer_identity", "body", "signature", "sha256"]
  pure { issuer_identity := ← stringOf (← item v "issuer_identity"),
         producer_identity := ← item v "producer_identity", body := ← item v "body",
         signature := ← stringOf (← item v "signature"), sha256 := ← stringOf (← item v "sha256") }

/-- The approval is of this request and its preview. -/
def check_approval (P : ServicePool) (approval_bytes request_bytes : ByteArray) (q : Request) :
    Checked Unit := do
  let approval ← envelopeOf (← lift (load.load_json_bytes approval_bytes))
  let body ← authenticate P.owner.host approval P.policy.approval_trust
  need (python.eq body (approval_body P request_bytes q.preview_sha256) = true)

/-- `_preview`: the preview that stands in the root of the attempt. -/
def check_preview (P : ServicePool) (F : Files) (q : Request) (preview_bytes : ByteArray) :
    Checked (List Str) := do
  let p ← evidence preview_bytes
  need (sha preview_bytes = q.preview_sha256 ∧
    isStr (get p "schema") "engineer.service-observation/1" ∧ isStr (get p "root") q.attempt_root ∧
    equalsResources (get p "limits") q.resources ∧
    isStr (get p "adapter_sha256") P.policy.adapter_sha256 ∧
    isStr (get p "capture_sha256") P.policy.capture_sha256)
  need (∀ k ∈ ([lit "source", lit "examiner", lit "environment", lit "labels", lit "policy",
    lit "scope"] : List Str), (p.get? k).isSome)
  let root ← path F q.attempt_root
  need (F.is_dir root = true)
  let present ← read_file F (root ++ [lit "PREVIEW.json"])
  needOr (present = preview_bytes) "PREVIEW changed."
  pure root

/-! ## The records of a pool -/

/-- `STATES`. -/
inductive EntryState where
  | ADMITTED
  | CONSUMED
  | UNKNOWN
  | OBSERVED_EXIT_ZERO
  | OBSERVED_EXIT_NONZERO
  | OBSERVED_SIGNAL
deriving DecidableEq

def EntryState.name : EntryState → Str
  | .ADMITTED => "ADMITTED"
  | .CONSUMED => "CONSUMED"
  | .UNKNOWN => "UNKNOWN"
  | .OBSERVED_EXIT_ZERO => "OBSERVED_EXIT_ZERO"
  | .OBSERVED_EXIT_NONZERO => "OBSERVED_EXIT_NONZERO"
  | .OBSERVED_SIGNAL => "OBSERVED_SIGNAL"

/-- Why an attempt is unknown. -/
structure Unknown where
  reason : Str
  recorded_at : Str

def Unknown.value (u : Unknown) : Value :=
  .dict [("reason", .str u.reason), ("recorded_at", .str u.recorded_at)]

/-- What was seen of an attempt. -/
structure Result where
  result_sha256 : Str
  stdout_sha256 : Str
  stderr_sha256 : Str
  stdout_bytes : Nat
  stderr_bytes : Nat
  exit : Option Int
  classification : EntryState
  recorded_at : Str

def Result.value (r : Result) : Value := .dict
  [("result_sha256", .str r.result_sha256), ("stdout_sha256", .str r.stdout_sha256),
   ("stderr_sha256", .str r.stderr_sha256), ("stdout_bytes", .int r.stdout_bytes),
   ("stderr_bytes", .int r.stderr_bytes), ("exit", (r.exit.map .int).getD .null),
   ("classification", .str r.classification.name), ("recorded_at", .str r.recorded_at)]

/-- An attempt that was charged. -/
structure Entry where
  request_raw : ByteArray
  request_sha256 : Str
  approval_raw : ByteArray
  approval_sha256 : Str
  recorded_at : Str
  consumed_at : Option Str
  start_sha256 : Option Str
  state : EntryState
  unknown : Option Unknown
  result : Option Result

def Entry.value (e : Entry) : Value := .dict
  [("request_raw_hex", .str (hexOf e.request_raw)), ("request_sha256", .str e.request_sha256),
   ("approval_raw_hex", .str (hexOf e.approval_raw)), ("approval_sha256", .str e.approval_sha256),
   ("recorded_at", .str e.recorded_at), ("consumed_at", textOrNull e.consumed_at),
   ("start_sha256", textOrNull e.start_sha256), ("state", .str e.state.name),
   ("unknown", (e.unknown.map Unknown.value).getD .null),
   ("result", (e.result.map Result.value).getD .null)]

/-- The body of the state of a pool. -/
structure Body where
  pool_root : Str
  policy_sha256 : Str
  service_identity : Value
  predecessor_raw : ByteArray
  entries : List Entry
  revision : Nat
  previous : Str

instance : Encoded Body := ⟨fun b => .dict
  [("schema", .str PROFILE), ("pool_root", .str b.pool_root), ("policy_sha256", .str b.policy_sha256),
   ("service_identity", b.service_identity), ("predecessor_raw_hex", .str (hexOf b.predecessor_raw)),
   ("entries", .list (b.entries.map Entry.value)), ("revision", .int b.revision),
   ("previous", .str b.previous), ("authority_granted", .bool false),
   ("automatic_retry", .bool false)]⟩

/-! ## Reading a state -/

/-- One turn of the loop of `_totals`. -/
def add_entry (P : ServicePool) (totals : Usage × Resources) (e : Entry) :
    Checked (Usage × Resources) := do
  let q ← read_request P e.request_raw
  let (used, service) := totals
  pure ({ used with dispatch_slots := used.dispatch_slots + 1,
                    retained_output_bytes := used.retained_output_bytes + q.resources.output_bytes },
    service + q.resources)

/-- `_totals`. -/
def totals (P : ServicePool) (b : Body) : Checked (Usage × Resources) := do
  let (used, service) ← b.entries.foldlM (add_entry P) (P.base_used, 0)
  needOr (fitsWithin used P.caps) "Existing shared capacity exhausted; no dispatch."
  needOr (service.integers ∧ service ≤ P.policy.resource_capacities)
    "Selected service resource capacity exhausted."
  pure (used, service)

/-- What an exit code is. -/
def classify (code : Int) : EntryState :=
  if code = 0 then .OBSERVED_EXIT_ZERO
  else if 0 < code then .OBSERVED_EXIT_NONZERO
  else .OBSERVED_SIGNAL

/-- `type(code) is int and abs(code) <= MAX_SAFE_INTEGER`, where there is a code. -/
def smallExit (exit : Option Int) : Prop := ∀ code ∈ exit, integer code.natAbs

instance (exit : Option Int) : Decidable (smallExit exit) := inferInstanceAs (Decidable (∀ _ ∈ _, _))

/-- An attempt that started did so at a time. -/
def check_consumption (e : Entry) : Checked Unit :=
  match e.start_sha256 with
  | some start => need (hex64 start ∧ ∃ s ∈ e.consumed_at, text s)
  | none => need (e.consumed_at = none)

/-- An attempt is unknown for a reason. -/
def check_unknown (e : Entry) : Checked Unit :=
  match e.unknown with
  | some u => need (text u.reason ∧ text u.recorded_at)
  | none => pure ()

/-- The result of an entry. -/
def check_result (q : Request) (r : Result) : Checked Unit := do
  need (hex64 r.result_sha256 ∧ hex64 r.stdout_sha256 ∧ hex64 r.stderr_sha256 ∧
    integer r.stdout_bytes ∧ integer r.stderr_bytes ∧
    r.stdout_bytes + r.stderr_bytes ≤ q.resources.output_bytes ∧ smallExit r.exit ∧
    r.classification ≠ .ADMITTED ∧ r.classification ≠ .CONSUMED ∧ text r.recorded_at)
  need (r.classification ≠ .UNKNOWN → ∃ code ∈ r.exit, r.classification = classify code)

/-- An attempt that has a result was started. -/
def check_observation (q : Request) (e : Entry) : Checked Unit :=
  match e.result with
  | some r => do
    need (e.start_sha256.isSome = true)
    check_result q r
  | none => pure ()

/-- The state that the rest of an entry shows. -/
def Entry.expected (e : Entry) : EntryState :=
  if e.unknown.isSome then .UNKNOWN
  else match e.result with
    | some r => r.classification
    | none => if e.start_sha256.isSome then .CONSUMED else .ADMITTED

/-- The events of an entry. -/
def Entry.events (e : Entry) : Nat :=
  1 + (if e.start_sha256.isSome then 1 else 0) + (if e.unknown.isSome then 1 else 0) +
    if e.result.isSome then 1 else 0

/-- What the reader has met so far. -/
structure Seen where
  ids : List Str
  roots : List Str
  previews : List Str
  events : Nat

/-- One turn of the loop of `_validate`. -/
def check_entry (P : ServicePool) (seen : Seen) (e : Entry) : Checked Seen := do
  let q ← read_request P e.request_raw
  need (e.request_sha256 = sha e.request_raw ∧ text e.recorded_at)
  needOr (q.attempt_id ∉ seen.ids ∧ q.attempt_root ∉ seen.roots ∧ q.preview_sha256 ∉ seen.previews)
    "Attempt, root or PREVIEW already charged; no replay."
  need (e.approval_sha256 = sha e.approval_raw)
  check_approval P e.approval_raw e.request_raw q
  check_consumption e
  check_unknown e
  check_observation q e
  need (e.state = e.expected)
  pure { ids := seen.ids ++ [q.attempt_id], roots := seen.roots ++ [q.attempt_root],
         previews := seen.previews ++ [q.preview_sha256], events := seen.events + e.events }

/-- `_validate`. -/
def validate (P : ServicePool) (record : Envelope Body) : Checked Unit := do
  let b ← authenticate P.owner.host record P.owner.trust
  need (record.issuer_identity = P.owner.issuer)
  need (b.pool_root = P.root ∧ b.policy_sha256 = sha P.policy_bytes ∧
    python.eq b.service_identity P.profile ∧ b.predecessor_raw = P.head ∧ integer b.revision ∧
    hex64 b.previous)
  let seen ← b.entries.foldlM (check_entry P) ⟨[], [], [], 1⟩
  need (b.revision = P.predecessor.revision + seen.events)
  let _ ← totals P b

/-! ## Writing -/

/-- `_publish`, up to the bytes that it writes. -/
def publish (P : ServicePool) (b : Body) : Checked (Envelope Body) := do
  let record ← envelope P.owner.host b P.owner.key P.owner.issuer
  validate P record
  let data ← raw (value record)
  need (data.size ≤ MAX_BYTES)
  pure record

/-- `attach`, over the bytes in the state file: the record that it publishes. -/
def attach (P : ServicePool) (state : ByteArray) : Checked (Envelope Body) := do
  needOr (state = P.head) "Selected shared head changed; no reset, reattach or implicit grant."
  publish P
    { pool_root := P.root, policy_sha256 := sha P.policy_bytes, service_identity := P.profile,
      predecessor_raw := P.head, entries := [], revision := P.predecessor.revision + 1,
      previous := P.predecessor.sha256 }

/-- The record that `_change` publishes over a record. -/
def change (P : ServicePool) (old : Envelope Body) (fn : Body → Checked Body) :
    Checked (Envelope Body) := do
  read_record old
  validate P old
  let b ← fn old.body
  publish P { b with revision := b.revision + 1, previous := old.sha256 }

/-- What `admit_request` does to a body. -/
def admit_entry (P : ServicePool) (F : Files) (q : Request)
    (request_bytes preview_bytes approval_bytes : ByteArray) (recorded_at : Str) (b : Body) :
    Checked Body := do
  let root ← check_preview P F q preview_bytes
  needOr (F.lexists (root ++ [lit "START.json"]) = false) "START already exists; never re-admit."
  pure { b with entries := b.entries ++
    [{ request_raw := request_bytes, request_sha256 := sha request_bytes,
       approval_raw := approval_bytes, approval_sha256 := sha approval_bytes, recorded_at,
       consumed_at := none, start_sha256 := none, state := .ADMITTED, unknown := none,
       result := none }] }

/-- `admit_request`, up to the change that it makes, which is over what is in the state file. -/
def admit_request (P : ServicePool) (F : Files) (request_bytes preview_bytes approval_bytes : ByteArray)
    (recorded_at : Str) : Checked (Body → Checked Body) := do
  need (text recorded_at)
  let q ← read_request P request_bytes
  check_approval P approval_bytes request_bytes q
  pure (admit_entry P F q request_bytes preview_bytes approval_bytes recorded_at)

/-- `_key`: the last entry of a ticket, which is its admission. -/
def keyOf (P : ServicePool) (ticket : Envelope Body) : Checked Str := do
  validate P ticket
  match ticket.body.entries.getLast? with
  | some e => do
    needOr (e.state = .ADMITTED) "Expected admission ticket."
    pure e.request_sha256
  | none => .error (.refused "Expected admission ticket.")

/-- `_entry`: the one entry of a key, and where it stands. -/
def entry_of (b : Body) (key : Str) : Checked (Entry × Nat) :=
  match b.entries.zipIdx.filter fun p => p.1.request_sha256 = key with
  | [found] => pure found
  | _ => .error (.refused REFUSED)

/-- The body with this entry at a position. -/
def Body.setEntry (b : Body) (i : Nat) (e : Entry) : Body := { b with entries := b.entries.set i e }

/-- What the caller of `consume` gives. -/
structure Start where
  request_bytes : ByteArray
  preview_bytes : ByteArray
  start_bytes : ByteArray
  recorded_at : Str

/-- What `consume` does to a body. -/
def consume_entry (P : ServicePool) (F : Files) (key : Str) (S : Start) (b : Body) : Checked Body := do
  let (e, i) ← entry_of b key
  need (e.state = .ADMITTED ∧ text S.recorded_at ∧ S.request_bytes = e.request_raw)
  let q ← read_request P S.request_bytes
  let root ← check_preview P F q S.preview_bytes
  let start ← evidence S.start_bytes
  need (python.eq start (.dict [("preview", .str q.preview_sha256)]) = true)
  let present ← read_file F (root ++ [lit "START.json"])
  needOr (present = S.start_bytes) "Exact durable caller START required."
  pure (b.setEntry i { e with start_sha256 := some (sha S.start_bytes),
                              consumed_at := some S.recorded_at, state := .CONSUMED })

/-- What `mark_unknown` does to a body. -/
def unknown_entry (key reason recorded_at : Str) (b : Body) : Checked Body := do
  let (e, i) ← entry_of b key
  need (e.result.isNone ∧ e.unknown.isNone)
  pure (b.setEntry i { e with unknown := some { reason, recorded_at }, state := .UNKNOWN })

/-- What the caller of `settle` gives. -/
structure Observed where
  result_bytes : ByteArray
  stdout_bytes : ByteArray
  stderr_bytes : ByteArray
  recorded_at : Str

/-- The exit code of evidence. -/
def exitOf : Value → Checked (Option Int)
  | .null => pure none
  | .int code => do
    need (smallExit (some code))
    pure (some code)
  | _ => .error (.refused REFUSED)

/-- `classification`. -/
def classification (r : Value) (exit : Option Int) : EntryState :=
  if isStr (get r "state") "PROCESS_OBSERVED" && python.eq (get r "limit_failure") .null then
    match exit with
    | some code => classify code
    | none => .UNKNOWN
  else .UNKNOWN

/-- `e['result']`, of evidence and its exit code. -/
def Observed.result (R : Observed) (r : Value) (exit : Option Int) : Result where
  result_sha256 := sha R.result_bytes
  stdout_sha256 := sha R.stdout_bytes
  stderr_sha256 := sha R.stderr_bytes
  stdout_bytes := R.stdout_bytes.size
  stderr_bytes := R.stderr_bytes.size
  exit := exit
  classification := classification r exit
  recorded_at := R.recorded_at

/-- One of the two outputs that a result names. -/
def check_output (F : Files) (root : List Str) (r : Value) (name : Str) (data : ByteArray) :
    Checked Unit := do
  need (data.size ≤ MAX_BYTES ∧ isStr (get r (name ++ lit "_sha256")) (sha data))
  let present ← read_file F (root ++ [name ++ lit ".bin"])
  need (present = data)

/-- What `settle` does to a body. -/
def settle_entry (P : ServicePool) (F : Files) (key : Str) (R : Observed) (b : Body) : Checked Body := do
  let (e, i) ← entry_of b key
  need (e.result.isNone)
  match e.start_sha256 with
  | none => .error (.refused REFUSED)
  | some start => do
    let q ← read_request P e.request_raw
    let root ← path F q.attempt_root
    let start_bytes ← read_file F (root ++ [lit "START.json"])
    let preview_bytes ← read_file F (root ++ [lit "PREVIEW.json"])
    need (sha start_bytes = start ∧ sha preview_bytes = q.preview_sha256)
    let r ← evidence R.result_bytes
    let result_bytes ← read_file F (root ++ [lit "RESULT.json"])
    need (isStr (get r "preview") q.preview_sha256 ∧ result_bytes = R.result_bytes)
    check_output F root r "stdout" R.stdout_bytes
    check_output F root r "stderr" R.stderr_bytes
    need (R.stdout_bytes.size + R.stderr_bytes.size ≤ q.resources.output_bytes)
    let exit ← exitOf (get r "exit")
    let result := R.result r exit
    pure (b.setEntry i { e with
      result := some result, state := if e.unknown.isSome then .UNKNOWN else result.classification })

/-! ## Capabilities -/

/-- The state file is the predecessor's, or of the pool. -/
inductive State where
  | prior (bytes : ByteArray)
  | service (record : Envelope Body)

/-- The files of the pool, and the `_live` of each pool object in memory. -/
structure World where
  disk : journal.Disk State
  live : Nat → List Str

/-- A call, with its arguments, on a pool object. -/
inductive Call where
  | attach (pool : Nat)
  | admit_request (pool : Nat) (request_bytes preview_bytes approval_bytes : ByteArray) (recorded_at : Str)
  /-- `handler` is where the publication of the exception handler stops. It is
  missing where the process ends before the handler runs. -/
  | consume (pool : Nat) (ticket : Envelope Body) (S : Start) (handler : Option (Option journal.Fault))
  | mark_unknown (pool : Nat) (ticket : Envelope Body) (reason recorded_at : Str)
  | settle (pool : Nat) (ticket : Envelope Body) (R : Observed)
  /-- The process of a pool object ends, and its memory with it. -/
  | restart (pool : Nat)

/-- The pool object that a call is on. -/
def Call.pool : Call → Nat
  | .attach pool | .admit_request pool _ _ _ _ | .consume pool _ _ _ | .mark_unknown pool _ _ _
  | .settle pool _ _ | .restart pool => pool

/-- What is in the state file, where no pending file stands in the way. -/
def World.state (w : World) : Checked State :=
  match w.disk with
  | { state := .whole state, pending := none } => pure state
  | _ => .error (.refused "Interrupted pool publication; UNKNOWN, no new dispatch.")

/-- The files after a publication, which may stop, and whether it returned. -/
def World.publish (w : World) (next : Checked (Envelope Body)) (fault : Option journal.Fault) :
    World × Bool :=
  match next with
  | .ok record => ({ w with disk := journal.publish (.service record) fault w.disk }, fault = none)
  | .error _ => (w, false)

/-- The record that a change makes of the state file. -/
def World.next (P : ServicePool) (w : World) (fn : Checked (Body → Checked Body)) :
    Checked (Envelope Body) := do
  let fn ← fn
  match ← w.state with
  | .service old => service_attempt.change P old fn
  | .prior _ => .error (.refused REFUSED)

/-- `_change`, over the state file. -/
def World.change (P : ServicePool) (w : World) (fn : Checked (Body → Checked Body))
    (fault : Option journal.Fault) : World × Bool :=
  w.publish (w.next P fn) fault

/-- The record that `attach` makes of the state file. -/
def World.attach (P : ServicePool) (w : World) : Checked (Envelope Body) := do
  match ← w.state with
  | .prior bytes => service_attempt.attach P bytes
  -- A record of a pool names another schema than any head does.
  | .service _ => .error (.refused REFUSED)

/-- `mark_unknown`. -/
def World.mark_unknown (P : ServicePool) (w : World) (ticket : Envelope Body)
    (reason recorded_at : Str) (fault : Option journal.Fault) : World × Bool :=
  w.change P (do
    let key ← keyOf P ticket
    need (text reason ∧ text recorded_at)
    pure (unknown_entry key reason recorded_at)) fault

/-- `self._live.add(key)`. -/
def World.add (w : World) (pool : Nat) (key : Str) : World :=
  { w with live := Function.update w.live pool (key :: w.live pool) }

/-- `self._live.remove(key)`. -/
def World.remove (w : World) (pool : Nat) (key : Str) : World :=
  { w with live := Function.update w.live pool ((w.live pool).filter (· ≠ key)) }

/-- One call, in the files that it finds, which may stop while it publishes.
Each pool object has its own arguments. -/
def step (P : Nat → ServicePool) (F : Files) (fault : Option journal.Fault) (w : World) : Call → World
  | .attach pool => (w.publish (w.attach (P pool)) fault).1
  | .admit_request pool request_bytes preview_bytes approval_bytes recorded_at =>
    match w.change (P pool) (admit_request (P pool) F request_bytes preview_bytes approval_bytes recorded_at)
        fault with
    | (w, true) => w.add pool (sha request_bytes)
    | (w, false) => w
  | .consume pool ticket S handler =>
    match keyOf (P pool) ticket with
    | .error _ => w
    | .ok key =>
      if key ∈ w.live pool then
        -- Even failed correspondence burns this live capability.
        match (w.remove pool key).change (P pool) (pure (consume_entry (P pool) F key S)) fault with
        | (w, true) => w
        | (w, false) =>
          match handler with
          | some fault =>
            (w.mark_unknown (P pool) ticket "consume failed; no launch" "CONSUME_FAILURE" fault).1
          | none => w
      else w
  | .mark_unknown pool ticket reason recorded_at =>
    (w.mark_unknown (P pool) ticket reason recorded_at fault).1
  | .settle pool ticket R =>
    (w.change (P pool) (do
      let key ← keyOf (P pool) ticket
      need (text R.recorded_at)
      pure (settle_entry (P pool) F key R)) fault).1
  | .restart pool => { w with live := Function.update w.live pool [] }

/-- A call, the files that it finds, and where its publication stops. -/
structure Turn where
  files : Files
  fault : Option journal.Fault
  call : Call

/-- The world after a sequence of calls. -/
def run (P : Nat → ServicePool) (w : World) (turns : List Turn) : World :=
  turns.foldl (fun w t => step P t.files t.fault w t.call) w

/-- A root with the record of its owner, and no capability. -/
def start (bytes : ByteArray) : World where
  disk := { state := .whole (.prior bytes), pending := none }
  live _ := []

end vfy.service_attempt
