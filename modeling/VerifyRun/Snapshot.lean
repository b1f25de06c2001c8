-- Snapshot construction and freeze: acquired evidence becomes one immutable,
-- content-addressed snapshot, and a snapshot from elsewhere is accepted only
-- after every one of its claims is checked again.
import VerifyRun.Rulebook
import VerifyRun.RoundTrip

namespace vfy.snapshot

open python keys outcomes schema rulebook

def STATUSES : List Str := ["ok", "missing", "stale", "error"]

def ACQUISITION_REQUIRED : List Str := ["id", "status", "acquired_at"]

def ACQUISITION_PERMITTED : List Str := ACQUISITION_REQUIRED ++ [lit "value"]

/-- A frozen snapshot. -/
structure FrozenSnapshot where
  canonical : Text
  digest : Str
  frozen_at : Str
  snapshot_id : Str
deriving DecidableEq

/-- `canonical_bytes`. -/
def FrozenSnapshot.canonical_bytes (frozen : FrozenSnapshot) : ByteArray :=
  (String.ofList frozen.canonical).toByteArray

/-- A fresh copy of the snapshot value. -/
def FrozenSnapshot.value (frozen : FrozenSnapshot) : Except Exn Value :=
  load.load_json_bytes frozen.canonical_bytes

/-- `_instant_or_raise`. -/
def instant_or_raise (text : Value) (field : String) : Except Exn Int :=
  match instant text with
  | .ok t => .ok t
  | .error .type_error => .error (fail .evidence_order_invalid
      (lit field ++ lit " is not a date-time in the frozen grammar."))
  | .error e => .error e

/-- `_duplicate`. -/
def duplicate (identifier : Str) (position : Nat) : Exn :=
  .verify { code := .snapshot_schema_invalid,
            message := lit "Duplicate evidence id: " ++ identifier,
            location := .document (indexed "$.items" position ++ lit ".id") "$.properties.items"
              "unique" }

/-- `_check_acquisition_shape`. -/
def check_acquisition_shape (acquisition : Value) : Except Exn Unit :=
  match acquisition with
  | .dict members => do
    raiseIf (¬ ∀ key ∈ ACQUISITION_REQUIRED, (members.lookup key).isSome)
      (fail .snapshot_item_invalid "An acquisition needs id, status, and acquired_at.")
    forM members fun m => raiseIf (m.1 ∉ ACQUISITION_PERMITTED)
      (fail .snapshot_item_invalid (lit "An acquisition carries an unexpected field: " ++ m.1))
    match members.lookup (lit "id") with
    | some (.str (_ :: _)) => pure ()
    | _ => .error (fail .snapshot_item_invalid "An acquisition id must be a non-empty string.")
    match members.lookup (lit "status") with
    | some (.str status) => raiseIf (status ∉ STATUSES) (fail .snapshot_item_invalid
        "An acquisition status must be one of the four declared.")
    | _ => .error (fail .snapshot_item_invalid
        "An acquisition status must be one of the four declared.")
  | _ => .error (fail .snapshot_item_invalid "An acquisition must be a mapping.")

/-- The failure of an item whose status and value do not fit. -/
def incoherent (message : String) (item : Value) : Except Exn Unit := do
  let identifier ← string (← getItem item "id")
  .error (fail .snapshot_item_invalid (lit message ++ identifier))

/-- `_check_status_and_value`. -/
def check_status_and_value (item : Value) : Except Exn Unit := do
  let status ← getItem item "status"
  let has_value := (item.get? "value").isSome
  if python.eq status (.str "ok") ∧ ¬ has_value then
    incoherent "An ok item records nothing without a value: " item
  else if python.eq status (.str "missing") ∧ has_value then
    incoherent "A missing item observed nothing to record: " item
  else pure ()

/-- `_seal`. -/
def seal_payload (snapshot_id rulebook_digest frozen_at : Str) (items : List Value) (registry : Registry) :
    Except Exn FrozenSnapshot := do
  let payload : List (Str × Value) :=
    [("snapshot_id", .str snapshot_id), ("rulebook_digest", .str rulebook_digest),
     ("frozen_at", .str frozen_at), ("items", .list items)]
  let digest ← canon.digest (.dict payload)
  let completed := Value.dict (payload ++ [(lit "snapshot_digest", .str digest)])
  schema.validate completed SNAPSHOT_SCHEMA_ID registry
  let canonical ← canon.canonicalize completed
  pure { canonical, digest, frozen_at, snapshot_id }

/-- The item of an acquisition at a position. -/
def item_of (identifier : Str) (position : Nat) (acquisition : Value) : Except Exn Value := do
  let status ← getItem acquisition "status"
  let acquired_at ← getItem acquisition "acquired_at"
  let members : List (Str × Value) :=
    [("id", .str identifier), ("order", .int position), ("status", status),
     ("acquired_at", acquired_at)]
  match acquisition.get? "value" with
  | some value => pure (.dict (members ++ [(lit "value", value)]))
  | none => pure (.dict members)

/-- One turn of the loop over the acquisitions. -/
def add_acquisition (declarations : List (Str × Value)) (frozen_instant : Int)
    (state : List Value × List Str) (entry : Value × Nat) : Except Exn (List Value × List Str) := do
  let (items, seen) := state
  let (acquisition, position) := entry
  check_acquisition_shape acquisition
  let identifier ← string (← getItem acquisition "id")
  raiseIf (declarations.lookup identifier).isNone (fail .snapshot_item_undeclared
    (lit "The rulebook does not declare this evidence id: " ++ identifier))
  raiseIf (identifier ∈ seen) (duplicate identifier position)
  check_status_and_value acquisition
  let acquired ← instant_or_raise (← getItem acquisition "acquired_at") "acquired_at"
  raiseIf (acquired > frozen_instant) (fail .evidence_order_invalid
    (lit "Evidence was acquired after the freeze: " ++ identifier))
  let item ← item_of identifier position acquisition
  pure (items ++ [item], seen ++ [identifier])

/-- Python's truth value of a value. -/
def truthy : Value → Bool
  | .null => false
  | .bool b => b
  | .int i => i ≠ 0
  | .str s => s ≠ []
  | .list items => items ≠ []
  | .dict members => members ≠ []

/-- `declaration.get("required", True)`, as a truth value. -/
def is_required (declaration : Value) : Except Exn Bool :=
  return truthy (← getOr declaration "required" (.bool true))

/-- One turn of the loop that records the required evidence that was not acquired. -/
def add_missing (frozen_at : Str) (seen : List Str) (items : List Value)
    (declaration : Str × Value) : Except Exn (List Value) := do
  if declaration.1 ∈ seen then pure items
  else
    let required ← is_required declaration.2
    if required then
      pure (items ++ [.dict [("id", .str declaration.1), ("order", .int items.length),
        ("status", .str "missing"), ("acquired_at", .str frozen_at)]])
    else pure items

/-- The frozen snapshot for one run's declared acquisitions. -/
def build_snapshot (pinned : LoadedRulebook) (snapshot_id frozen_at : Str)
    (acquisitions : List Value) (registry : Registry) : Except Exn FrozenSnapshot := do
  let frozen_instant ← instant_or_raise (.str frozen_at) "frozen_at"
  let applies ← rulebook_applies pinned (.str frozen_at)
  raiseIf (¬ applies)
    (fail .rulebook_not_adopted "The rulebook was not adopted when this run started.")
  let declarations ← byId (← getItem (← pinned.value) "evidence")
  let (items, seen) ←
    acquisitions.zipIdx.foldlM (add_acquisition declarations frozen_instant) ([], [])
  let items ← declarations.foldlM (add_missing frozen_at seen) items
  seal_payload snapshot_id pinned.digest frozen_at items registry

/-- One turn of the loop over the items of a snapshot. -/
def check_item (declarations : List (Str × Value)) (frozen_instant : Int) (seen : List Str)
    (entry : Value × Nat) : Except Exn (List Str) := do
  let (item, position) := entry
  let identifier ← string (← getItem item "id")
  raiseIf (declarations.lookup identifier).isNone (fail .snapshot_item_undeclared
    (lit "The rulebook does not declare this evidence id: " ++ identifier))
  raiseIf (identifier ∈ seen) (duplicate identifier position)
  let order ← getItem item "order"
  raiseIf (¬ python.eq order (.int position))
    (fail .evidence_order_invalid "Item order must be 0..n-1 in array order.")
  check_status_and_value item
  let acquired ← instant_or_raise (← getItem item "acquired_at") "acquired_at"
  raiseIf (acquired > frozen_instant) (fail .evidence_order_invalid
    (lit "Evidence was acquired after the freeze: " ++ identifier))
  pure (seen ++ [identifier])

/-- One turn of the loop that looks for required evidence without an item. -/
def check_present (seen : List Str) (declaration : Str × Value) : Except Exn Unit := do
  let required ← is_required declaration.2
  raiseIf (required ∧ declaration.1 ∉ seen) (fail .snapshot_item_missing
    (lit "A required evidence declaration has no snapshot item: " ++ declaration.1))

/-- Accept a snapshot the builder did not make, trusting nothing it carries. -/
def verify_snapshot_value (value : Value) (pinned : LoadedRulebook) (registry : Registry) :
    Except Exn FrozenSnapshot :=
  match value with
  | .dict members => do
    schema.validate value SNAPSHOT_SCHEMA_ID registry
    let recomputed ← canon.digest (.dict (members.filter fun m => m.1 ≠ lit "snapshot_digest"))
    let snapshot_digest ← getItem value "snapshot_digest"
    raiseIf (¬ python.eq (.str recomputed) snapshot_digest) (fail .snapshot_digest_mismatch
      "The embedded snapshot digest does not match the snapshot's own payload.")
    let rulebook_digest ← getItem value "rulebook_digest"
    raiseIf (¬ python.eq rulebook_digest (.str pinned.digest)) (fail .snapshot_rulebook_mismatch
      "The snapshot names a rulebook other than the pinned one.")
    let frozen_at ← getItem value "frozen_at"
    let frozen_instant ← instant_or_raise frozen_at "frozen_at"
    let applies ← rulebook_applies pinned frozen_at
    raiseIf (¬ applies)
      (fail .rulebook_not_adopted "The rulebook was not adopted when this run started.")
    let declarations ← byId (← getItem (← pinned.value) "evidence")
    let items ← iterate (← getItem value "items")
    let seen ← items.zipIdx.foldlM (check_item declarations frozen_instant) []
    forM declarations (check_present seen)
    let canonical ← canon.canonicalize value
    let digest ← string snapshot_digest
    let frozen_at ← string frozen_at
    let snapshot_id ← string (← getItem value "snapshot_id")
    pure { canonical, digest, frozen_at, snapshot_id }
  | _ => .error .type_error

end vfy.snapshot
