-- One call of the gated execution, step by step: verify, claim, consume,
-- launch, acknowledge, receipt, store. Every refusal above the consumption
-- leaves nothing spent; below it, the attempt has happened.
import VerifyRun.Surroundings

namespace vfy.runner

open python keys outcomes session authorization custody

def MAX_STDOUT_BYTES : Nat := 1048576
def MAX_STDERR_BYTES : Nat := 65536

def NOTE_TIMED_OUT : Str := "timed out"
def NOTE_SIGNALLED : Str := "terminated by signal"
def NOTE_COULD_NOT_START : Str := "could not start"

/-- What the interpreter and the cryptography package supply. `str` is the text
of an exception, and `public_key` the public half of a usable private key. -/
structure Platform where
  host : Host
  yaml : load.Yaml
  repr : Value → Str
  str : Exn → Str
  public_key : List UInt8 → Option (List UInt8)

/-- Where the instants of the completion come from. -/
inductive Completion where
  | clock
  | instants (acknowledged_at receipt_created_at : Str)

/-- The arguments of `execute_authorized_command` for what it records. -/
structure Recording where
  receipt_id : Str
  receipt_key_id : Str
  receipt_key_version : Int
  receipt_private_key : List UInt8
  completion : Completion

/-! ## The process -/

/-- What a process that could not be started comes to. -/
def notStarted : Outcome where
  started := false
  exit_status := none
  timed_out := false
  signal_number := none
  stdout := ByteArray.empty
  stderr := ByteArray.empty
  truncated := false

/-- What a process that was seen to its end comes to. -/
def outcomeOf (child : Child) : Outcome where
  started := true
  exit_status :=
    if child.timed_out then none
    else child.returncode.filter fun code => 0 ≤ code
  timed_out := child.timed_out
  signal_number :=
    if child.timed_out then none
    else (child.returncode.filter fun code => code < 0).map fun code => -code
  stdout := child.stdout.extract 0 MAX_STDOUT_BYTES
  stderr := child.stderr.extract 0 MAX_STDERR_BYTES
  truncated := child.stdout.size > MAX_STDOUT_BYTES ∨ child.stderr.size > MAX_STDERR_BYTES

/-- `Handoff.terminal`, for a call that has custody. -/
def close_custody (held : Option Handoff) (code : Option Int) (not_started : Bool)
    (pid : Option Int) : Stage Unit :=
  match held with
  | none => pure ()
  | some handoff =>
    if code.isNone ∧ not_started = false then pure ()
    else do
      let body ← compute (handoff.terminal_body code not_started pid)
      Prog.question (Question.terminal handoff body)

/-- `_launch`. -/
def launch (c : Call) (m : Mandate) : Stage Outcome := do
  let environment ← compute (launch_environment c m)
  let launched ← Prog.question (Question.launch m.argv environment c.custody)
  match launched with
  | .refused => do
    close_custody c.custody none true none
    pure notStarted
  | .failed e => compute (.error e)
  | .observed child => do
    close_custody c.custody child.returncode false (some child.pid)
    pure (outcomeOf child)

/-! ## The record -/

/-- The failure to record a finished attempt. -/
def unrecorded {α : Type} (message : Str) (stage : String) (receipt : Option receipt.FrozenReceipt)
    (preserved_at : Option Str) (execution : Outcome) : Stage α :=
  .throw (.recording_failed message stage receipt preserved_at (some execution))

/-- `_completion_instant`. -/
def completion_instant (execution : Outcome) : Stage Str := do
  match ← Prog.question Question.now with
  | .error _ =>
    unrecorded "The attempt finished and the completion instant could not be read."
      "acknowledge" none none execution
  | .ok instant =>
    if schema.is_date_time instant then pure instant
    else
      unrecorded "The attempt finished and the completion instant was not a date-time."
        "acknowledge" none none execution

/-- The instants of the acknowledgment and of the receipt. -/
def completion_instants (completion : Completion) (execution : Outcome) : Stage (Str × Str) :=
  match completion with
  | .instants acknowledged_at receipt_created_at => pure (acknowledged_at, receipt_created_at)
  | .clock => do
    let instant ← completion_instant execution
    pure (instant, instant)

/-- `_acknowledge`. -/
def acknowledge (outcome : Outcome) (acknowledged_at : Str) : Value :=
  if outcome.started = false then
    .dict [("acknowledged", .bool false), ("acknowledged_at", .str acknowledged_at),
      ("note", .str NOTE_COULD_NOT_START)]
  else
    let rest : Str × Value :=
      if outcome.timed_out then (lit "note", .str NOTE_TIMED_OUT)
      else if outcome.signal_number.isSome then (lit "note", .str NOTE_SIGNALLED)
      else (lit "exit_status", orNull outcome.exit_status)
    .dict [("acknowledged", .bool true), ("acknowledged_at", .str acknowledged_at), rest]

/-- `VerifyError`, `TypeError` and `ValueError`. -/
def unissuable : Exn → Bool
  | .verify _ | .type_error | .value_error | .json_decode_error | .refused _ => true
  | _ => false

/-- `VerifyError` and `OSError`. -/
def uncommittable : Exn → Bool
  | .verify _ | .os_error => true
  | _ => false

/-- The receipt of a finished attempt. -/
def issue (p : Platform) (c : Call) (verified : FrozenAuthorization) (acknowledgment : Value)
    (created_at : Str) (r : Recording) (execution : Outcome) : Stage receipt.FrozenReceipt :=
  match receipt.issue_receipt p.host c.pinned c.candidate c.snapshot c.result (some verified)
    (some acknowledgment) r.receipt_id created_at r.receipt_key_id r.receipt_key_version
    r.receipt_private_key c.registry with
  | .ok signed => pure signed
  | .error e =>
    if unissuable e then
      unrecorded (lit "The attempt finished and its receipt could not be issued: " ++ p.str e)
        "issue" none none execution
    else .throw (.exn e)

/-- `preserve_unrecorded`, which is allowed to fail. -/
def preserve (signed : receipt.FrozenReceipt) : Stage (Option Str) := do
  match ← Prog.question (Question.preserve_unrecorded signed) with
  | .ok path => pure (some path)
  | .error e => if uncommittable e then pure none else .throw (.exn e)

/-- The record of a finished attempt is committed, or its receipt is preserved. -/
def commit (p : Platform) (c : Call) (verified : FrozenAuthorization)
    (signed : receipt.FrozenReceipt) (execution : Outcome) : Stage Unit := do
  match ← Prog.question
      (Question.put_record signed c.pinned c.candidate c.snapshot (some verified)) with
  | .ok () => pure ()
  | .error e =>
    if uncommittable e then do
      let preserved ← preserve signed
      unrecorded (lit "The attempt finished and its record could not be committed: " ++ p.str e)
        "store" (some signed) preserved execution
    else .throw (.exn e)

/-- What one spent authorization produced. -/
structure ExecutionRecord where
  authorization_id : Str
  nonce_consumed : Bool
  execution : Outcome
  acknowledgment_canonical : Text
  receipt : receipt.FrozenReceipt
  stored_receipt_id : Str

/-! ## The call -/

/-- The nonce that the view of the store is asked for. -/
def nonce_of (c : Call) : Str :=
  match c.authorization.value with
  | .ok value => textAt value "nonce"
  | .error _ => []

/-- Everything above the line: nothing is spent and nothing is started. -/
def verify (p : Platform) (c : Call) : Stage Mandate := do
  let cwd ← Prog.question Question.working_directory
  let consumed ← Prog.question (Question.is_consumed (nonce_of c))
  compute (check_call p.host p.repr cwd (fun _ => consumed) c)

/-- The claim of the intent of a call, if it has custody. -/
def claim (c : Call) (m : Mandate) : Stage Unit :=
  match c.custody with
  | none => pure ()
  | some handoff => do
    match ← Prog.question (Question.claim handoff m.verified.authorization_id) with
    | .ok () => do
      let _ ← compute (handoff.claim_body m.verified.authorization_id)
      pure ()
    | .error .os_error =>
      compute (.error (fail .execution_configuration_invalid
        "Custody intent is claimed or cannot be claimed; retain UNKNOWN."))
    | .error e => compute (.error e)

/-- Everything from the launch on. -/
def attempt (p : Platform) (c : Call) (m : Mandate) (r : Recording) : Stage ExecutionRecord := do
  let execution ← launch c m
  let (acknowledged_at, created_at) ← completion_instants r.completion execution
  let acknowledgment := acknowledge execution acknowledged_at
  let signed ← issue p c m.verified acknowledgment created_at r execution
  commit p c m.verified signed execution
  let acknowledgment_canonical ← compute (canon.canonicalize acknowledgment)
  pure { authorization_id := m.verified.authorization_id, nonce_consumed := true, execution,
         acknowledgment_canonical, receipt := signed, stored_receipt_id := r.receipt_id }

/-- `execute_authorized_command`. -/
def execute_authorized_command (p : Platform) (c : Call) (r : Recording) : Stage ExecutionRecord := do
  let m ← verify p c
  let os ← Prog.question Question.custody_os
  compute (check_custody os c m)
  claim c m
  request (Question.consume m.verified) rfl
  attempt p c m r

end vfy.runner
