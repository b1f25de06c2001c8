-- The gated run of a workspace: pin the rulebook, build the candidate, acquire
-- and freeze the evidence, evaluate, and spend what the decision permits. This
-- layer alone reads the clock, once wherever a distinct instant exists.
import VerifyRun.Acquisition
import VerifyRun.Execution
import VerifyRun.Schemas

namespace vfy.workflow

open python keys outcomes session runner authorization custody

/-- What a run uses of a checked configuration. -/
structure Config where
  runtime_id : Str
  file_root : Str
  command_working_directory : Str
  command_timeout_seconds : Int
  working_directory : Str
  timeout_seconds : Int
  environment : List (Str × Str)
  search_path : List Str

/-- An initialized workspace. `path` is a path below its root. Its registry is
of the schemas that the package carries. -/
structure Workspace where
  config : Config
  path : Str → Str

def Workspace.registry (_ : Workspace) : schema.Registry := schema.REGISTRY

/-- One rendered outcome. -/
structure Decision where
  outcome : Str
  matched_rule : Option Value
  reasons : List Value
  summary : Str
  notes : List Str
  receipt_id : Option Str
  receipt_path : Option Str
  executed : Bool
  exit_status : Option Int
  nonce_consumed : Bool
  timed_out : Bool
  signalled : Bool

/-! ## The candidate -/

/-- The search of a bare name along the configured path. -/
def search (p : Platform) (ws : Workspace) (name : Str) : List Str → Stage Str
  | [] => compute (.error (fail .cli_executable_not_found (p.repr (.str name) ++
      lit " is not on the workspace search path; write a path or add its directory.")))
  | entry :: rest => do
    let found ← Prog.question (Question.program (ws.path entry) name)
    if found.plain_executable then pure found.path else search p ws name rest

/-- `resolve_program`. -/
def resolve_program (p : Platform) (ws : Workspace) (name : Str) : Stage Str :=
  if .scalar '/' ∈ name then do
    let found ← Prog.question (Question.program (ws.path ws.config.working_directory) name)
    if found.plain_executable then pure name
    else if found.is_symlink then
      compute (.error (fail .cli_executable_not_found
        (lit "A symlinked executable is not permitted; name the program it points at: " ++ name)))
    else compute (.error (fail .cli_executable_not_found (lit "No executable at " ++ name)))
  else search p ws name ws.config.search_path

/-- The first half of the hex digest of the canonical bytes of a mapping. -/
def short_digest (members : List (Str × Value)) : Except Exn Str := do
  let data ← canon.canonical_bytes (.dict members)
  pure (ofText ((canon.sha256_hexdigest data).take 32))

/-- The strings, with a blank between each two. -/
def spaced (argv : List Str) : Str := List.intercalate (lit " ") argv

/-- The mapping of a candidate. `bound` is the commitment of a handoff. -/
def candidateOf (candidate_id : Str) (resolved : List Str) (identity : List (Str × Value))
    (bound : Option Str) : Value :=
  let action : List (Str × Value) :=
    [("summary", .str (spaced resolved)), ("argv", .list (resolved.map .str))]
  let params : List (Str × Value) := match bound with
    | none => []
    | some expected => [("params", .dict [("run_custody_sha256", .str expected)])]
  let named : List (Str × Value) :=
    if identity.isEmpty then [] else [("identity", .dict identity)]
  .dict (([("candidate_id", .str candidate_id), ("kind", .str "command"),
    ("action", .dict (action ++ params))] : List (Str × Value)) ++ named)

/-- `build_candidate`: what the candidate is built from. -/
def build_candidate (p : Platform) (ws : Workspace) (argv : List Str) (started_at : Str) :
    Stage (Str × List Str) :=
  match argv with
  | [] => compute (.error (fail .cli_executable_not_found "No command was given after \x60--\x60."))
  | name :: rest => do
    let program ← resolve_program p ws name
    let resolved := program :: rest
    let seed ← compute (short_digest
      [("argv", .list (resolved.map .str)), ("frozen_at", .str started_at)])
    pure (lit "c-" ++ seed, resolved)

/-- The candidate of a run, bound to its handoff if it has one, which is
validated before any evidence is acquired. -/
def bind_candidate (ws : Workspace) (pinned : rulebook.LoadedRulebook) (candidate_id : Str)
    (resolved : List Str) (identity : List (Str × Value)) (held : Option Handoff) : Stage Value :=
  match held with
  | none => pure (candidateOf candidate_id resolved identity none)
  | some handoff => do
    let expected ← compute (commitment handoff.envelope)
    let candidate := candidateOf candidate_id resolved identity (some expected)
    let os ← Prog.question Question.custody_os
    compute (handoff.validate os (some candidate) (some ws.config.environment))
    compute (no_command_evidence pinned)
    pure candidate

/-! ## The evidence -/

/-- What was acquired so far, and what no adapter acquires. -/
structure Acquired where
  acquisitions : List Value
  unsupported : List (Value × Value)

/-- The reading of the clock. -/
def now_utc : Stage Str := request Question.now rfl

/-- The observation of one declaration, by the adapter of its source. -/
def observe (p : Platform) (ws : Workspace) (declaration source : Value) (acquired_at : Str) :
    Stage evidence.AcquisitionResult := do
  let root := ws.path ws.config.file_root
  let fs ← Prog.question Question.file_system
  if isStr source "file" then compute (evidence.acquire_file p.repr fs declaration root acquired_at)
  else
    evidence.acquire_command p.repr fs declaration root acquired_at
      ws.config.command_timeout_seconds (ws.path ws.config.command_working_directory)

/-- One turn of the loop of `acquire`. -/
def acquire_one (p : Platform) (ws : Workspace) (state : Acquired) (declaration : Value) :
    Stage Acquired := do
  let source ← compute (getItem declaration "source")
  if isStr source "file" = false ∧ isStr source "exec" = false then do
    let id ← compute (getItem declaration "id")
    pure { state with unsupported := state.unsupported ++ [(id, source)] }
  else do
    let acquired_at ← now_utc
    let result ← observe p ws declaration source acquired_at
    let acquisition ← compute result.as_acquisition
    pure { state with acquisitions := state.acquisitions ++ [acquisition] }

/-- `acquire`. -/
def acquire (p : Platform) (ws : Workspace) (pinned : rulebook.LoadedRulebook) : Stage Acquired := do
  let declarations ← compute (do iterate (← getItem (← pinned.value) "evidence"))
  declarations.foldlM (acquire_one p ws) ⟨[], []⟩

/-- What an evaluation leaves. -/
structure Evaluated where
  frozen : snapshot.FrozenSnapshot
  result : gate.EvaluationResult
  unsupported : List (Value × Value)

/-- `evaluate`: acquire, freeze and evaluate. -/
def evaluate (p : Platform) (ws : Workspace) (pinned : rulebook.LoadedRulebook)
    (candidate : Value) : Stage Evaluated := do
  let acquired ← acquire p ws pinned
  let frozen_at ← now_utc
  let id ← compute (getItem candidate "candidate_id")
  let seed ← compute (short_digest [("candidate", id), ("frozen_at", .str frozen_at)])
  let frozen ← compute (snapshot.build_snapshot pinned (lit "s-" ++ seed) frozen_at
    acquired.acquisitions ws.registry)
  let value ← compute frozen.value
  Prog.question (Question.evaluated pinned candidate frozen)
  let result ← compute (gate.evaluate pinned candidate value ws.registry)
  pure { frozen, result, unsupported := acquired.unsupported }

/-! ## The keys -/

/-- The signing seed of a trusted signer that is active. -/
def signer (p : Platform) (keys : KeyRegistry) (key_id which : Str) : Stage (List UInt8) :=
  match keys.lookup (key_id, 1) with
  | none => compute (.error (fail .signing_key_unknown
      (lit "The configured " ++ which ++ lit " signer is not trusted.")))
  | some entry => do
    compute (check_key_status entry false)
    let seed ← request (Question.signing_seed which) rfl
    match p.public_key seed with
    | none =>
      compute (.error (fail .cli_config_invalid
        (lit "Not a usable Ed25519 signing key: " ++ which ++ lit " signer")))
    | some public_key => do
      compute (raiseIf (public_key ≠ entry.public_key) (fail .signing_key_invalid
        (lit "The configured " ++ which ++ lit " signing key does not match its trusted identity.")))
      pure seed

/-! ## The run -/

/-- The note on evidence that no adapter acquires. -/
def note (unsupported : Value × Value) : Str :=
  let text : Value → Str
    | .str s => s
    | _ => []
  lit "evidence " ++ text unsupported.1 ++ lit " is declared over " ++ text unsupported.2 ++
    lit ", which this local runtime does not acquire"

/-- What a decision shows, whatever came of it. -/
def rendered (e : Evaluated) (resolved : List Str) (value : Value) (reasons : List Value) :
    Decision where
  outcome := e.result.outcome
  matched_rule := value.get? "matched_rule"
  reasons := reasons
  summary := spaced resolved
  notes := e.unsupported.map note
  receipt_id := none
  receipt_path := none
  executed := false
  exit_status := none
  nonce_consumed := false
  timed_out := false
  signalled := false

/-- `_receipt_path`. -/
def receipt_path (receipt_id : Str) : Str := lit ".vfy/receipts/" ++ receipt_id ++ lit ".json"

/-- The end of a run that the decision stops: a receipt of it is stored. -/
def decline (p : Platform) (ws : Workspace) (pinned : rulebook.LoadedRulebook) (candidate : Value)
    (e : Evaluated) (seed : List UInt8) (receipt_id : Str) : Stage Unit := do
  let created_at ← now_utc
  let signed ← compute (receipt.issue_receipt p.host pinned candidate e.frozen e.result none none
    receipt_id created_at "receipt-key" 1 seed ws.registry)
  request (Question.put_record signed pinned candidate e.frozen none) rfl

/-- The call that spends an authorization at an instant. -/
def callOf (ws : Workspace) (pinned : rulebook.LoadedRulebook) (candidate : Value) (e : Evaluated)
    (granted : FrozenAuthorization) (spent_at : Str) (keys : KeyRegistry)
    (held : Option Handoff) : Call where
  pinned := pinned
  candidate := candidate
  snapshot := e.frozen
  result := e.result
  authorization := granted
  runtime_id := ws.config.runtime_id
  verification_time := spent_at
  authorization_keys := keys
  registry := ws.registry
  environment := some (.dict (ws.config.environment.map fun entry => (entry.1, .str entry.2)))
  timeout_seconds := .int ws.config.timeout_seconds
  custody := held

/-- The end of a run that is permitted: an authorization is issued, and spent. -/
def proceed (p : Platform) (ws : Workspace) (pinned : rulebook.LoadedRulebook) (candidate : Value)
    (e : Evaluated) (keys : KeyRegistry) (receipt_seed : List UInt8) (receipt_id : Str)
    (held : Option Handoff) : Stage ExecutionRecord := do
  let seed ← signer p keys "authorization-key" "authorization"
  let nonce ← Prog.question Question.nonce
  let issued_at ← now_utc
  let granted ← compute (issue_authorization p.host pinned candidate e.frozen e.result
    (lit "a-" ++ receipt_id.drop 2) nonce ws.config.runtime_id issued_at "authorization-key" 1 seed
    ws.registry)
  let spent_at ← now_utc
  execute_authorized_command p (callOf ws pinned candidate e granted spent_at keys held)
    { receipt_id, receipt_key_id := "receipt-key", receipt_key_version := 1,
      receipt_private_key := receipt_seed, completion := .clock }

/-- What follows a decision that is not an error. -/
def conclude (p : Platform) (ws : Workspace) (pinned : rulebook.LoadedRulebook) (candidate : Value)
    (e : Evaluated) (held : Option Handoff) (base : Decision) : Stage Decision := do
  let trust ← request Question.trust rfl
  let receipt_seed ← signer p trust.2 "receipt-key" "receipt"
  request Question.open_store rfl
  let receipt_id ← Prog.question Question.receipt_id
  let base := { base with
    receipt_id := some receipt_id, receipt_path := some (receipt_path receipt_id) }
  if e.result.outcome = lit "BLOCK" ∨ e.result.outcome = lit "HOLD" then do
    decline p ws pinned candidate e receipt_seed receipt_id
    pure base
  else do
    let record ← proceed p ws pinned candidate e trust.1 receipt_seed receipt_id held
    pure { base with
      executed := record.execution.started, exit_status := record.execution.exit_status,
      nonce_consumed := record.nonce_consumed, timed_out := record.execution.timed_out,
      signalled := record.execution.signal_number.isSome }

/-- `_run`: the complete gated run. -/
def run (p : Platform) (ws : Workspace) (argv : List Str) (identity : List (Str × Value))
    (held : Option Handoff) : Stage Decision := do
  let started_at ← now_utc
  let source ← request Question.rulebook rfl
  let pinned ← compute (rulebook.load_rulebook_bytes p.yaml source ws.registry)
  let (candidate_id, resolved) ← build_candidate p ws argv started_at
  let candidate ← bind_candidate ws pinned candidate_id resolved identity held
  let e ← evaluate p ws pinned candidate
  let value ← compute e.result.value
  let reasons ← compute (do iterate (← getItem value "reasons"))
  let base := rendered e resolved value reasons
  if e.result.outcome = lit "ERROR" then pure base
  else conclude p ws pinned candidate e held base

end vfy.workflow
