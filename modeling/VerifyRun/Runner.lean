-- Gated local execution: what one call checks before anything is spent, and
-- what it hands to the process that it starts.
import VerifyRun.Authorization
import VerifyRun.Custody

namespace vfy.runner

open python keys outcomes authorization custody

def MIN_TIMEOUT_SECONDS : Int := 1
def MAX_TIMEOUT_SECONDS : Int := 3600

/-- The member of an argv that a candidate names. -/
def member_of : Value → Except Exn Str
  | .str s => .ok s
  | _ => .error (fail .execution_candidate_unsupported "Every argv member must be a string.")

/-- What is asked of the program that an argv names. -/
def check_program : List Str → Except Exn Unit
  | [] => .error .index_error
  | program :: _ => do
    raiseIf (program = []) (fail .execution_candidate_unsupported "argv[0] names nothing.")
    raiseIf (.scalar '/' ∉ program) (fail .execution_candidate_unsupported
      (lit "argv[0] must name a path, not a name to search for: " ++ program))

/-- `executable_argv`: the argv that a candidate authorizes. -/
def executable_argv (repr : Value → Str) (candidate : Value) : Except Exn (List Str) :=
  match candidate with
  | .dict members => do
    let kind := (members.lookup (lit "kind")).getD .null
    raiseIf (isStr kind "command" = false) (fail .execution_candidate_unsupported
      (lit "Only a command candidate names a process; this one is " ++ repr kind))
    match members.lookup (lit "action") with
    | some (.dict action) =>
      match action.lookup (lit "argv") with
      | some (.list (program :: rest)) => do
        let argv ← (program :: rest).mapM member_of
        check_program argv
        pure argv
      | _ => .error (fail .execution_candidate_unsupported
          "A command candidate needs a non-empty argv; the schema permits neither to be there.")
    | _ => .error (fail .execution_candidate_unsupported "A command candidate needs an action.")
  | _ => .error .type_error

/-- A working directory, as the operating system finds it. -/
structure Directory where
  path : Str
  is_symlink : Bool
  is_dir : Bool

/-- `_check_working_directory`. -/
def check_working_directory (cwd : Directory) : Except Exn Unit :=
  raiseIf (cwd.is_symlink = true ∨ cwd.is_dir = false) (fail .execution_configuration_invalid
    (lit "The working directory must be an existing real directory: " ++ cwd.path))

/-- A name and a value of an environment. -/
def entry_of (entry : Str × Value) : Except Exn (Str × Str) :=
  match entry.2 with
  | .str s => .ok (entry.1, s)
  | _ => .error (fail .execution_configuration_invalid
      "environment names and values must be strings.")

/-- `_check_environment`. -/
def check_environment : Option Value → Except Exn (List (Str × Str))
  | none => .ok []
  | some (.dict entries) => entries.mapM entry_of
  | some _ => .error (fail .execution_configuration_invalid
      "environment must be a mapping when supplied.")

/-- `_check_timeout`. -/
def check_timeout (timeout_seconds : Value) : Except Exn Unit :=
  match timeout_seconds with
  | .int i => raiseIf (¬ (MIN_TIMEOUT_SECONDS ≤ i ∧ i ≤ MAX_TIMEOUT_SECONDS))
      (fail .execution_configuration_invalid "timeout_seconds must be an integer from 1 to 3600.")
  | _ => .error (fail .execution_configuration_invalid
      "timeout_seconds must be an integer from 1 to 3600.")

/-- The arguments of one call of `execute_authorized_command`, up to what it
records of the attempt. -/
structure Call where
  pinned : rulebook.LoadedRulebook
  candidate : Value
  snapshot : snapshot.FrozenSnapshot
  result : gate.EvaluationResult
  authorization : FrozenAuthorization
  runtime_id : Str
  verification_time : Str
  authorization_keys : KeyRegistry
  registry : schema.Registry
  environment : Option Value
  timeout_seconds : Value
  custody : Option Handoff

/-- What a call has in hand once the authorization is verified. -/
structure Mandate where
  argv : List Str
  environment : List (Str × Str)
  verified : FrozenAuthorization

/-- The nonce of an authorization, as the view of the store answers for it. -/
def consumed_view (is_consumed : Str → Bool) (value : Value) : List Str :=
  match value.get? "nonce" with
  | some (.str nonce) => if is_consumed nonce then [nonce] else []
  | _ => []

/-- What a call checks before the line: everything up to and with the
verification of the authorization. -/
def check_call (host : Host) (repr : Value → Str) (cwd : Directory) (is_consumed : Str → Bool)
    (c : Call) : Except Exn Mandate := do
  raiseIf (c.result.outcome ≠ lit "ALLOW") (fail .authorization_outcome_ineligible
    (lit "Only ALLOW is executable; this decision is " ++ c.result.outcome))
  let argv ← executable_argv repr c.candidate
  check_working_directory cwd
  let environment ← check_environment c.environment
  check_timeout c.timeout_seconds
  let value ← c.authorization.value
  let verified ← verify_authorization host value c.pinned c.candidate c.snapshot c.result
    c.runtime_id (some (.str c.verification_time)) c.authorization_keys c.registry
    (some (consumed_view is_consumed value)) false
  pure { argv, environment, verified }

/-- No declaration of the rulebook is acquired from a command. -/
def no_command_evidence (pinned : rulebook.LoadedRulebook) : Except Exn Unit := do
  let items ← iterate (← getItem (← pinned.value) "evidence")
  let covered ← items.allM fun e => do
    let source ← getItem e "source"
    pure (!isStr source "exec")
  need (covered = true)

/-- The checks of the custody of a call, between the verification of its
authorization and the claim of the intent. -/
def check_custody (os : Os) (c : Call) (m : Mandate) : Except Exn Unit := do
  let binding ← run_custody_sha256 c.candidate
  match binding, c.custody with
  | .null, none => pure ()
  | .null, some _ => need False
  | _, none => need False
  | _, some handoff => do
    handoff.validate os (some c.candidate) (some m.environment)
    no_command_evidence c.pinned

/-- The environment that a launch hands to the child. -/
def launch_environment (c : Call) (m : Mandate) : Except Exn (List (Str × Str)) :=
  match c.custody with
  | none => .ok m.environment
  | some handoff => handoff.child_environment m.environment

/-! ## What the checks leave -/

/-- The members of a list that are strings, one by one. -/
theorem mapM_member_of {items : List Value} {argv : List Str}
    (h : items.mapM member_of = .ok argv) : items = argv.map .str := by
  have hall := mapM_eq_ok.mp h
  clear h
  induction hall with
  | nil => rfl
  | @cons v s vs ss hv _ ih =>
    rw [List.map_cons, ← ih]
    cases v with
    | str t =>
      rw [Except.ok.inj hv]
    | _ => cases hv

/-- The argv of a candidate is the list at its action. -/
theorem executable_argv_spec {repr : Value → Str} {candidate : Value} {argv : List Str}
    (h : executable_argv repr candidate = .ok argv) :
    ∃ action, getItem candidate "action" = .ok action ∧
      getItem action "argv" = .ok (.list (argv.map .str)) := by
  unfold executable_argv at h
  split at h
  · rename_i members
    obtain ⟨-, h⟩ := seq_eq_ok.mp h
    split at h
    · rename_i action haction
      split at h
      · rename_i program rest hargv
        obtain ⟨found, hfound, h⟩ := bind_eq_ok.mp h
        obtain ⟨-, h⟩ := seq_eq_ok.mp h
        obtain rfl := Except.ok.inj h
        refine ⟨.dict action, ?_, ?_⟩
        · rw [getItem_dict, haction]
        · rw [getItem_dict, hargv, mapM_member_of hfound]
      · cases h
    · cases h
  · cases h

theorem argv_of_check_call {host : Host} {repr : Value → Str} {cwd : Directory}
    {is_consumed : Str → Bool} {c : Call} {m : Mandate}
    (h : check_call host repr cwd is_consumed c = .ok m) :
    executable_argv repr c.candidate = .ok m.argv := by
  obtain ⟨-, h⟩ := seq_eq_ok.mp h
  obtain ⟨argv, hargv, h⟩ := bind_eq_ok.mp h
  obtain ⟨-, h⟩ := seq_eq_ok.mp h
  obtain ⟨environment, -, h⟩ := bind_eq_ok.mp h
  obtain ⟨-, h⟩ := seq_eq_ok.mp h
  obtain ⟨value, -, h⟩ := bind_eq_ok.mp h
  obtain ⟨verified, -, h⟩ := bind_eq_ok.mp h
  obtain rfl := Except.ok.inj h
  exact hargv

/-- What a call has in hand was verified from the text of its authorization. -/
theorem verified_of_check_call {host : Host} {repr : Value → Str} {cwd : Directory}
    {is_consumed : Str → Bool} {c : Call} {m : Mandate}
    (h : check_call host repr cwd is_consumed c = .ok m) :
    ∃ value, c.authorization.value = .ok value ∧
      verify_authorization host value c.pinned c.candidate c.snapshot c.result c.runtime_id
        (some (.str c.verification_time)) c.authorization_keys c.registry
        (some (consumed_view is_consumed value)) false = .ok m.verified := by
  obtain ⟨-, h⟩ := seq_eq_ok.mp h
  obtain ⟨argv, -, h⟩ := bind_eq_ok.mp h
  obtain ⟨-, h⟩ := seq_eq_ok.mp h
  obtain ⟨environment, -, h⟩ := bind_eq_ok.mp h
  obtain ⟨-, h⟩ := seq_eq_ok.mp h
  obtain ⟨value, hvalue, h⟩ := bind_eq_ok.mp h
  obtain ⟨verified, hverified, h⟩ := bind_eq_ok.mp h
  obtain rfl := Except.ok.inj h
  exact ⟨value, hvalue, hverified⟩

/-- The candidate and the custody of a call fit: both name one handoff, or
neither names any. -/
def Fits (c : Call) : Prop :=
  match c.custody with
  | none => run_custody_sha256 c.candidate = .ok .null
  | some handoff => Binds handoff c.candidate

theorem fits_of_check {os : Os} {c : Call} {m : Mandate} (h : check_custody os c m = .ok ()) :
    Fits c := by
  obtain ⟨binding, hbinding, h⟩ := bind_eq_ok.mp h
  unfold Fits
  cases hc : c.custody with
  | none =>
    rw [hc] at h
    cases binding with
    | null => exact hbinding
    | _ => exact (need_eq_ok.mp h).elim
  | some handoff =>
    rw [hc] at h
    cases binding with
    | null => exact (need_eq_ok.mp h).elim
    | _ => exact binds_of_validate (seq_eq_ok.mp h).1

end vfy.runner
