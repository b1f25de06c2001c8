-- The local evidence adapters: each makes one bounded observation under one
-- root, and says when it was made. An adapter reads no clock.
import VerifyRun.Surroundings

namespace vfy.evidence

open python keys outcomes session runner

def MAX_ARGUMENT_LENGTH : Nat := 4096
def MAX_FILE_BYTES : Nat := 1048576

def OK : Str := "ok"
def MISSING : Str := "missing"
def ERROR : Str := "error"

/-- One observation. -/
structure AcquisitionResult where
  id : Str
  status : Str
  acquired_at : Str
  canonical_value : Option Text

/-- `as_acquisition`: the mapping that a snapshot is built from. -/
def AcquisitionResult.as_acquisition (r : AcquisitionResult) : Except Exn Value := do
  let members : List (Str × Value) :=
    [("id", .str r.id), ("status", .str r.status), ("acquired_at", .str r.acquired_at)]
  match r.canonical_value with
  | none => pure (.dict members)
  | some text => do
    let value ← load.load_json_bytes (String.ofList text).toByteArray
    pure (.dict (members ++ [(lit "value", value)]))

def observed (identifier acquired_at : Str) (value : Value) : Except Exn AcquisitionResult := do
  let canonical ← canon.canonicalize value
  pure { id := identifier, status := OK, acquired_at, canonical_value := some canonical }

def unavailable (identifier acquired_at status : Str) : AcquisitionResult where
  id := identifier
  status := status
  acquired_at := acquired_at
  canonical_value := none

/-! ## What is checked first -/

/-- `_check_declaration`: the id and the ref of a declaration. -/
def check_declaration (repr : Value → Str) (declaration : Value) (expected_source : Str) :
    Except Exn (Str × Str) :=
  match declaration with
  | .dict members =>
    match members.lookup (lit "id") with
    | some (.str (c :: rest)) => do
      let identifier := c :: rest
      let source := (members.lookup (lit "source")).getD .null
      raiseIf (isStr source expected_source = false) (fail .evidence_adapter_config_invalid
        (lit "This adapter reads source " ++ repr (.str expected_source) ++ lit ", not " ++
          repr source ++ lit ": " ++ identifier))
      match members.lookup (lit "ref") with
      | some (.str (c :: rest)) => pure (identifier, c :: rest)
      | _ => .error (fail .evidence_adapter_config_invalid
          (lit "A " ++ expected_source ++ lit " declaration needs a non-empty ref: " ++ identifier))
    | _ => .error (fail .evidence_adapter_config_invalid
        "An evidence declaration needs a non-empty string id.")
  | _ => .error (fail .evidence_adapter_config_invalid "An evidence declaration must be a mapping.")

/-- `check_instant`. -/
def check_instant (acquired_at : Str) : Except Exn Unit :=
  raiseIf (schema.is_date_time acquired_at = false) (fail .evidence_adapter_config_invalid
    "acquired_at must be a date-time string in the frozen grammar.")

/-- `Path(ref).parts` of a path that is not absolute. -/
def parts (ref : Str) : List Str :=
  (ref.splitOnP (· = .scalar '/')).filter fun part => part ≠ [] ∧ part ≠ lit "."

/-- `path / part`. -/
def join (path part : Str) : Str :=
  if path = lit "/" then path ++ part else path ++ lit "/" ++ part

/-- One turn of the loop over the parts of a ref. -/
def add_part (ref : Str) (segments : List Str) (part : Str) : Except Exn (List Str) :=
  if part = lit ".." then do
    raiseIf (segments = []) (fail .evidence_path_invalid
      (lit "The ref resolves outside the root: " ++ ref))
    pure segments.dropLast
  else pure (segments ++ [part])

/-- One turn of the loop that follows the segments and refuses a symlink. -/
def follow (fs : FileSystem) (target part : Str) : Except Exn Str := do
  let target := join target part
  let link ← fs.is_symlink target
  raiseIf (link = true) (fail .evidence_path_invalid
    (lit "A symlink may not stand in for evidence: " ++ target))
  pure target

/-- `settled == root or root in settled.parents`, of two resolved paths. -/
def contained (root settled : Str) : Bool :=
  settled = root || (join root []).isPrefixOf settled

/-- `not (path.is_symlink() or not path.is_dir())`. -/
def real_directory (fs : FileSystem) (path : Str) : Except Exn Bool := do
  let link ← fs.is_symlink path
  if link = true then pure false else fs.is_dir path

/-- `resolve_under_root`. -/
def resolve_under_root (fs : FileSystem) (root ref : Str) : Except Exn Str := do
  raiseIf (ref = []) (fail .evidence_path_invalid "An evidence ref must be a non-empty string.")
  raiseIf (ref.head? = some (.scalar '/')) (fail .evidence_path_invalid
    (lit "An absolute ref escapes the root by definition: " ++ ref))
  let real ← real_directory fs root
  raiseIf (real = false) (fail .evidence_path_invalid
    (lit "The adapter root is not an existing directory: " ++ root))
  let resolved_root ← fs.resolve root
  let segments ← (parts ref).foldlM (add_part ref) []
  raiseIf (segments = []) (fail .evidence_path_invalid
    (lit "A ref must name something under the root: " ++ ref))
  let target ← segments.foldlM (follow fs) resolved_root
  let settled ← fs.resolve target
  raiseIf (contained resolved_root settled = false) (fail .evidence_path_invalid
    (lit "The ref resolves outside the root: " ++ ref))
  pure target

/-! ## The adapters -/

/-- The result of bytes that were read: strict JSON, or an error. -/
def read_result (identifier acquired_at : Str) (raw : ByteArray) : Except Exn AcquisitionResult :=
  match load.load_json_bytes raw with
  | .ok value => observed identifier acquired_at value
  | .error (.verify _) => .ok (unavailable identifier acquired_at ERROR)
  | .error e => .error e

/-- `acquire_file`. -/
def acquire_file (repr : Value → Str) (fs : FileSystem) (declaration : Value)
    (root acquired_at : Str) : Except Exn AcquisitionResult := do
  let (identifier, ref) ← check_declaration repr declaration "file"
  check_instant acquired_at
  let path ← resolve_under_root fs root ref
  let there ← fs.is_there path
  if there = false then pure (unavailable identifier acquired_at MISSING)
  else do
    let plain ← fs.is_file path
    raiseIf (plain = false) (fail .evidence_path_invalid
      (lit "Evidence is declared at a path that is not a regular file: " ++ path))
    match fs.read path with
    | .error .os_error => pure (unavailable identifier acquired_at ERROR)
    | .error e => .error e
    | .ok (regular, raw) => do
      raiseIf (regular = false) (fail .evidence_path_invalid
        (lit "Evidence is declared at a path that is not a regular file: " ++ path))
      if raw.size > MAX_FILE_BYTES then pure (unavailable identifier acquired_at ERROR)
      else read_result identifier acquired_at raw

/-- `_check_working_directory`. -/
def check_working_directory (fs : FileSystem) (root working_directory : Str) : Except Exn Str := do
  let resolved_root ← fs.resolve root
  let settled ← fs.resolve working_directory
  raiseIf (contained resolved_root settled = false) (fail .evidence_path_invalid
    "The working directory is outside the root.")
  let real ← real_directory fs working_directory
  raiseIf (real = false) (fail .evidence_path_invalid "The working directory must be a real directory.")
  pure working_directory

/-- `not (path.exists() and not path.is_file())`. -/
def plain_or_absent (fs : FileSystem) (path : Str) : Except Exn Bool := do
  let there ← fs.is_there path
  if there = true then fs.is_file path else pure true

/-- What `acquire_command` checks before the command is run: the id of the
evidence, the one argument, and the directory. -/
def prepare_command (repr : Value → Str) (fs : FileSystem) (declaration : Value)
    (root acquired_at : Str) (timeout_seconds : Int) (working_directory : Str) :
    Except Exn (Str × Str × Str) := do
  let (identifier, ref) ← check_declaration repr declaration "exec"
  check_instant acquired_at
  raiseIf (¬ (1 ≤ timeout_seconds ∧ timeout_seconds ≤ 300)) (fail .evidence_adapter_config_invalid
    "timeout_seconds must be an integer from 1 to 300.")
  let executable ← resolve_under_root fs root ref
  let directory ← check_working_directory fs root working_directory
  let plain ← plain_or_absent fs executable
  raiseIf (plain = false) (fail .evidence_path_invalid
    (lit "An evidence command is declared at a path that is not a regular file: " ++ executable))
  raiseIf (MAX_ARGUMENT_LENGTH < executable.length) (fail .evidence_adapter_config_invalid
    "The single argv argument exceeds the declared bound.")
  pure (identifier, executable, directory)

/-- The result of a command that was run, or that could not be. -/
def command_result (identifier acquired_at : Str) :
    Except Exn (Int × ByteArray × Bool) → Except Exn AcquisitionResult
  | .error .os_error => .ok (unavailable identifier acquired_at ERROR)
  | .error e => .error e
  | .ok (code, stdout, oversize) =>
    if code ≠ 0 ∨ oversize = true ∨ stdout.size = 0 then
      .ok (unavailable identifier acquired_at ERROR)
    else read_result identifier acquired_at stdout

/-- `acquire_command`. -/
def acquire_command (repr : Value → Str) (fs : FileSystem) (declaration : Value)
    (root acquired_at : Str) (timeout_seconds : Int) (working_directory : Str) :
    Stage AcquisitionResult := do
  let (identifier, executable, directory) ← compute
    (prepare_command repr fs declaration root acquired_at timeout_seconds working_directory)
  let ran ← Prog.question (Question.evidence_command executable directory timeout_seconds)
  compute (command_result identifier acquired_at ran)

/-! ## What an adapter returns -/

/-- An observation of the evidence with this id, made at this instant. -/
structure Of (r : AcquisitionResult) (declaration : Value) (acquired_at : Str) : Prop where
  id : declaration.get? "id" = some (.str r.id)
  acquired_at : r.acquired_at = acquired_at

theorem check_declaration_id {repr : Value → Str} {declaration : Value} {source : Str}
    {found : Str × Str} (h : check_declaration repr declaration source = .ok found) :
    declaration.get? "id" = some (.str found.1) := by
  unfold check_declaration at h
  split at h
  · split at h
    · rename_i hid
      obtain ⟨-, h⟩ := seq_eq_ok.mp h
      split at h
      · rw [← Except.ok.inj h]
        exact hid
      · cases h
    · cases h
  · cases h

theorem read_result_of {declaration : Value} {identifier acquired_at : Str}
    (hid : declaration.get? "id" = some (.str identifier)) {raw : ByteArray}
    {r : AcquisitionResult} (h : read_result identifier acquired_at raw = .ok r) :
    Of r declaration acquired_at := by
  unfold read_result at h
  split at h
  · obtain ⟨_, -, h⟩ := bind_eq_ok.mp h
    obtain rfl := Except.ok.inj h
    exact ⟨hid, rfl⟩
  · obtain rfl := Except.ok.inj h
    exact ⟨hid, rfl⟩
  · cases h

theorem acquire_file_of {repr : Value → Str} {fs : FileSystem} {declaration : Value}
    {root acquired_at : Str} {r : AcquisitionResult}
    (h : acquire_file repr fs declaration root acquired_at = .ok r) :
    Of r declaration acquired_at := by
  obtain ⟨found, hfound, h⟩ := bind_eq_ok.mp h
  have hid := check_declaration_id hfound
  obtain ⟨-, h⟩ := seq_eq_ok.mp h
  obtain ⟨path, -, h⟩ := bind_eq_ok.mp h
  obtain ⟨there, -, h⟩ := bind_eq_ok.mp h
  split at h
  · obtain rfl := Except.ok.inj h
    exact ⟨hid, rfl⟩
  · obtain ⟨plain, -, h⟩ := bind_eq_ok.mp h
    obtain ⟨-, h⟩ := seq_eq_ok.mp h
    split at h
    · obtain rfl := Except.ok.inj h
      exact ⟨hid, rfl⟩
    · cases h
    · obtain ⟨-, h⟩ := seq_eq_ok.mp h
      split at h
      · obtain rfl := Except.ok.inj h
        exact ⟨hid, rfl⟩
      · exact read_result_of hid h

theorem command_result_of {declaration : Value} {identifier acquired_at : Str}
    (hid : declaration.get? "id" = some (.str identifier))
    {ran : Except Exn (Int × ByteArray × Bool)} {r : AcquisitionResult}
    (h : command_result identifier acquired_at ran = .ok r) : Of r declaration acquired_at := by
  unfold command_result at h
  split at h
  · obtain rfl := Except.ok.inj h
    exact ⟨hid, rfl⟩
  · cases h
  · split at h
    · obtain rfl := Except.ok.inj h
      exact ⟨hid, rfl⟩
    · exact read_result_of hid h

theorem prepare_command_id {repr : Value → Str} {fs : FileSystem} {declaration : Value}
    {root acquired_at working_directory : Str} {timeout_seconds : Int} {prepared : Str × Str × Str}
    (h : prepare_command repr fs declaration root acquired_at timeout_seconds working_directory =
      .ok prepared) : declaration.get? "id" = some (.str prepared.1) := by
  obtain ⟨found, hfound, h⟩ := bind_eq_ok.mp h
  obtain ⟨-, h⟩ := seq_eq_ok.mp h
  obtain ⟨-, h⟩ := seq_eq_ok.mp h
  obtain ⟨executable, -, h⟩ := bind_eq_ok.mp h
  obtain ⟨directory, -, h⟩ := bind_eq_ok.mp h
  obtain ⟨plain, -, h⟩ := bind_eq_ok.mp h
  obtain ⟨-, h⟩ := seq_eq_ok.mp h
  obtain ⟨-, h⟩ := seq_eq_ok.mp h
  rw [← Except.ok.inj h]
  exact check_declaration_id hfound

/-- The mapping of an observation says when the observation was made, and holds
a value that a loader returned, if it holds one. -/
theorem as_acquisition_spec {r : AcquisitionResult} {acquisition : Value}
    (h : r.as_acquisition = .ok acquisition) : acquisition.get? "id" = some (.str r.id) ∧
      acquisition.get? "acquired_at" = some (.str r.acquired_at) ∧ acquisition.DistinctKeys := by
  unfold AcquisitionResult.as_acquisition at h
  split at h
  · obtain rfl := Except.ok.inj h
    simp [Value.get?, Distinct]
  · obtain ⟨value, hvalue, h⟩ := bind_eq_ok.mp h
    obtain rfl := Except.ok.inj h
    have hdistinct := (load.canonical_of_load hvalue).distinctKeys
    simp [Value.get?, Distinct, hdistinct]

end vfy.evidence
