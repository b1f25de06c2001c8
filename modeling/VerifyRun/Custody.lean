-- The custody of one direct child: a handoff binds a candidate to its argv,
-- its worker files and one intent. The claim takes the intent for good, and a
-- terminal record says what was observed of the child.
import VerifyRun.Canon
import VerifyRun.Dynamic
import VerifyRun.Load
import VerifyRun.Worlds

namespace vfy.custody

open python keys outcomes

def ENV : Str := "VFY_CUSTODY_HANDOFF"
def LIMIT : Nat := 1048576

def need (value : Prop) [Decidable value] : Except Exn Unit :=
  raiseIf (¬ value) (fail .execution_configuration_invalid
    "Custody handoff is unavailable or differs from its binding.")

theorem need_eq_ok {p : Prop} [Decidable p] : need p = .ok () ↔ p := by
  simp [need]

def digest (value : Value) : Except Exn Str := do
  let data ← canon.canonical_bytes value
  pure (ofText (canon.sha256_hexdigest data))

def hex_digest : Value → Bool
  | .str s => s.length = 64 && s.all (· ∈ lit "0123456789abcdef")
  | _ => false

/-! ## What the operating system answers -/

/-- What `fstat` says of an open file. -/
structure Stat where
  regular : Bool
  links : Nat
  device : Int
  inode : Int
  size : Nat

/-- The answers of the operating system at one moment. `plain` says that a
path is absolute, resolved and no link; `content` opens such a path to read it. -/
structure Os where
  fstat : Int → Except Exn Stat
  read_only : Int → Except Exn Bool
  duplicate : Int → Except Exn Int
  plain : Str → Except Exn Bool
  content : Str → Except Exn (Stat × ByteArray)
  lexists : Str → Except Exn Bool

def read_file (os : Os) (name : Str) : Except Exn ByteArray := do
  need ((← os.plain name) = true)
  let (st, data) ← os.content name
  need (st.regular = true ∧ st.links = 1 ∧ st.size ≤ LIMIT)
  need (data.size ≤ LIMIT)
  pure data

/-- One turn of the loop over the worker files. -/
def check_worker_file (os : Os) (file : Str × Value) : Except Exn Unit := do
  need ((← os.plain file.1) = true)
  let (st, data) ← os.content file.1
  need (st.regular = true)
  need (python.eq (.str (ofText (canon.sha256_hexdigest data))) file.2 = true)

/-! ## The envelope -/

def ENVELOPE_KEYS : List Str := ["binding", "intent_path", "intent_sha256", "fd"]

def BINDING_KEYS : List Str := ["version", "operation_id", "source_id", "argv", "lease",
  "worker_files", "worker_data", "coverage"]

/-- `type(value) is dict and set(value) == names`. -/
def mapping_of (value : Value) (names : List Str) : Except Exn Unit :=
  match value with
  | .dict members => need ((∀ m ∈ members, m.1 ∈ names) ∧
      ∀ name ∈ names, (members.lookup name).isSome = true)
  | _ => need False

/-- `type(value) is int and value >= least`. -/
def integer_from (least : Int) : Value → Bool
  | .int i => least ≤ i
  | _ => false

/-- A string with no NUL. -/
def argument : Value → Bool
  | .str s => .scalar (Char.ofNat 0) ∉ s
  | _ => false

def isDict : Value → Bool
  | .dict _ => true
  | _ => false

def isString : Value → Bool
  | .str _ => true
  | _ => false

/-- `type(argv) is list and argv and all(type(s) is str and '\0' not in s for s in argv)`. -/
def is_argv : Value → Bool
  | .list (program :: rest) => argument program && rest.all argument
  | _ => false

/-- What is asked of the lease of a binding. -/
def check_lease (lease : Value) : Except Exn Unit := do
  mapping_of lease ["device", "inode"]
  let device ← getItem lease "device"
  let inode ← getItem lease "inode"
  need (integer_from 0 device = true ∧ integer_from 0 inode = true)

/-- What is asked of the worker files of a binding. -/
def check_worker_files (files argv : Value) : Except Exn Unit :=
  match files, argv with
  | .dict members, .list (.str program :: _) => do
    need (1 ≤ members.length ∧ members.length ≤ 512 ∧ (members.lookup program).isSome = true)
    need (members.all (fun m => hex_digest m.2) = true)
  | _, _ => need False

/-- The string at a member, and the empty one where there is none. -/
def textAt (value : Value) (key : Str) : Str :=
  match value.get? key with
  | some (.str s) => s
  | _ => []

/-- `_shape`. -/
def shape (text : ByteArray) (e : Value) : Except Exn Unit := do
  mapping_of e ENVELOPE_KEYS
  let fd ← getItem e "fd"
  need (integer_from 3 fd = true)
  let b ← getItem e "binding"
  mapping_of b BINDING_KEYS
  let version ← getItem b "version"
  let coverage ← getItem b "coverage"
  need (eqExact version (.int 1) = true ∧ isStr coverage "guarded-intents-v1" = true)
  let operation_id ← getItem b "operation_id"
  let source_id ← getItem b "source_id"
  let intent_sha256 ← getItem e "intent_sha256"
  need (hex_digest operation_id = true ∧ hex_digest source_id = true ∧
    hex_digest intent_sha256 = true)
  let argv ← getItem b "argv"
  need (is_argv argv = true)
  check_lease (← getItem b "lease")
  check_worker_files (← getItem b "worker_files") argv
  let worker_data ← getItem b "worker_data"
  let intent_path ← getItem e "intent_path"
  need (isDict worker_data = true ∧ text.size ≤ LIMIT ∧ isString intent_path = true)

/-- A handoff: an envelope of the right shape, as its canonical text says it,
and the descriptor that it owns. -/
structure Handoff where
  text : ByteArray
  envelope : Value
  fd : Int
  loaded : load.load_json_bytes text = .ok envelope
  shaped : shape text envelope = .ok ()

def Handoff.intent_path (h : Handoff) : Str := textAt h.envelope "intent_path"

def Handoff.claimed_path (h : Handoff) : Str := h.intent_path ++ lit ".claimed"

def Handoff.terminal_path (h : Handoff) : Str := h.intent_path ++ lit ".terminal.json"

/-- The envelope with no transport descriptor. -/
def portable (envelope : Value) : Value :=
  match envelope with
  | .dict members => .dict (members.filter fun m => m.1 ≠ lit "fd")
  | other => other

def commitment (envelope : Value) : Except Exn Str := digest (portable envelope)

/-! ## Validation -/

/-- The exceptions that a check of a handoff turns into its one refusal. -/
def caught : Exn → Bool
  | .os_error | .value_error | .json_decode_error | .refused _ | .type_error | .key_error => true
  | _ => false

def validated {α : Type} (x : Except Exn α) : Except Exn α := x.mapError fun e =>
  if caught e then
    fail .execution_configuration_invalid "Custody handoff could not be validated."
  else e

theorem validated_eq_ok {α : Type} {x : Except Exn α} {a : α} : validated x = .ok a ↔ x = .ok a := by
  cases x <;> simp [validated, Except.mapError]

/-- `candidate['action'].get('params', {}).get('run_custody_sha256')`. -/
def run_custody_sha256 (candidate : Value) : Except Exn Value := do
  let params ← getOr (← getItem candidate "action") "params" (.dict [])
  getOr params "run_custody_sha256" .null

/-- What a handoff says of a candidate. -/
def check_candidate (h : Handoff) (candidate : Value) : Except Exn Unit := do
  let b ← getItem h.envelope "binding"
  let argv ← getItem (← getItem candidate "action") "argv"
  let bound ← getItem b "argv"
  need (python.eq argv bound = true)
  let named ← run_custody_sha256 candidate
  let expected ← commitment h.envelope
  need (isStr named expected = true)

/-- What a handoff says of the files. -/
def check_files (os : Os) (h : Handoff) : Except Exn Unit := do
  let b ← getItem h.envelope "binding"
  let st ← os.fstat h.fd
  need (st.regular = true ∧ st.links = 1)
  let lease ← getItem b "lease"
  let device ← getItem lease "device"
  let inode ← getItem lease "inode"
  need (python.eq (.int st.device) device = true ∧ python.eq (.int st.inode) inode = true)
  need ((← os.read_only h.fd) = true)
  let raw ← read_file os h.intent_path
  let intent_sha256 ← getItem h.envelope "intent_sha256"
  need (isStr intent_sha256 (ofText (canon.sha256_hexdigest raw)) = true)
  let expected : List (Str × Value) := [("schema", .str "vfy.custody-intent/1"),
    ("binding_sha256", .str (← digest b)), ("state", .str "PENDING")]
  need (raw = (← canon.canonical_bytes (.dict expected)))
  need ((← os.lexists h.terminal_path) = false)
  need ((← os.lexists h.claimed_path) = false)
  match ← getItem b "worker_files" with
  | .dict files => files.forM (check_worker_file os)
  | _ => .error .attribute_error

/-- `_validate`. -/
def Handoff.check (h : Handoff) (os : Os) (candidate : Option Value)
    (environment : Option (List (Str × Str))) : Except Exn Unit := do
  check_files os h
  match candidate with
  | none => pure ()
  | some c => check_candidate h c
  match environment with
  | none => pure ()
  | some names => need ((names.lookup ENV).isNone = true)

def Handoff.validate (h : Handoff) (os : Os) (candidate : Option Value)
    (environment : Option (List (Str × Str))) : Except Exn Unit :=
  validated (h.check os candidate environment)

/-- `Handoff.__init__`. -/
def Handoff.init (os : Os) (envelope : Value) : Except Exn Handoff := validated do
  let text ← canon.canonical_bytes envelope
  match hload : load.load_json_bytes text with
  | .error e => .error e
  | .ok loaded =>
    match hshape : shape text loaded with
    | .error e => .error e
    | .ok () => do
      let fd ← os.duplicate (← number (← getItem loaded "fd"))
      let h : Handoff := { text := text, envelope := loaded, fd := fd, loaded := hload, shaped := hshape }
      h.validate os none none
      pure h

/-! ## What is written -/

/-- What the claim of an intent holds. -/
def Handoff.claim_body (h : Handoff) (authorization_id : Str) : Except Exn Value := do
  let handoff_sha256 ← commitment h.envelope
  pure (.dict [("handoff_sha256", .str handoff_sha256), ("authorization_id", .str authorization_id)])

/-- The environment of the child. -/
def Handoff.child_environment (h : Handoff) (environment : List (Str × Str)) :
    Except Exn (List (Str × Str)) := do
  need ((environment.lookup ENV).isNone = true)
  let members : List (Str × Value) := match portable h.envelope with
    | .dict ms => ms
    | _ => []
  let handoff_sha256 ← commitment h.envelope
  let text ← canon.canonicalize (.dict (members ++
    ([("fd", .int h.fd), ("handoff_sha256", .str handoff_sha256)] : List (Str × Value))))
  pure (environment ++ [(ENV, ofText text)])

/-- `value` where there is one, and `None` where there is not. -/
def orNull : Option Int → Value
  | some i => .int i
  | none => .null

/-- What the terminal record of a child holds. -/
def Handoff.terminal_body (h : Handoff) (code : Option Int) (not_started : Bool)
    (pid : Option Int) : Except Exn Value := do
  let handoff_sha256 ← commitment h.envelope
  pure (.dict [("schema", .str "vfy.custody-terminal/1"), ("handoff_sha256", .str handoff_sha256),
    ("returncode", orNull code), ("pid", orNull pid),
    ("scope", .str (if not_started then "NOT_STARTED" else "DIRECT_CHILD_ONLY"))])

/-- The record names an exit. -/
def NamesExit (body : Value) : Prop := ∃ code, body.get? "returncode" = some (.int code)

theorem claim_names_no_exit {h : Handoff} {authorization_id : Str} {body : Value}
    (hbody : h.claim_body authorization_id = .ok body) : ¬ NamesExit body := by
  obtain ⟨sha, -, hbody⟩ := bind_eq_ok.mp hbody
  obtain rfl := Except.ok.inj hbody
  rintro ⟨code, hcode⟩
  simp [Value.get?] at hcode

/-- A terminal record names an exit only where a return code was observed. -/
theorem terminal_names_exit {h : Handoff} {code pid : Option Int} {not_started : Bool} {body : Value}
    (hbody : h.terminal_body code not_started pid = .ok body) (hexit : NamesExit body) :
    code.isSome = true := by
  obtain ⟨sha, -, hbody⟩ := bind_eq_ok.mp hbody
  obtain rfl := Except.ok.inj hbody
  obtain ⟨value, hvalue⟩ := hexit
  cases code with
  | some _ => rfl
  | none => simp [Value.get?, orNull] at hvalue

/-! ## What validation says -/

/-- Strings that a value equals are the value. -/
theorem eq_strings {ss : List Str} {v : Value} (h : python.eq (.list (ss.map .str)) v = true) :
    v = .list (ss.map .str) := by
  cases v with
  | list items =>
    rw [python.eq, eqBy, eqItems_iff] at h
    congr 1
    have hsame := List.forall₂_map_left_iff.mp h
    clear h
    induction hsame with
    | nil => rfl
    | @cons s v ss vs hv _ ih =>
      have hstr : v = .str s := by
        cases v <;> simp_all [eqBy, eqScalar]
      rw [hstr, ih, List.map_cons]
  | _ => simp [python.eq, eqBy, eqScalar] at h

/-- What a handoff has confirmed about a candidate. -/
structure Binds (h : Handoff) (candidate : Value) : Prop where
  named : ∃ expected, commitment h.envelope = .ok expected ∧
    run_custody_sha256 candidate = .ok (.str expected)
  argv : ∃ action b argv bound, getItem candidate "action" = .ok action ∧
    getItem action "argv" = .ok argv ∧ getItem h.envelope "binding" = .ok b ∧
    getItem b "argv" = .ok bound ∧ python.eq argv bound = true

theorem binds_of_check {h : Handoff} {candidate : Value} (hc : check_candidate h candidate = .ok ()) :
    Binds h candidate := by
  obtain ⟨b, hb, hc⟩ := bind_eq_ok.mp hc
  obtain ⟨action, haction, hc⟩ := bind_eq_ok.mp hc
  obtain ⟨argv, hargv, hc⟩ := bind_eq_ok.mp hc
  obtain ⟨bound, hbound, hc⟩ := bind_eq_ok.mp hc
  obtain ⟨heq, hc⟩ := seq_eq_ok.mp hc
  obtain ⟨named, hnamed, hc⟩ := bind_eq_ok.mp hc
  obtain ⟨expected, hexpected, hc⟩ := bind_eq_ok.mp hc
  refine ⟨⟨expected, hexpected, ?_⟩, action, b, argv, bound, haction, hargv, hb, hbound,
    need_eq_ok.mp heq⟩
  rw [hnamed, gate.isStr_iff.mp (need_eq_ok.mp hc)]

theorem binds_of_validate {h : Handoff} {os : Os} {candidate : Value}
    {environment : Option (List (Str × Str))}
    (hv : h.validate os (some candidate) environment = .ok ()) : Binds h candidate := by
  have hcheck := validated_eq_ok.mp hv
  obtain ⟨-, hrest⟩ := seq_eq_ok.mp hcheck
  exact binds_of_check (seq_eq_ok.mp hrest).1

end vfy.custody
