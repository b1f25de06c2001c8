-- The isolated managed copy of an adoption: what a manifest says of its files,
-- how they are provisioned, and how changed files replace them. The file system
-- is changed through the surroundings; everything else is computed.
import VerifyRun.Lib.Session
import VerifyRun.Authorization
import VerifyRun.ManagedCapacity

namespace vfy.service_adoption

open session python keys outcomes child_ledger common_capacity managed_capacity
open authorization (FrozenAuthorization)

/-! ## The surroundings -/

/-- What the file system says of an entry. -/
structure Stat where
  directory : Bool
  device : Nat
  inode : Nat
  uid : Nat
  mode : Nat
  size : Nat

/-- What a function finds on disk. The controller is trusted and the file system
cooperates: nothing else moves while one function looks. -/
structure Disk where
  files : Files
  lstat : List Str → Option Stat
  stat : List Str → Option Stat
  iterdir : List Str → Option (List Str)
  /-- Each directory of a walk, with the names of its directories and of its files. -/
  walk : List Str → List (List Str × List Str × List Str)
  temporary : List Str
  uid : Nat

/-- A change that a function asks for, at the parts of a path. -/
inductive Effect where
  | mkdir (p : List Str)
  | fresh (p : List Str) (data : ByteArray)
  | write_bytes (p : List Str) (data : ByteArray)
  | chmod (p : List Str) (mode : Nat)
  | replace (source target : List Str)
  | fsync (p : List Str)
  | lock (p : List Str) (shared : Bool)
  | open_store (root : List Str)
  | consume_once (root : List Str) (verified : FrozenAuthorization)
  | sync_consumption (root : List Str) (nonce : Str)

/-- A question to the surroundings. -/
inductive Question where
  | disk
  | bounded_file (p : Str) (limit : Nat)
  | mkdtemp (start : Str)
  | now
  | is_consumed (root : List Str) (nonce : Str)
  | effect (e : Effect)

/-- What a question is answered with. -/
def Answer : Question → Type
  | .disk => Disk
  | .bounded_file _ _ => Checked ByteArray
  | .mkdtemp _ => Checked (List Str)
  | .now => Checked Str
  | .is_consumed _ _ => Checked Bool
  | .effect _ => Checked Unit

/-- A part of a run. -/
abbrev Stage (α : Type) := Prog Question Answer Refusal α

def compute {α : Type} (x : Checked α) : Stage α := Prog.lift x

def effect (e : Effect) : Stage Unit := .ask (.effect e) compute

/-! ## Limits -/

/-- What an adoption may use, or what all of them may. -/
structure Resources where
  read_bytes : Nat
  write_bytes : Nat
  file_mutations : Nat
  journal_bytes : Nat
deriving DecidableEq

instance : Add Resources := ⟨fun a b =>
  ⟨a.read_bytes + b.read_bytes, a.write_bytes + b.write_bytes, a.file_mutations + b.file_mutations,
   a.journal_bytes + b.journal_bytes⟩⟩

instance : LE Resources := ⟨fun a b =>
  a.read_bytes ≤ b.read_bytes ∧ a.write_bytes ≤ b.write_bytes ∧
  a.file_mutations ≤ b.file_mutations ∧ a.journal_bytes ≤ b.journal_bytes⟩

/-- What a plan may use. -/
structure Limits where
  files : Nat
  source_bytes : Nat
  resources : Resources

/-! ## Manifests -/

/-- What a manifest says of a file. -/
structure Content where
  sha256 : Str
  bytes : Nat
  executable : Nat
deriving DecidableEq

abbrev Contents := List (Str × Content)

/-- The execution bits of a mode. -/
def EXECUTABLE : Nat := 0o111

/-- An entry of a manifest. -/
def contentOf (v : Value) : Checked Content := do
  let _ ← needKeys v ["sha256", "bytes", "executable"]
  let sha256 ← hex64Of (← item v "sha256")
  let bytes ← integerOf (← item v "bytes")
  let executable ← integerOf (← item v "executable")
  need (bytes ≤ MAX_BYTES ∧ executable &&& EXECUTABLE = executable)
  pure { sha256, bytes, executable }

/-- `str` of a path with no anchor. -/
def relativeText (p : List Str) : Str := if p = [] then "." else [CodePoint.scalar '/'].intercalate p

/-- The name stands as a path writes it, below the root, and no part of it leaves
the copy or enters its repository. -/
def plainName (name : Str) : Prop :=
  text name ∧ name.head? ≠ some (.scalar '/') ∧ relativeText (parts name) = name ∧
  (∀ part ∈ parts name, part ∉ ([lit ".", lit "..", lit ".git"] : List Str)) ∧
  CodePoint.scalar '\\' ∉ name ∧ (parts name).length ≤ 64 ∧
  (String.ofList ((toText? name).getD [])).utf8ByteSize ≤ 4096 ∧ CodePoint.scalar '\x00' ∉ name

instance (name : Str) : Decidable (plainName name) :=
  inferInstanceAs (Decidable (_ ∧ _ ∧ _ ∧ _ ∧ _ ∧ _ ∧ _ ∧ _))

/-- A manifest as it was loaded, and what it says of each file. -/
structure Manifest where
  value : Value
  contents : Contents

/-- One entry of the loop of `_manifest`, over the names of all of them. -/
def entryOf (names : List Str) (m : Str × Value) : Checked (Str × Content) := do
  need (plainName m.1)
  let content ← contentOf m.2
  need (∀ parent ∈ (parts m.1).inits.tail.dropLast, relativeText parent ∉ names)
  pure (m.1, content)

/-- `_manifest`. -/
def manifest (data : ByteArray) (limits : Limits) : Checked Manifest := do
  let v ← lift (load.load_json_bytes data)
  match v with
  | .dict members => do
    need (0 < members.length ∧ members.length ≤ limits.files)
    let contents ← members.mapM (entryOf (members.map Prod.fst))
    need ((contents.map fun c => c.2.bytes).sum ≤ limits.source_bytes)
    pure { value := v, contents }
  | _ => .error (.refused REFUSED)

/-- `set(a) == set(b)` of what two mappings name. -/
def sameNames {α β : Type} (a : List (Str × α)) (b : List (Str × β)) : Prop :=
  (∀ m ∈ a, m.1 ∈ b.map Prod.fst) ∧ ∀ m ∈ b, m.1 ∈ a.map Prod.fst

instance {α β : Type} (a : List (Str × α)) (b : List (Str × β)) : Decidable (sameNames a b) :=
  inferInstanceAs (Decidable (_ ∧ _))

/-- `_payloads`: the files are exactly those of the manifest. -/
def payloads (contents : Contents) (files : List (Str × ByteArray)) : Checked Unit := do
  need (sameNames files contents)
  forM files fun f =>
    match contents.lookup f.1 with
    | some c => need (f.2.size = c.bytes ∧ sha f.2 = c.sha256)
    | none => .error (.raised .key_error)

/-! ## The meter -/

/-- One of the resources. -/
inductive Resource where
  | read_bytes
  | write_bytes
  | file_mutations
  | journal_bytes

def Resource.name : Resource → Str
  | .read_bytes => "read_bytes"
  | .write_bytes => "write_bytes"
  | .file_mutations => "file_mutations"
  | .journal_bytes => "journal_bytes"

/-- How much there is of a resource. -/
def Resources.amount (r : Resources) : Resource → Nat
  | .read_bytes => r.read_bytes
  | .write_bytes => r.write_bytes
  | .file_mutations => r.file_mutations
  | .journal_bytes => r.journal_bytes

/-- So much of one resource. -/
def Resource.of (n : Nat) : Resource → Resources
  | .read_bytes => ⟨n, 0, 0, 0⟩
  | .write_bytes => ⟨0, n, 0, 0⟩
  | .file_mutations => ⟨0, 0, n, 0⟩
  | .journal_bytes => ⟨0, 0, 0, n⟩

theorem charge_within {limits used : Resources} {k : Resource} {n : Nat} (hw : used ≤ limits)
    (hn : used.amount k + n ≤ limits.amount k) : used + k.of n ≤ limits := by
  obtain ⟨hr, hwb, hm, hj⟩ := hw
  cases k with
  | read_bytes => exact ⟨hn, hwb, hm, hj⟩
  | write_bytes => exact ⟨hr, hn, hm, hj⟩
  | file_mutations => exact ⟨hr, hwb, hn, hj⟩
  | journal_bytes => exact ⟨hr, hwb, hm, hn⟩

/-- `_Meter`: what is used never exceeds the limits. -/
structure Meter (limits : Resources) where
  used : Resources
  within : used ≤ limits

/-- `charge`. -/
def Meter.charge {limits : Resources} (meter : Meter limits) (k : Resource) (n : Nat) :
    Checked (Meter limits) :=
  if h : meter.used.amount k + n ≤ limits.amount k then
    pure { used := meter.used + k.of n, within := charge_within meter.within h }
  else .error (.refused (lit "Declared " ++ k.name ++ lit " exhausted."))

/-! ## Provisioning -/

/-- One file of the base, in the copy. -/
def provision_file (copy : List Str) (base : Contents) (f : Str × ByteArray) : Stage Unit := do
  let p := copy ++ parts f.1
  effect (.mkdir p.dropLast)
  effect (.fresh p f.2)
  match base.lookup f.1 with
  | some c => effect (.chmod p (0o600 ||| c.executable))
  | none => compute (.error (.raised .key_error))
  effect (.fsync p)

/-! ## Replacing -/

/-- The name of the file at a position. -/
def numbered (i : Nat) : Str := ofText (canon.decimal i)

/-- A changed file, as it is to be. -/
structure Payload where
  name : Str
  content : Content
  data : ByteArray

/-- One turn of the loop that replaces the files of the copy. -/
def replace_file {limits : Resources} (root : List Str) (meter : Meter limits) (p : Payload × Nat) :
    Stage (Meter limits) := do
  let staged := root ++ [lit "stage", numbered p.2]
  let target := root ++ [lit "copy"] ++ parts p.1.name
  let meter ← compute (meter.charge .write_bytes p.1.data.size)
  effect (.fresh staged p.1.data)
  effect (.chmod staged (0o600 ||| p.1.content.executable))
  effect (.fsync staged)
  let meter ← compute (meter.charge .file_mutations 1)
  effect (.replace staged target)
  effect (.fsync target.dropLast)
  effect (.fsync (root ++ [lit "stage"]))
  pure meter

end vfy.service_adoption
