-- What a run asks of its surroundings: the clock, files, keys, processes and
-- the store. Everything else about a run is computed from the answers.
import VerifyRun.Lib.Session
import VerifyRun.Receipt
import VerifyRun.Runner

namespace vfy.runner

open session authorization

/-! ## Questions -/

/-- What the file system says of paths at one moment. Every question may be
answered with an exception. `read` opens a path to read it and says whether it
opened a regular file. -/
structure FileSystem where
  is_symlink : Str → Except Exn Bool
  is_dir : Str → Except Exn Bool
  is_file : Str → Except Exn Bool
  is_there : Str → Except Exn Bool
  resolve : Str → Except Exn Str
  read : Str → Except Exn (Bool × ByteArray)

/-- What is found where a program is looked for. -/
structure Found where
  plain_executable : Bool
  is_symlink : Bool
  path : Str

/-- What was observed of a process that was started. -/
structure Child where
  pid : Int
  returncode : Option Int
  timed_out : Bool
  stdout : ByteArray
  stderr : ByteArray

/-- How an attempt to start a process ends: `Popen` raises `OSError`, something
else is raised then or while the process runs, or the process is seen to its end. -/
inductive Launching where
  | refused
  | failed (e : Exn)
  | observed (child : Child)

/-- A question of a run to its surroundings. The last one asks nothing: it says
which evidence the run evaluates next. -/
inductive Question where
  | now
  | rulebook
  | program (directory name : Str)
  | file_system
  | evidence_command (argument directory : Str) (timeout_seconds : Int)
  | custody_os
  | trust
  | signing_seed (which : Str)
  | open_store
  | receipt_id
  | nonce
  | working_directory
  | is_consumed (nonce : Str)
  | claim (handoff : custody.Handoff) (authorization_id : Str)
  | consume (verified : FrozenAuthorization)
  | launch (argv : List Str) (environment : List (Str × Str)) (custody : Option custody.Handoff)
  | terminal (handoff : custody.Handoff) (body : Value)
  | put_record (receipt : receipt.FrozenReceipt) (pinned : rulebook.LoadedRulebook)
      (candidate : Value) (snapshot : snapshot.FrozenSnapshot)
      (authorization : Option FrozenAuthorization)
  | preserve_unrecorded (receipt : receipt.FrozenReceipt)
  | evaluated (pinned : rulebook.LoadedRulebook) (candidate : Value)
      (snapshot : snapshot.FrozenSnapshot)

/-- What a question is answered with. -/
def Answer : Question → Type
  | .now => Except Exn Str
  | .rulebook => Except Exn ByteArray
  | .program _ _ => Found
  | .file_system => FileSystem
  | .evidence_command _ _ _ => Except Exn (Int × ByteArray × Bool)
  | .custody_os => custody.Os
  | .trust => Except Exn (KeyRegistry × KeyRegistry)
  | .signing_seed _ => Except Exn (List UInt8)
  | .receipt_id | .nonce => Str
  | .working_directory => Directory
  | .is_consumed _ => Bool
  | .open_store | .claim _ _ | .consume _ | .put_record _ _ _ _ _ => Except Exn Unit
  | .launch _ _ _ => Launching
  | .terminal _ _ | .evaluated _ _ _ => Unit
  | .preserve_unrecorded _ => Except Exn Str

/-- What one launch came to. -/
structure Outcome where
  started : Bool
  exit_status : Option Int
  timed_out : Bool
  signal_number : Option Int
  stdout : ByteArray
  stderr : ByteArray
  truncated : Bool

/-- What leaves a run that does not return: an exception, or the failure to
record an attempt that has finished. -/
inductive Raised where
  | exn (e : Exn)
  | recording_failed (message : Str) (stage : String) (receipt : Option receipt.FrozenReceipt)
      (preserved_at : Option Str) (execution : Option Outcome)

/-- A part of a run. -/
abbrev Stage (α : Type) := Prog Question Answer Raised α

abbrev Events := History Question Answer

/-- What a part computes on its own. -/
def compute {α : Type} (x : Except Exn α) : Stage α := Prog.lift (x.mapError .exn)

/-- A question that may be answered with an exception. -/
def request {α : Type} (q : Question) (hq : Answer q = Except Exn α) : Stage α :=
  .ask q fun answer => compute (hq ▸ answer)

/-! ## What parts promise -/

section Rules

variable {α β : Type} {G : Events → Question → Prop} {h : Events}

theorem raised_eq_ok {x : Except Exn α} {a : α} :
    x.mapError Raised.exn = .ok a ↔ x = .ok a := by
  cases x <;> simp [Except.mapError]

theorem compute_keeps {x : Except Exn α} {R : Events → α → Prop} (hR : ∀ a, x = .ok a → R h a) :
    (compute x).Keeps G R h :=
  Prog.Keeps.lift fun a ha => hR a (raised_eq_ok.mp ha)

/-- What follows a computation starts where the computation did. -/
theorem compute_then {x : Except Exn α} {f : α → Stage β} {R : Events → β → Prop}
    (hf : ∀ a, x = .ok a → (f a).Keeps G R h) : (compute x >>= f).Keeps G R h := by
  refine (compute_keeps (R := fun h' a => h' = h ∧ x = .ok a) fun a ha => ⟨rfl, ha⟩).bind ?_
  rintro a h' ⟨rfl, ha⟩
  exact hf a ha

theorem request_keeps {q : Question} {hq : Answer q = Except Exn α} {R : Events → α → Prop}
    (hG : G h q) (hR : ∀ a, R (h ++ [⟨q, hq ▸ .ok a⟩]) a) : (request q hq).Keeps G R h := by
  refine ⟨hG, fun o => compute_keeps fun a ha => ?_⟩
  have hback : ∀ {B C : Type} (e : B = C) (b : B) (c : C), e ▸ b = c → b = e ▸ c := by
    rintro B C rfl b c rfl
    rfl
  rw [hback hq o (.ok a) ha]
  exact hR a

variable {P : Question → Prop} {R : α → Prop}

theorem compute_only {x : Except Exn α} (hR : ∀ a, x = .ok a → R a) : (compute x).Only P R := by
  exact Prog.Only.lift fun a ha => hR a (raised_eq_ok.mp ha)

theorem request_only {q : Question} {hq : Answer q = Except Exn α} (hP : P q) :
    (request q hq : Stage α).Only P fun _ => True :=
  ⟨hP, fun _ => compute_only fun _ _ => trivial⟩

end Rules

end vfy.runner
