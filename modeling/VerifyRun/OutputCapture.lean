-- The output of a process, captured while it runs: two pipes are read in
-- whatever order and pieces they give, each into a buffer of its own that keeps
-- one byte more than its limit. What is returned is the start of each stream.
import VerifyRun.Lib.Capture
import VerifyRun.Execution
import VerifyRun.Acquisition

namespace vfy.runner

open python outcomes bounded_capture

/-! ## The loop -/

/-- A pipe of the process. -/
inductive Stream where
  | stdout
  | stderr
deriving DecidableEq

/-- One turn of the loop, as the clock and the process give it: the deadline is
over, or `select` names the pipes that are ready and `read1` gives a chunk of
each, which is empty at the end of the pipe. -/
inductive Turn where
  | late
  | ready (keys : List (Stream × Except Exn (List UInt8)))

def Turn.isLate : Turn → Bool
  | .late => true
  | .ready _ => false

/-- A process that was started: the turns of the loop, the code that `wait` gives
in time, and the code after its group was ended. -/
structure Process where
  pid : Int
  turns : List Turn
  waited : Option Int
  ended : Option Int

/-- The pipes that are still registered, and what is captured of each pipe. -/
structure Capture where
  registered : List Stream
  captured : Stream → List UInt8

namespace Capture

def start : Capture where
  registered := [.stdout, .stderr]
  captured _ := []

/-- One turn of the loop over the ready pipes. -/
def read_key (limits : Stream → Nat) (s : Capture) (key : Stream) (chunk : List UInt8) : Capture :=
  if chunk = [] then { s with registered := s.registered.filter (· ≠ key) }
  else { s with captured := Function.update s.captured key (keep (limits key) (s.captured key) chunk) }

/-- The loop over the ready pipes. What a read raises ends it. -/
def read_keys (limits : Stream → Nat) (s : Capture) (keys : List (Stream × Except Exn (List UInt8))) :
    Except Exn Capture :=
  keys.foldlM (fun s key => do pure (s.read_key limits key.1 (← key.2))) s

/-- `select` gives each registered pipe at most once. -/
def given (s : Capture) (keys : List (Stream × Except Exn (List UInt8))) : Prop :=
  (keys.map Prod.fst).Nodup ∧ ∀ key ∈ keys, key.1 ∈ s.registered

instance (s : Capture) (keys : List (Stream × Except Exn (List UInt8))) : Decidable (s.given keys) :=
  inferInstanceAs (Decidable (_ ∧ _))

/-- The loop, over the turns that there are until it ends: what is captured, and
whether the deadline ended it. No process gives turns that make it `none`. -/
def loop (limits : Stream → Nat) (s : Capture) : List Turn → Option (Except Exn (Capture × Bool))
  | [] => if s.registered = [] then some (.ok (s, false)) else none
  | turn :: turns =>
    if s.registered = [] then none
    else match turn with
      | .late => if turns = [] then some (.ok (s, true)) else none
      | .ready keys =>
        if s.given keys then
          match s.read_keys limits keys with
          | .ok s => loop limits s turns
          | .error e => if turns = [] then some (.error e) else none
        else none

end Capture

/-! ## The outcome -/

/-- `bytes`. -/
def bytes (buffer : List UInt8) : ByteArray := ⟨buffer.toArray⟩

/-- What `_launch` returns of a process and what was captured of it. -/
def outcomeWithin (limits : Stream → Nat) (child : Child) : Outcome where
  started := true
  exit_status :=
    if child.timed_out then none
    else child.returncode.filter fun code => 0 ≤ code
  timed_out := child.timed_out
  signal_number :=
    if child.timed_out then none
    else (child.returncode.filter fun code => code < 0).map fun code => -code
  stdout := child.stdout.extract 0 (limits .stdout)
  stderr := child.stderr.extract 0 (limits .stderr)
  truncated := child.stdout.size > limits .stdout ∨ child.stderr.size > limits .stderr

/-- `limits`, where nothing is measured. -/
def LIMITS : Stream → Nat
  | .stdout => MAX_STDOUT_BYTES
  | .stderr => MAX_STDERR_BYTES

/-- The process when the loop is over: it was reaped in time, or its group was ended. -/
def Process.child (p : Process) (late : Bool) (captured : Stream → List UInt8) : Child :=
  let timed_out := late || p.waited.isNone
  { pid := p.pid, returncode := if timed_out then p.ended else p.waited, timed_out
    stdout := bytes (captured .stdout), stderr := bytes (captured .stderr) }

/-- `_launch`, from the process that was started on. -/
def Process.launch (limits : Stream → Nat) (p : Process) : Option (Except Exn Outcome) :=
  (Capture.start.loop limits p.turns).map fun run => run.map fun (s, late) =>
    outcomeWithin limits (p.child late s.captured)

/-- What was read of a pipe. -/
def delivered (k : Stream) (turns : List Turn) : List UInt8 := turns.flatMap fun
  | .late => []
  | .ready keys => keys.flatMap fun key => if key.1 = k then key.2.toOption.getD [] else []

/-! ## What the loop captures -/

section Loop

variable {limits : Stream → Nat} {s s' : Capture} {read : Stream → List UInt8}

/-- The buffers are the starts of what was read, up to one byte over the limit. -/
def Holds (limits : Stream → Nat) (s : Capture) (read : Stream → List UInt8) : Prop :=
  ∀ k, s.captured k = (read k).take (limits k + 1)

theorem Holds.start (limits : Stream → Nat) : Holds limits Capture.start fun _ => [] :=
  fun _ => List.take_nil.symm

theorem Holds.congr {read' : Stream → List UInt8} (h : Holds limits s read)
    (heq : ∀ k, read k = read' k) : Holds limits s read' :=
  fun k => heq k ▸ h k

/-- A chunk of one pipe goes into the buffer of that pipe. -/
theorem Holds.read_key (h : Holds limits s read) (key : Stream) (chunk : List UInt8) :
    Holds limits (s.read_key limits key chunk) fun k => read k ++ if key = k then chunk else [] := by
  intro k
  unfold Capture.read_key
  by_cases hchunk : chunk = []
  · rw [if_pos hchunk, hchunk]
    dsimp only
    rw [ite_self, List.append_nil]
    exact h k
  rw [if_neg hchunk]
  dsimp only
  by_cases hk : key = k
  · subst hk
    rw [Function.update_self, if_pos rfl, h key, keep_take]
  · rw [Function.update_of_ne (Ne.symm hk), if_neg hk, List.append_nil]
    exact h k

/-- The chunks of one turn. -/
theorem Holds.read_keys {keys : List (Stream × Except Exn (List UInt8))} (h : Holds limits s read)
    (hkeys : s.read_keys limits keys = .ok s') :
    Holds limits s' fun k => read k ++ delivered k [.ready keys] := by
  induction keys generalizing s read with
  | nil =>
    cases hkeys
    exact h.congr fun k => (List.append_nil _).symm
  | cons key keys ih =>
    unfold Capture.read_keys at hkeys
    rw [List.foldlM_cons] at hkeys
    obtain ⟨t, ht, hrest⟩ := bind_eq_ok.mp hkeys
    obtain ⟨chunk, hchunk, ht⟩ := bind_eq_ok.mp ht
    cases ht
    refine (ih (h.read_key key.1 chunk) hrest).congr fun k => ?_
    simp only [delivered, List.flatMap_cons, List.flatMap_nil, List.append_nil, hchunk,
      Except.toOption, Option.getD_some, List.append_assoc]

/-- All turns, in whatever order the pipes are ready. -/
theorem Holds.loop {turns : List Turn} {late : Bool} (h : Holds limits s read)
    (hrun : s.loop limits turns = some (.ok (s', late))) :
    Holds limits s' fun k => read k ++ delivered k turns := by
  induction turns generalizing s read with
  | nil =>
    unfold Capture.loop at hrun
    split at hrun
    · cases hrun
      exact h.congr fun k => (List.append_nil _).symm
    · cases hrun
  | cons turn turns ih =>
    unfold Capture.loop at hrun
    by_cases hdone : s.registered = []
    · rw [if_pos hdone] at hrun
      cases hrun
    rw [if_neg hdone] at hrun
    cases turn with
    | late =>
      dsimp only at hrun
      split at hrun
      · rename_i hlast
        cases hrun
        subst hlast
        exact h.congr fun k => (List.append_nil _).symm
      · cases hrun
    | ready keys =>
      dsimp only at hrun
      by_cases hgiven : s.given keys
      · rw [if_pos hgiven] at hrun
        cases hkeys : s.read_keys limits keys with
        | error e =>
          rw [hkeys] at hrun
          dsimp only at hrun
          split at hrun <;> cases hrun
        | ok t =>
          rw [hkeys] at hrun
          refine (ih (h.read_keys hkeys) hrun).congr fun k => ?_
          simp only [delivered, List.flatMap_cons, List.flatMap_nil, List.append_nil, List.append_assoc]
      · rw [if_neg hgiven] at hrun
        cases hrun

/-- The deadline ended the loop exactly where a turn says that it is over. -/
theorem loop_late {turns : List Turn} {late : Bool}
    (hrun : s.loop limits turns = some (.ok (s', late))) : late = turns.any Turn.isLate := by
  induction turns generalizing s with
  | nil =>
    unfold Capture.loop at hrun
    split at hrun <;> cases hrun
    rfl
  | cons turn turns ih =>
    unfold Capture.loop at hrun
    split at hrun
    · cases hrun
    cases turn with
    | late =>
      dsimp only at hrun
      split at hrun <;> cases hrun
      rfl
    | ready keys =>
      dsimp only at hrun
      split at hrun
      · split at hrun
        · rw [List.any_cons, Turn.isLate, Bool.false_or]
          exact ih hrun
        · split at hrun <;> cases hrun
      · cases hrun

end Loop

/-! ## What is returned -/

theorem size_bytes (l : List UInt8) : (bytes l).size = l.length := rfl

theorem extract_bytes (l : List UInt8) (n : ℕ) : (bytes l).extract 0 n = bytes (l.take n) := by
  apply ByteArray.ext
  rw [ByteArray.data_extract]
  simp [bytes]

/-- The process as it is seen with everything that was read of it. -/
def Process.seen (p : Process) : Child :=
  p.child (p.turns.any Turn.isLate) fun k => delivered k p.turns

/-- The loop may drop what it drops: the outcome is the one of a process whose
whole output is there when it is cut. -/
theorem launch_eq {limits : Stream → Nat} {p : Process} {outcome : Outcome}
    (h : p.launch limits = some (.ok outcome)) : outcome = outcomeWithin limits p.seen := by
  obtain ⟨run, hrun, h⟩ := Option.map_eq_some_iff.mp h
  cases run with
  | error e => cases h
  | ok r =>
    obtain ⟨s, late⟩ := r
    cases h
    have hcaptured := (Holds.start limits).loop hrun
    have hlate := loop_late hrun
    have hk : ∀ k, s.captured k = (delivered k p.turns).take (limits k + 1) := hcaptured
    subst hlate
    unfold outcomeWithin Process.seen Process.child
    dsimp only
    rw [hk, hk]
    simp only [extract_bytes, take_kept, size_bytes, gt_iff_lt, limit_lt_length_kept]

/-- An execution takes this outcome. -/
theorem launch_eq_outcomeOf {p : Process} {outcome : Outcome}
    (h : p.launch LIMITS = some (.ok outcome)) : outcome = outcomeOf p.seen :=
  launch_eq h

/-- What an outcome has of a pipe. -/
def Outcome.captured (o : Outcome) : Stream → ByteArray
  | .stdout => o.stdout
  | .stderr => o.stderr

theorem captured_eq {limits : Stream → Nat} {p : Process} {outcome : Outcome}
    (h : p.launch limits = some (.ok outcome)) (k : Stream) :
    outcome.captured k = bytes ((delivered k p.turns).take (limits k)) := by
  rw [launch_eq h]
  cases k with
  | stdout => exact extract_bytes _ _
  | stderr => exact extract_bytes _ _

theorem truncated_iff {limits : Stream → Nat} {p : Process} {outcome : Outcome}
    (h : p.launch limits = some (.ok outcome)) :
    outcome.truncated = true ↔ ∃ k, limits k < (delivered k p.turns).length := by
  rw [launch_eq h]
  unfold outcomeWithin
  rw [decide_eq_true_iff]
  constructor
  · rintro (hout | herr)
    · exact ⟨.stdout, hout⟩
    · exact ⟨.stderr, herr⟩
  · rintro ⟨k, hk⟩
    cases k with
    | stdout => exact .inl hk
    | stderr => exact .inr hk

/-! ## Every interleaving is a run -/

/-- One pipe is ready, with this chunk. -/
def Turn.chunk (read : Stream × List UInt8) : Turn := .ready [(read.1, .ok read.2)]

/-- Two pipes that give these chunks in this order and then end. -/
def interleaved (reads : List (Stream × List UInt8)) : List Turn :=
  reads.map Turn.chunk ++ [Turn.chunk (.stdout, []), Turn.chunk (.stderr, [])]

/-- The bytes of one pipe among these chunks. -/
def written (k : Stream) (reads : List (Stream × List UInt8)) : List UInt8 :=
  (reads.filter fun read => read.1 = k).flatMap Prod.snd

theorem delivered_interleaved (k : Stream) (reads : List (Stream × List UInt8)) :
    delivered k (interleaved reads) = written k reads := by
  unfold interleaved
  induction reads with
  | nil => simp [delivered, written, Turn.chunk, Except.toOption]
  | cons read reads ih =>
    rw [List.map_cons, List.cons_append]
    unfold delivered at ih ⊢
    rw [List.flatMap_cons, ih]
    by_cases hk : read.1 = k
    · simp [written, Turn.chunk, hk, Except.toOption]
    · simp [written, Turn.chunk, hk]

/-- A chunk leaves the pipes as they are, so the loop goes on. -/
theorem loop_chunk {limits : Stream → Nat} {s : Capture} {read : Stream × List UInt8} {turns : List Turn}
    (hregistered : read.1 ∈ s.registered) : s.loop limits (Turn.chunk read :: turns) =
      (s.read_key limits read.1 read.2).loop limits turns := by
  have hne : s.registered ≠ [] := List.ne_nil_of_mem hregistered
  have hgiven : s.given [(read.1, .ok read.2)] := ⟨by simp, by simpa using hregistered⟩
  rw [Turn.chunk, Capture.loop, if_neg hne, if_pos hgiven]
  rfl

theorem loop_interleaved (limits : Stream → Nat) (reads : List (Stream × List UInt8))
    (hreads : ∀ read ∈ reads, read.2 ≠ []) {s : Capture} (hs : s.registered = [.stdout, .stderr]) :
    ∃ s', s.loop limits (interleaved reads) = some (.ok (s', false)) := by
  unfold interleaved
  induction reads generalizing s with
  | nil =>
    refine ⟨{ s with registered := [] }, ?_⟩
    rw [List.map_nil, List.nil_append, loop_chunk (by simp [hs]), loop_chunk (by simp [Capture.read_key, hs])]
    simp [Capture.read_key, hs, Capture.loop]
  | cons read reads ih =>
    have hmem : read.1 ∈ s.registered := by
      rw [hs]
      cases read.1 <;> simp
    have hchunk : read.2 ≠ [] := hreads read List.mem_cons_self
    rw [List.map_cons, List.cons_append, loop_chunk hmem]
    apply ih fun other hother => hreads other (List.mem_cons_of_mem _ hother)
    rw [Capture.read_key, if_neg hchunk]
    exact hs

theorem launch_interleaved (limits : Stream → Nat) (reads : List (Stream × List UInt8))
    (hreads : ∀ read ∈ reads, read.2 ≠ []) (pid : Int) (waited ended : Option Int) :
    ∃ outcome, Process.launch limits ⟨pid, interleaved reads, waited, ended⟩ = some (.ok outcome) := by
  obtain ⟨s, hs⟩ := loop_interleaved limits reads hreads (s := Capture.start) rfl
  let p : Process := ⟨pid, interleaved reads, waited, ended⟩
  refine ⟨outcomeWithin limits (p.child false s.captured), ?_⟩
  show (Capture.start.loop limits (interleaved reads)).map _ = _
  rw [hs]
  rfl

end vfy.runner

namespace vfy.evidence

open python outcomes bounded_capture runner

/-! ## Commands -/

def MAX_STDOUT_BYTES : Nat := 1048576
def MAX_STDERR_BYTES : Nat := 65536

/-- `limits`. -/
def limits : Stream → Nat
  | .stdout => MAX_STDOUT_BYTES
  | .stderr => MAX_STDERR_BYTES

/-- `_run_bounded`, from the process that was started on. -/
def run_bounded (p : Process) : Option (Except Exn (Int × ByteArray × Bool)) :=
  (Capture.start.loop limits p.turns).map fun run => run.map fun (s, late) =>
    match late, p.waited with
    | false, some code =>
      (code, bytes (s.captured .stdout), decide (MAX_STDOUT_BYTES < (s.captured .stdout).length))
    | _, _ => (-1, ByteArray.empty, false)

/-- A command in time: all of its output, or one byte over the limit. -/
theorem run_bounded_eq {p : Process} {code ran : Int} {stdout : ByteArray} {oversize : Bool}
    (h : run_bounded p = some (.ok (ran, stdout, oversize))) (hwaited : p.waited = some code)
    (hlate : p.turns.any Turn.isLate = false) :
    ran = code ∧ stdout = bytes ((delivered .stdout p.turns).take (MAX_STDOUT_BYTES + 1)) ∧
      (oversize = true ↔ MAX_STDOUT_BYTES < (delivered .stdout p.turns).length) := by
  obtain ⟨run, hrun, h⟩ := Option.map_eq_some_iff.mp h
  cases run with
  | error e => cases h
  | ok r =>
    obtain ⟨s, late⟩ := r
    have hfalse := (loop_late hrun).trans hlate
    have hout := (Holds.start limits).loop hrun .stdout
    subst hfalse
    rw [hwaited] at h
    cases h
    rw [hout]
    refine ⟨rfl, rfl, ?_⟩
    rw [decide_eq_true_iff]
    exact limit_lt_length_kept

/-- Output that is not reported as oversize is whole. -/
theorem run_bounded_whole {p : Process} {code ran : Int} {stdout : ByteArray}
    (h : run_bounded p = some (.ok (ran, stdout, false))) (hwaited : p.waited = some code)
    (hlate : p.turns.any Turn.isLate = false) : stdout = bytes (delivered .stdout p.turns) := by
  obtain ⟨-, hout, hover⟩ := run_bounded_eq h hwaited hlate
  have hlength : ¬ MAX_STDOUT_BYTES < (delivered .stdout p.turns).length := fun hlong => by
    cases hover.mpr hlong
  rw [hout, List.take_of_length_le (by omega)]

end vfy.evidence

namespace vfy.store

open python outcomes

/-! ## A stored file -/

/-- `_read_bounded`, over what each read of the descriptor gives. After them the
file ends. -/
def read_bounded (str : Exn → Str) (bound : Nat) (chunks : List (List UInt8)) (total : Nat) :
    List (Except Exn (List UInt8)) → Except Exn (List UInt8)
  | [] => .ok chunks.flatten
  | .error .os_error :: _ => .error (fail .store_path_invalid
      (lit "The store entry could not be read: " ++ str .os_error))
  | .error e :: _ => .error e
  | .ok chunk :: reads =>
    if chunk = [] then .ok chunks.flatten
    else
      let total := total + chunk.length
      if total > bound then .error (fail .store_artifact_noncanonical
        "The stored file is larger than a receipt may be.")
      else read_bounded str bound (chunks ++ [chunk]) total reads

/-- What the reads give until the file ends, or what one of them raises. -/
def content : List (Except Exn (List UInt8)) → Except Exn (List UInt8)
  | [] => .ok []
  | .error e :: _ => .error e
  | .ok chunk :: reads => if chunk = [] then .ok [] else do pure (chunk ++ (← content reads))

/-- The content does not depend on the pieces that it is read in. -/
theorem content_chunks {chunks : List (List UInt8)} (h : ∀ chunk ∈ chunks, chunk ≠ []) :
    content (chunks.map .ok) = .ok chunks.flatten := by
  induction chunks with
  | nil => rfl
  | cons chunk chunks ih =>
    have hrest := ih fun other hother => h other (List.mem_cons_of_mem _ hother)
    rw [List.map_cons, content, if_neg (h chunk List.mem_cons_self), hrest]
    rfl

section Reading

variable {str : Exn → Str} {bound : Nat} {reads : List (Except Exn (List UInt8))} {raw : List UInt8}

/-- With these chunks read, the rest is read: all of it together, where it is within the bound. -/
theorem read_bounded_eq_ok {chunks : List (List UInt8)} (hchunks : chunks.flatten.length ≤ bound) :
    read_bounded str bound chunks chunks.flatten.length reads = .ok raw ↔
      ∃ rest, content reads = .ok rest ∧ raw = chunks.flatten ++ rest ∧ raw.length ≤ bound := by
  induction reads generalizing chunks with
  | nil =>
    rw [read_bounded, content]
    constructor
    · intro h
      cases h
      exact ⟨[], rfl, (List.append_nil _).symm, hchunks⟩
    · rintro ⟨rest, hrest, rfl, -⟩
      cases hrest
      rw [List.append_nil]
  | cons read reads ih =>
    cases read with
    | error e =>
      have hread : ∃ e', read_bounded str bound chunks chunks.flatten.length (.error e :: reads) =
          .error e' := by
        cases e <;> exact ⟨_, rfl⟩
      obtain ⟨e', hread⟩ := hread
      rw [hread, content]
      constructor
      · intro h
        cases h
      · rintro ⟨rest, hrest, -⟩
        cases hrest
    | ok chunk =>
      rw [read_bounded, content]
      by_cases hend : chunk = []
      · rw [if_pos hend, if_pos hend]
        constructor
        · intro h
          cases h
          exact ⟨[], rfl, (List.append_nil _).symm, hchunks⟩
        · rintro ⟨rest, hrest, rfl, -⟩
          cases hrest
          rw [List.append_nil]
      rw [if_neg hend, if_neg hend]
      dsimp only
      have hflat : (chunks ++ [chunk]).flatten = chunks.flatten ++ chunk := by simp
      by_cases hlong : chunks.flatten.length + chunk.length > bound
      · rw [if_pos hlong]
        constructor
        · intro h
          cases h
        · rintro ⟨rest, hrest, rfl, hlength⟩
          obtain ⟨more, -, hmore⟩ := bind_eq_ok.mp hrest
          cases hmore
          rw [List.length_append, List.length_append] at hlength
          omega
      · have hkept : (chunks ++ [chunk]).flatten.length ≤ bound := by
          rw [hflat, List.length_append]
          omega
        have hstep := ih hkept
        rw [hflat, List.length_append] at hstep
        rw [if_neg hlong, hstep]
        constructor
        · rintro ⟨more, hmore, rfl, hlength⟩
          refine ⟨chunk ++ more, ?_, List.append_assoc _ _ _, hlength⟩
          rw [hmore]
          rfl
        · rintro ⟨rest, hrest, rfl, hlength⟩
          obtain ⟨more, hmore, hpure⟩ := bind_eq_ok.mp hrest
          cases hpure
          exact ⟨more, hmore, (List.append_assoc _ _ _).symm, hlength⟩

/-- Content over the bound is refused, wherever the bound falls among the chunks. -/
theorem read_bounded_oversize {chunks : List (List UInt8)} (hchunks : chunks.flatten.length ≤ bound)
    {rest : List UInt8} (hrest : content reads = .ok rest)
    (hlong : bound < chunks.flatten.length + rest.length) :
    read_bounded str bound chunks chunks.flatten.length reads =
      .error (fail .store_artifact_noncanonical "The stored file is larger than a receipt may be.") := by
  induction reads generalizing chunks rest with
  | nil =>
    cases hrest
    rw [List.length_nil] at hlong
    omega
  | cons read reads ih =>
    cases read with
    | error e => cases hrest
    | ok chunk =>
      rw [content] at hrest
      rw [read_bounded]
      by_cases hend : chunk = []
      · rw [if_pos hend] at hrest
        cases hrest
        rw [List.length_nil] at hlong
        omega
      rw [if_neg hend] at hrest ⊢
      obtain ⟨more, hmore, hpure⟩ := bind_eq_ok.mp hrest
      cases hpure
      rw [List.length_append] at hlong
      dsimp only
      by_cases hover : chunks.flatten.length + chunk.length > bound
      · rw [if_pos hover]
      · have hflat : (chunks ++ [chunk]).flatten = chunks.flatten ++ chunk := by simp
        have hkept : (chunks ++ [chunk]).flatten.length ≤ bound := by
          rw [hflat, List.length_append]
          omega
        have hstep := ih hkept hmore (by
          rw [hflat, List.length_append]
          omega)
        rw [hflat, List.length_append] at hstep
        rw [if_neg hover]
        exact hstep

end Reading

end vfy.store

namespace vfy.runner

/-! ## What is captured is a prefix -/

/-- However two pipes are read, each is captured up to its own limit: the output
that is returned is the start of what was read of the pipe, all of it where it
keeps to the limit, and it is the same whatever the other pipe gives. A stored
file is read whole or refused. -/
theorem bounded_capture_is_prefix :
    (∀ (limits : Stream → Nat) (p : Process) (outcome : Outcome), p.launch limits = some (.ok outcome) →
      (∀ k, outcome.captured k = bytes ((delivered k p.turns).take (limits k)) ∧
        ((delivered k p.turns).length ≤ limits k → outcome.captured k = bytes (delivered k p.turns))) ∧
      (outcome.truncated = true ↔ ∃ k, limits k < (delivered k p.turns).length) ∧
      ∀ (limits' : Stream → Nat) (p' : Process) (outcome' : Outcome),
        p'.launch limits' = some (.ok outcome') → ∀ k, limits k = limits' k →
          delivered k p.turns = delivered k p'.turns → outcome.captured k = outcome'.captured k) ∧
    (∀ (limits : Stream → Nat) (reads : List (Stream × List UInt8)), (∀ read ∈ reads, read.2 ≠ []) →
      ∀ (pid : Int) (waited ended : Option Int), ∃ outcome,
        Process.launch limits ⟨pid, interleaved reads, waited, ended⟩ = some (.ok outcome) ∧
        (∀ k, outcome.captured k = bytes ((written k reads).take (limits k))) ∧
        (outcome.truncated = true ↔ ∃ k, limits k < (written k reads).length)) ∧
    (∀ (str : Exn → Str) (bound : Nat) (reads : List (Except Exn (List UInt8))) (raw : List UInt8),
      (store.read_bounded str bound [] 0 reads = .ok raw ↔
        store.content reads = .ok raw ∧ raw.length ≤ bound) ∧
      (store.content reads = .ok raw → bound < raw.length →
        store.read_bounded str bound [] 0 reads = .error (fail .store_artifact_noncanonical
          "The stored file is larger than a receipt may be."))) := by
  refine ⟨?_, ?_, ?_⟩
  · intro limits p outcome h
    refine ⟨fun k => ⟨captured_eq h k, fun hk => ?_⟩, truncated_iff h, ?_⟩
    · rw [captured_eq h k, List.take_of_length_le hk]
    · intro limits' p' outcome' h' k hlimits hsame
      rw [captured_eq h k, captured_eq h' k, hlimits, hsame]
  · intro limits reads hreads pid waited ended
    obtain ⟨outcome, h⟩ := launch_interleaved limits reads hreads pid waited ended
    refine ⟨outcome, h, fun k => ?_, ?_⟩
    · rw [captured_eq h k, delivered_interleaved]
    · rw [truncated_iff h]
      simp only [delivered_interleaved]
  · intro str bound reads raw
    have hempty : ([] : List (List UInt8)).flatten.length ≤ bound := Nat.zero_le bound
    have hread : store.read_bounded str bound [] 0 reads = .ok raw ↔ ∃ rest, store.content reads = .ok rest ∧
        raw = [] ++ rest ∧ raw.length ≤ bound := store.read_bounded_eq_ok hempty
    constructor
    · rw [hread]
      constructor
      · rintro ⟨rest, hrest, rfl, hlength⟩
        exact ⟨hrest, hlength⟩
      · rintro ⟨hrest, hlength⟩
        exact ⟨raw, hrest, rfl, hlength⟩
    · intro hcontent hlong
      refine store.read_bounded_oversize hempty hcontent ?_
      rw [List.flatten_nil, List.length_nil, Nat.zero_add]
      exact hlong

/-- A process that writes four bytes to one pipe and one to the other, in pieces. -/
def smallProcess : Process where
  pid := 1
  turns := [.ready [(.stdout, .ok [1, 2]), (.stderr, .ok [9])], .ready [],
    .ready [(.stdout, .ok [3, 4])], .ready [(.stderr, .ok []), (.stdout, .ok [])]]
  waited := some 0
  ended := none

theorem bounded_capture_is_prefix_small : ∃ outcome,
    smallProcess.launch (fun _ => 3) = some (.ok outcome) ∧
      outcome.captured .stdout = bytes [1, 2, 3] ∧ outcome.captured .stderr = bytes [9] ∧
      outcome.truncated = true := by
  have hrun : ∃ outcome, smallProcess.launch (fun _ => 3) = some (.ok outcome) := ⟨_, rfl⟩
  obtain ⟨outcome, h⟩ := hrun
  obtain ⟨hcaptured, htruncated, -⟩ := bounded_capture_is_prefix.1 _ _ _ h
  refine ⟨outcome, h, (hcaptured .stdout).1, (hcaptured .stderr).1, ?_⟩
  exact htruncated.mpr ⟨.stdout, by decide⟩

end vfy.runner
