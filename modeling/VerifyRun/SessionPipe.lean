-- The input of an accounting session: frames that end in a newline, read from a
-- pipe in whatever pieces the pipe gives. The limit of a frame is tested on the
-- whole buffer, so the frames do not depend on the pieces only where no piece
-- that ends a frame goes past the limit of that frame.
import VerifyRun.Lib.Lines
import VerifyRun.ChildLedger

namespace vfy.service_accounting_cli

open python keys outcomes child_ledger lines

def MAX_STDIN : Nat := 16 * 1024 * 1024

def NEWLINE : UInt8 := 10

/-! ## The pipe -/

/-- What the next read of the input gives: the deadline is over before there is
anything, the read would block after all, or there are bytes. -/
inductive Read where
  | late
  | blocked
  | bytes (chunk : List UInt8)
deriving DecidableEq

/-- `Pipe`: what is buffered, and what the reads of its input will give. After
them the input ends. -/
structure Pipe where
  pending : List UInt8
  reads : List Read
deriving DecidableEq

/-- The size that a read asks for. -/
def asked (pending : List UInt8) : Nat := min 65536 (MAX_STDIN + 1 - pending.length)

/-- A read gives bytes, and no more than it was asked for. -/
def given (pending chunk : List UInt8) : Prop := chunk ≠ [] ∧ chunk.length ≤ asked pending

instance (pending chunk : List UInt8) : Decidable (given pending chunk) :=
  inferInstanceAs (Decidable (_ ∧ _))

/-- `read`: a frame, and the pipe after it. No read of a system gives `none`. -/
def read_loop (pending : List UInt8) (reads : List Read) : Option (Checked (List UInt8 × Pipe)) :=
  if NEWLINE ∈ pending then
    some (.ok (pending.takeWhile (· ≠ NEWLINE) ++ [NEWLINE],
      { pending := (pending.dropWhile (· ≠ NEWLINE)).tail, reads }))
  else match reads with
    | [] => some (.error (.refused "Session EOF; no retry."))
    | .late :: _ => some (.error (.refused "Session deadline exhausted."))
    | .blocked :: reads => read_loop pending reads
    | .bytes chunk :: reads =>
      if given pending chunk then
        if (pending ++ chunk).length ≤ MAX_STDIN then read_loop (pending ++ chunk) reads
        else some (.error (.refused "Oversized session frame."))
      else none

def Pipe.read (p : Pipe) : Option (Checked (List UInt8 × Pipe)) := read_loop p.pending p.reads

/-- What so many calls of `read` return, and the refusal that ends them. -/
def calls : Nat → Pipe → Option (List (List UInt8) × Option Refusal)
  | 0, _ => some ([], none)
  | n + 1, p =>
    match p.read with
    | none => none
    | some (.error e) => some ([], some e)
    | some (.ok (frame, p)) => (calls n p).map fun s => (frame :: s.1, s.2)

/-! ## The stream -/

/-- The bytes of some reads. -/
def stream (reads : List Read) : List UInt8 := reads.flatMap fun
  | .bytes chunk => chunk
  | _ => []

/-- The refusal at the end of a stream. -/
def refusal : End → Refusal
  | .ended => .refused "Session EOF; no retry."
  | .oversized => .refused "Oversized session frame."

/-- The frames of a stream: it is cut after each newline, and a frame is refused
where it alone exceeds the limit. -/
def frames (n : Nat) (s : List UInt8) : List (List UInt8) × Option Refusal :=
  let (fs, e) := split NEWLINE MAX_STDIN n s
  (fs, e.map refusal)

/-- Over what is buffered and reads to come: for each frame that keeps to the
limit, some read ends after the frame and not past the limit that starts with it. -/
def Aligned (pending : List UInt8) (reads : List Read) : Prop :=
  ∀ before frame after, pending ++ stream reads = before ++ frame ++ after →
    Lines NEWLINE MAX_STDIN before → Line NEWLINE MAX_STDIN frame →
    ∃ first, first <+: reads ∧
      before.length + frame.length ≤ pending.length + (stream first).length ∧
      pending.length + (stream first).length ≤ before.length + MAX_STDIN

/-! ## One read -/

@[simp] theorem stream_nil : stream [] = [] := rfl

@[simp] theorem stream_bytes (chunk : List UInt8) (reads : List Read) :
    stream (.bytes chunk :: reads) = chunk ++ stream reads := rfl

/-- One round of the loop. -/
theorem read_loop_eq (pending : List UInt8) (reads : List Read) : read_loop pending reads =
    if NEWLINE ∈ pending then
      some (.ok (pending.takeWhile (· ≠ NEWLINE) ++ [NEWLINE],
        { pending := (pending.dropWhile (· ≠ NEWLINE)).tail, reads }))
    else match reads with
      | [] => some (.error (.refused "Session EOF; no retry."))
      | .late :: _ => some (.error (.refused "Session deadline exhausted."))
      | .blocked :: reads => read_loop pending reads
      | .bytes chunk :: reads =>
        if given pending chunk then
          if (pending ++ chunk).length ≤ MAX_STDIN then read_loop (pending ++ chunk) reads
          else some (.error (.refused "Oversized session frame."))
        else none := by
  cases reads with
  | nil => rfl
  | cons r reads => cases r <;> rfl

theorem read_loop_frame {l t : List UInt8} (reads : List Read) (h : NEWLINE ∉ l) :
    read_loop (l ++ NEWLINE :: t) reads =
      some (.ok (l ++ [NEWLINE], { pending := t, reads })) := by
  rw [read_loop_eq]
  rw [if_pos (by simp), takeWhile_line h, dropWhile_line h]
  rfl

theorem read_loop_end {pending : List UInt8} (h : NEWLINE ∉ pending) :
    read_loop pending [] = some (.error (.refused "Session EOF; no retry.")) := by
  rw [read_loop_eq]
  rw [if_neg h]

theorem read_loop_blocked {pending : List UInt8} (reads : List Read) (h : NEWLINE ∉ pending) :
    read_loop pending (.blocked :: reads) = read_loop pending reads := by
  rw [read_loop_eq]
  rw [if_neg h]

theorem read_loop_bytes {pending chunk : List UInt8} {reads : List Read} (h : NEWLINE ∉ pending)
    (hgiven : given pending chunk) (hlen : (pending ++ chunk).length ≤ MAX_STDIN) :
    read_loop pending (.bytes chunk :: reads) = read_loop (pending ++ chunk) reads := by
  rw [read_loop_eq]
  rw [if_neg h]
  simp only [if_pos hgiven, if_pos hlen]

theorem read_loop_oversized {pending chunk : List UInt8} {reads : List Read}
    (h : NEWLINE ∉ pending) (hgiven : given pending chunk)
    (hlen : ¬ (pending ++ chunk).length ≤ MAX_STDIN) :
    read_loop pending (.bytes chunk :: reads) =
      some (.error (.refused "Oversized session frame.")) := by
  rw [read_loop_eq]
  rw [if_neg h]
  simp only [if_pos hgiven, if_neg hlen]

theorem read_loop_not_given {pending chunk : List UInt8} {reads : List Read}
    (h : NEWLINE ∉ pending) (hgiven : ¬ given pending chunk) :
    read_loop pending (.bytes chunk :: reads) = none := by
  rw [read_loop_eq]
  rw [if_neg h]
  simp only [if_neg hgiven]

/-! ## Repeated reads -/

/-- Two pipes whose next call does the same go on in the same way. -/
theorem calls_congr {p q : Pipe} (h : p.read = q.read) (n : Nat) : calls n p = calls n q := by
  cases n with
  | zero => rfl
  | succ n => simp only [calls, h]

theorem calls_frame {l t : List UInt8} (reads : List Read) (n : Nat) (h : NEWLINE ∉ l) :
    calls (n + 1) ⟨l ++ NEWLINE :: t, reads⟩ =
      (calls n ⟨t, reads⟩).map fun s => ((l ++ [NEWLINE]) :: s.1, s.2) := by
  simp only [calls, Pipe.read, read_loop_frame reads h]

theorem calls_error {pending : List UInt8} {reads : List Read} {e : Refusal}
    (h : read_loop pending reads = some (.error e)) (n : Nat) :
    calls (n + 1) ⟨pending, reads⟩ = some ([], some e) := by
  simp only [calls, Pipe.read, h]

/-- However often `read` is called, the system gives what it can give. -/
def Possible (p : Pipe) : Prop := ∀ n, (calls n p).isSome

theorem frames_line {l t : List UInt8} (n : Nat) (h : NEWLINE ∉ l) (hlen : l.length + 1 ≤ MAX_STDIN) :
    frames (n + 1) (l ++ NEWLINE :: t) = ((l ++ [NEWLINE]) :: (frames n t).1, (frames n t).2) := by
  simp only [frames, split_line n h hlen]

/-! ## Alignment, read by read -/

theorem Aligned.ended {pending : List UInt8} (h : NEWLINE ∉ pending) : Aligned pending [] := by
  intro before frame after heq _ hframe
  have hmem : NEWLINE ∈ pending ++ stream [] := by
    rw [heq]
    simp [hframe.mem]
  simp only [stream_nil, List.append_nil] at hmem
  exact absurd hmem h

theorem aligned_blocked {pending : List UInt8} {reads : List Read} :
    Aligned pending (.blocked :: reads) ↔ Aligned pending reads := by
  constructor
  · intro h before frame after heq hbefore hframe
    obtain ⟨first, hfirst, hlow, hhigh⟩ := h before frame after heq hbefore hframe
    rcases List.prefix_cons_iff.mp hfirst with rfl | ⟨rest, rfl, hrest⟩
    · exact ⟨[], List.nil_prefix, hlow, hhigh⟩
    · exact ⟨rest, hrest, hlow, hhigh⟩
  · intro h before frame after heq hbefore hframe
    obtain ⟨first, hfirst, hlow, hhigh⟩ := h before frame after heq hbefore hframe
    exact ⟨.blocked :: first, (List.prefix_cons_inj _).mpr hfirst, hlow, hhigh⟩

/-- No frame is over before a read that finds no newline in the buffer. -/
theorem pending_lt {pending s before frame after : List UInt8} (h : NEWLINE ∉ pending)
    (heq : pending ++ s = before ++ frame ++ after) (hframe : Line NEWLINE MAX_STDIN frame) :
    pending.length < before.length + frame.length := by
  by_contra hle
  apply h
  have hpre : before ++ frame <+: pending := by
    refine @List.prefix_of_prefix_length_le _ _ _ (pending ++ s) ?_ ?_ ?_
    · rw [heq]
      exact List.prefix_append _ _
    · exact List.prefix_append _ _
    · simp only [List.length_append]
      omega
  exact hpre.subset (by simp [hframe.mem])

theorem aligned_bytes {pending chunk : List UInt8} {reads : List Read} (h : NEWLINE ∉ pending) :
    Aligned pending (.bytes chunk :: reads) ↔ Aligned (pending ++ chunk) reads := by
  constructor
  · intro hal before frame after heq hbefore hframe
    have heq' : pending ++ stream (.bytes chunk :: reads) = before ++ frame ++ after := by
      rw [stream_bytes, ← heq, List.append_assoc]
    have hlt := pending_lt h heq' hframe
    obtain ⟨first, hfirst, hlow, hhigh⟩ := hal before frame after heq' hbefore hframe
    rcases List.prefix_cons_iff.mp hfirst with rfl | ⟨rest, rfl, hrest⟩
    · simp only [stream_nil, List.length_nil] at hlow
      omega
    · simp only [stream_bytes, List.length_append] at hlow hhigh
      refine ⟨rest, hrest, ?_, ?_⟩ <;> simp only [List.length_append] <;> omega
  · intro hal before frame after heq hbefore hframe
    rw [stream_bytes, ← List.append_assoc] at heq
    obtain ⟨first, hfirst, hlow, hhigh⟩ := hal before frame after heq hbefore hframe
    refine ⟨.bytes chunk :: first, (List.prefix_cons_inj _).mpr hfirst, ?_, ?_⟩ <;>
      simp only [stream_bytes, List.length_append] at hlow hhigh ⊢ <;> omega

/-- A frame that is buffered with no more than the limit is aligned; what counts
is what comes after it. -/
theorem aligned_frame {f t : List UInt8} {reads : List Read} (hf : Line NEWLINE MAX_STDIN f)
    (hlen : (f ++ t).length ≤ MAX_STDIN) : Aligned (f ++ t) reads ↔ Aligned t reads := by
  rw [List.length_append] at hlen
  constructor
  · intro hal before frame after heq hbefore hframe
    have heq' : f ++ t ++ stream reads = f ++ before ++ frame ++ after := by
      simp only [List.append_assoc] at heq ⊢
      rw [heq]
    obtain ⟨first, hfirst, hlow, hhigh⟩ := hal (f ++ before) frame after heq' (.cons hf hbefore) hframe
    simp only [List.length_append] at hlow hhigh
    exact ⟨first, hfirst, by omega, by omega⟩
  · intro hal before frame after heq hbefore hframe
    rcases hbefore.cases with rfl | ⟨g, rest, rfl, hg, hlines⟩
    · -- the first frame is the one that is buffered
      simp only [List.nil_append, List.append_assoc] at heq
      obtain ⟨rfl, -⟩ := hf.unique hframe heq
      refine ⟨[], List.nil_prefix, ?_, ?_⟩ <;>
        simp only [stream_nil, List.length_nil, List.length_append] <;> omega
    · simp only [List.append_assoc] at heq
      obtain ⟨rfl, hrest⟩ := hf.unique hg heq
      obtain ⟨first, hfirst, hlow, hhigh⟩ :=
        hal rest frame after (by rw [hrest, List.append_assoc]) hlines hframe
      refine ⟨first, hfirst, ?_, ?_⟩ <;> simp only [List.length_append] <;> omega

/-! ## The frames of a session -/

/-- Repeated calls return the frames of the stream. -/
def Agrees (p : Pipe) : Prop := ∀ n, calls n p = some (frames n (p.pending ++ stream p.reads))

theorem agrees_ended {pending : List UInt8} (h : NEWLINE ∉ pending)
    (hlen : pending.length ≤ MAX_STDIN) : Agrees ⟨pending, []⟩ := by
  intro n
  cases n with
  | zero => rfl
  | succ n =>
    rw [calls_error (read_loop_end h) n]
    simp only [frames, stream_nil, List.append_nil, split_rest n h, if_pos hlen]
    rfl

/-- A call that goes on as another one agrees with the stream where that one does. -/
theorem agrees_congr {p q : Pipe} (hread : p.read = q.read)
    (hstream : p.pending ++ stream p.reads = q.pending ++ stream q.reads) :
    Agrees p ↔ Agrees q := by
  unfold Agrees
  simp only [calls_congr hread, hstream]

theorem agrees_frame {l t : List UInt8} {reads : List Read} (h : NEWLINE ∉ l)
    (hlen : l.length + 1 ≤ MAX_STDIN) : Agrees ⟨l ++ NEWLINE :: t, reads⟩ ↔ Agrees ⟨t, reads⟩ := by
  have hframes : ∀ n, frames (n + 1) (l ++ NEWLINE :: t ++ stream reads) =
      ((l ++ [NEWLINE]) :: (frames n (t ++ stream reads)).1, (frames n (t ++ stream reads)).2) := by
    intro n
    rw [List.append_assoc, List.cons_append]
    exact frames_line n h hlen
  constructor
  · intro hall n
    have hnext := hall (n + 1)
    rw [calls_frame reads n h, hframes n, Option.map_eq_some_iff] at hnext
    obtain ⟨s, hs, heq⟩ := hnext
    rw [hs]
    simp only [Prod.mk.injEq, List.cons.injEq, true_and] at heq
    exact congrArg some (Prod.ext heq.1 heq.2)
  · intro hall n
    cases n with
    | zero => rfl
    | succ n =>
      rw [calls_frame reads n h, hall n, hframes n]
      rfl

/-- A read that goes past the limit is refused. This is what the stream says just
where the frame itself exceeds the limit, and then no frame is left to align. -/
theorem agrees_oversized {pending chunk : List UInt8} {reads : List Read}
    (h : NEWLINE ∉ pending) (hgiven : given pending chunk)
    (hlen : ¬ (pending ++ chunk).length ≤ MAX_STDIN) :
    Agrees ⟨pending, .bytes chunk :: reads⟩ ↔ Aligned pending (.bytes chunk :: reads) := by
  have hcalls : ∀ n, calls (n + 1) ⟨pending, .bytes chunk :: reads⟩ =
      some ([], some (refusal .oversized)) := calls_error (read_loop_oversized h hgiven hlen)
  rw [List.length_append] at hlen
  by_cases hshort : ∃ f s, Line NEWLINE MAX_STDIN f ∧ pending ++ (chunk ++ stream reads) = f ++ s
  · -- the first frame keeps to the limit, and the read that ends it does not
    obtain ⟨f, s, hf, hs⟩ := hshort
    constructor
    · intro hagrees
      have h1 := hagrees 1
      obtain ⟨l, rfl, hl, hlimit⟩ := hf
      simp only [List.length_append, List.length_singleton] at hlimit
      rw [hcalls 0, stream_bytes, hs, List.append_assoc, List.singleton_append,
        frames_line 0 hl hlimit] at h1
      simp at h1
    · intro hal
      have heq : pending ++ stream (.bytes chunk :: reads) = [] ++ f ++ s := hs
      have hlt := pending_lt h heq hf
      obtain ⟨first, hfirst, hlow, hhigh⟩ := hal [] f s heq .nil hf
      rcases List.prefix_cons_iff.mp hfirst with rfl | ⟨first, rfl, -⟩
      · simp only [stream_nil, List.length_nil] at hlow hlt
        omega
      · simp only [stream_bytes, List.length_append, List.length_nil] at hhigh
        omega
  · -- no frame at the start of the stream keeps to the limit
    constructor
    · intro _ before frame after heq hbefore hframe
      refine absurd ?_ hshort
      rcases hbefore.cases with rfl | ⟨f, rest, rfl, hf, -⟩
      · exact ⟨frame, after, hframe, by simpa using heq⟩
      · exact ⟨f, rest ++ frame ++ after, hf, by simpa using heq⟩
    · intro _ n
      cases n with
      | zero => rfl
      | succ n =>
        rw [hcalls n, stream_bytes]
        by_cases hmem : NEWLINE ∈ pending ++ (chunk ++ stream reads)
        · obtain ⟨l, t, heq, hl⟩ := List.eq_append_cons_of_mem hmem
          have hlong : ¬ l.length + 1 ≤ MAX_STDIN := by
            intro hle
            apply hshort
            exact ⟨l ++ [NEWLINE], t, ⟨l, rfl, hl, by simpa using hle⟩, by simpa using heq⟩
          simp only [heq, frames, split_long n hl hlong]
          rfl
        · have hlong : ¬ (pending ++ (chunk ++ stream reads)).length ≤ MAX_STDIN := by
            simp only [List.length_append]
            omega
          simp only [frames, split_rest n hmem, if_neg hlong]
          rfl

theorem possible_error {pending : List UInt8} {reads : List Read} {e : Refusal}
    (h : read_loop pending reads = some (.error e)) : Possible ⟨pending, reads⟩ := by
  intro n
  cases n with
  | zero => rfl
  | succ n =>
    rw [calls_error h n]
    rfl

theorem possible_frame {l t : List UInt8} {reads : List Read} (h : NEWLINE ∉ l)
    (hp : Possible ⟨t, reads⟩) : Possible ⟨l ++ NEWLINE :: t, reads⟩ := by
  intro n
  cases n with
  | zero => rfl
  | succ n =>
    rw [calls_frame reads n h, Option.isSome_map]
    exact hp n

theorem Possible.of_read {p q : Pipe} (h : Possible p) (hread : p.read = q.read) : Possible q := by
  intro n
  rw [← calls_congr hread n]
  exact h n

theorem Possible.frame {l t : List UInt8} {reads : List Read} (h : NEWLINE ∉ l)
    (hp : Possible ⟨l ++ NEWLINE :: t, reads⟩) : Possible ⟨t, reads⟩ := by
  intro n
  have hnext := hp (n + 1)
  rw [calls_frame reads n h, Option.isSome_map] at hnext
  exact hnext

/-- The frames that are buffered leave the buffer one by one. -/
theorem agrees_iff_of_tail {reads : List Read}
    (hno : ∀ pending, NEWLINE ∉ pending → pending.length ≤ MAX_STDIN → Possible ⟨pending, reads⟩ →
      (Agrees ⟨pending, reads⟩ ↔ Aligned pending reads)) (k : Nat) :
    ∀ pending : List UInt8, pending.length ≤ k → pending.length ≤ MAX_STDIN →
      Possible ⟨pending, reads⟩ → (Agrees ⟨pending, reads⟩ ↔ Aligned pending reads) := by
  induction k with
  | zero =>
    intro pending hk hlen hp
    have hnil : pending = [] := List.length_eq_zero_iff.mp (by omega)
    subst hnil
    exact hno [] (by simp) hlen hp
  | succ k ih =>
    intro pending hk hlen hp
    by_cases hmem : NEWLINE ∈ pending
    · obtain ⟨l, t, rfl, hl⟩ := List.eq_append_cons_of_mem hmem
      simp only [List.length_append, List.length_cons] at hk hlen
      have hline : Line NEWLINE MAX_STDIN (l ++ [NEWLINE]) := ⟨l, rfl, hl, by simp; omega⟩
      have hal : Aligned (l ++ NEWLINE :: t) reads ↔ Aligned t reads := by
        rw [show l ++ NEWLINE :: t = l ++ [NEWLINE] ++ t by simp]
        exact aligned_frame hline (by simp; omega)
      rw [agrees_frame hl (by omega), hal]
      exact ih t (by omega) (by omega) (hp.frame hl)
    · exact hno pending hmem hlen hp

theorem agrees_iff_aligned (reads : List Read) : ∀ pending : List UInt8, Read.late ∉ reads →
    pending.length ≤ MAX_STDIN → Possible ⟨pending, reads⟩ →
    (Agrees ⟨pending, reads⟩ ↔ Aligned pending reads) := by
  induction reads with
  | nil =>
    intro pending _ hlen hp
    refine agrees_iff_of_tail ?_ pending.length pending le_rfl hlen hp
    intro pending h hlen _
    exact iff_of_true (agrees_ended h hlen) (.ended h)
  | cons r reads ih =>
    intro pending hlate hlen hp
    refine agrees_iff_of_tail ?_ pending.length pending le_rfl hlen hp
    intro pending h hlen hp
    have hlate' : Read.late ∉ reads := fun hmem => hlate (by simp [hmem])
    cases r with
    | late => simp at hlate
    | blocked =>
      have hread : Pipe.read ⟨pending, .blocked :: reads⟩ = Pipe.read ⟨pending, reads⟩ :=
        read_loop_blocked reads h
      rw [agrees_congr hread rfl, aligned_blocked]
      exact ih pending hlate' hlen (hp.of_read hread)
    | bytes chunk =>
      by_cases hgiven : given pending chunk
      · by_cases hroom : (pending ++ chunk).length ≤ MAX_STDIN
        · have hread : Pipe.read ⟨pending, .bytes chunk :: reads⟩ =
              Pipe.read ⟨pending ++ chunk, reads⟩ := read_loop_bytes h hgiven hroom
          rw [agrees_congr hread (by simp), aligned_bytes h]
          exact ih _ hlate' hroom (hp.of_read hread)
        · exact agrees_oversized h hgiven hroom
      · have hnone := hp 1
        simp only [calls, Pipe.read, read_loop_not_given h hgiven] at hnone
        cases hnone

/-- While the deadline is not reached, repeated calls return the frames of the
stream, and end as the stream ends, just where the reads are aligned with the frames. -/
theorem frames_are_of_the_stream_iff (reads : List Read) (hlate : Read.late ∉ reads)
    (hp : Possible ⟨[], reads⟩) :
    (∀ n, calls n ⟨[], reads⟩ = some (frames n (stream reads))) ↔ Aligned [] reads :=
  agrees_iff_aligned reads [] hlate (Nat.zero_le _) hp

/-- A frame that two reads give, and one that comes with its end. -/
theorem frames_are_of_two_reads :
    calls 3 ⟨[], [.bytes [97], .bytes [98, NEWLINE, 99, NEWLINE]]⟩ =
      some (frames 3 [97, 98, NEWLINE, 99, NEWLINE]) := by
  have hfirst : read_loop [] [.bytes [97], .bytes [98, NEWLINE, 99, NEWLINE]] =
      read_loop ([] ++ [97]) [.bytes [98, NEWLINE, 99, NEWLINE]] :=
    read_loop_bytes (by decide) (by decide) (by decide)
  have hsecond : read_loop [97] [.bytes [98, NEWLINE, 99, NEWLINE]] =
      read_loop ([97] ++ [98, NEWLINE, 99, NEWLINE]) [] :=
    read_loop_bytes (by decide) (by decide) (by decide)
  have hread : Pipe.read ⟨[97, 98, NEWLINE, 99, NEWLINE], []⟩ =
      Pipe.read ⟨[], [.bytes [97], .bytes [98, NEWLINE, 99, NEWLINE]]⟩ :=
    (hfirst.trans hsecond).symm
  have hrest : Possible ⟨[99, NEWLINE], []⟩ :=
    possible_frame (l := [99]) (by decide) (possible_error (read_loop_end (by decide)))
  have hp : Possible ⟨[], [.bytes [97], .bytes [98, NEWLINE, 99, NEWLINE]]⟩ :=
    (possible_frame (l := [97, 98]) (by decide) hrest).of_read hread
  have haligned : Aligned [] [.bytes [97], .bytes [98, NEWLINE, 99, NEWLINE]] := by
    rw [aligned_bytes (by decide), aligned_bytes (by decide)]
    apply (aligned_frame (f := [97, 98, NEWLINE]) (t := [99, NEWLINE]) ⟨[97, 98], rfl, by decide, by decide⟩
      (by decide)).mpr
    apply (aligned_frame (f := [99, NEWLINE]) (t := []) ⟨[99], rfl, by decide, by decide⟩ (by decide)).mpr
    exact .ended (by decide)
  exact (frames_are_of_the_stream_iff [.bytes [97], .bytes [98, NEWLINE, 99, NEWLINE]] (by decide) hp).mpr
    haligned 3

/-! ## A frame at the limit -/

/-- One byte of a long frame at a time. -/
def letters (n : Nat) : List Read := List.replicate n (.bytes [97])

theorem late_not_mem_letters (n : Nat) : Read.late ∉ letters n := by
  intro h
  cases List.eq_of_mem_replicate h

theorem newline_not_mem (n : Nat) : NEWLINE ∉ List.replicate n (97 : UInt8) := by
  intro h
  cases List.eq_of_mem_replicate h

theorem stream_append (first rest : List Read) :
    stream (first ++ rest) = stream first ++ stream rest := List.flatMap_append

/-- The letters of a frame that keeps to the limit are buffered. -/
theorem read_loop_letters (k : Nat) (reads : List Read) : ∀ j, j + k ≤ MAX_STDIN →
    read_loop (List.replicate j 97) (letters k ++ reads) =
      read_loop (List.replicate (j + k) 97) reads := by
  induction k with
  | zero => intro j _; rfl
  | succ k ih =>
    intro j hj
    have hgiven : given (List.replicate j 97) [97] := by
      refine ⟨by simp, ?_⟩
      simp only [asked, List.length_replicate, List.length_singleton]
      omega
    have happend : List.replicate j (97 : UInt8) ++ [97] = List.replicate (j + 1) 97 :=
      List.replicate_succ'.symm
    rw [letters, List.replicate_succ, ← letters, List.cons_append,
      read_loop_bytes (newline_not_mem j) hgiven (by simp; omega), happend, ih (j + 1) (by omega)]
    congr 2
    omega

/-- The newline, and the byte after it, in one read. -/
def together (k : Nat) : List Read := letters k ++ [.bytes [NEWLINE, 97]]

/-- The newline, and the byte after it, in two reads. -/
def apart (k : Nat) : List Read := letters k ++ [.bytes [NEWLINE], .bytes [97]]

theorem stream_together (k : Nat) : stream (together k) = stream (apart k) := by
  rw [together, apart, stream_append, stream_append]
  rfl

theorem late_not_mem (k : Nat) : Read.late ∉ together k ∧ Read.late ∉ apart k := by
  simp [together, apart, late_not_mem_letters]

section Longest

variable {k : Nat} (hk : k + 1 = MAX_STDIN)

include hk

theorem given_last {chunk : List UInt8} (hne : chunk ≠ []) (hlen : chunk.length ≤ 2) :
    given (List.replicate k 97) chunk := by
  refine ⟨hne, ?_⟩
  simp only [asked, List.length_replicate]
  have hpos : 2 ≤ 65536 := by decide
  omega

theorem read_together : read_loop [] (together k) = some (.error (refusal .oversized)) := by
  have hletters := read_loop_letters k [.bytes [NEWLINE, 97]] 0 (by omega)
  rw [Nat.zero_add] at hletters
  apply hletters.trans
  apply read_loop_oversized (newline_not_mem k) (given_last hk (by simp) (by simp))
  simp only [List.length_append, List.length_replicate, List.length_cons, List.length_nil]
  omega

theorem read_apart : Pipe.read ⟨List.replicate k 97 ++ [NEWLINE], [.bytes [97]]⟩ =
    Pipe.read ⟨[], apart k⟩ := by
  have hletters := read_loop_letters k [.bytes [NEWLINE], .bytes [97]] 0 (by omega)
  rw [Nat.zero_add] at hletters
  apply Eq.symm
  apply hletters.trans
  apply read_loop_bytes (newline_not_mem k) (given_last hk (by simp) (by simp))
  simp only [List.length_append, List.length_replicate, List.length_singleton]
  omega

theorem possible_apart : Possible ⟨[], apart k⟩ := by
  have hrest : read_loop [] [.bytes [97]] = some (.error (refusal .ended)) :=
    (read_loop_bytes (by decide) (by decide) (by decide)).trans (read_loop_end (by decide))
  exact (possible_frame (newline_not_mem k) (possible_error hrest)).of_read (read_apart hk)

theorem calls_apart :
    calls 1 ⟨[], apart k⟩ = some ([List.replicate k 97 ++ [NEWLINE]], none) := by
  rw [← calls_congr (read_apart hk) 1, calls_frame _ 0 (newline_not_mem k)]
  rfl

end Longest

/-- A frame that just keeps to the limit is returned where its newline is read
alone, and refused where the newline is read with the byte after it. -/
theorem pieces_change_the_frames : ∃ k, k + 1 = MAX_STDIN ∧ stream (together k) = stream (apart k) ∧
    (Read.late ∉ together k ∧ Read.late ∉ apart k) ∧
    (Possible ⟨[], together k⟩ ∧ Possible ⟨[], apart k⟩) ∧
    calls 1 ⟨[], together k⟩ = some ([], some (refusal .oversized)) ∧
    calls 1 ⟨[], apart k⟩ = some ([List.replicate k 97 ++ [NEWLINE]], none) := by
  have hk : 16777215 + 1 = MAX_STDIN := by decide
  exact ⟨16777215, hk, stream_together _, late_not_mem _,
    ⟨possible_error (read_together hk), possible_apart hk⟩,
    calls_error (read_together hk) 0, calls_apart hk⟩

end vfy.service_accounting_cli
