-- Any number of calls of the runner over one store and any intents. A call
-- verifies, validates its handoff, claims the intent, spends the nonce and
-- launches, each in a step of its own, and may stop after any of them.
import VerifyRun.Lib.Exclusive
import VerifyRun.Runner

namespace vfy.store

open python outcomes

/-- `_nonce_digest`. -/
def nonce_digest (nonce : Str) : Except Exn Text :=
  match toText? nonce with
  | some t => .ok (canon.sha256_hexdigest (String.ofList t).toByteArray)
  | none => .error .value_error

/-- The record of a spent authorization, and the name that it is kept under. -/
def consumption (authorization : authorization.FrozenAuthorization) : Except Exn (Text × Value) := do
  let value ← authorization.value
  let nonce ← getItem value "nonce"
  let name ← nonce_digest (← string nonce)
  let authorization_id ← getItem value "authorization_id"
  let action_digest ← getItem value "action_digest"
  let rulebook_digest ← getItem value "rulebook_digest"
  let evidence_digest ← getItem value "evidence_digest"
  pure (name, .dict [("nonce", nonce), ("authorization_id", authorization_id),
    ("action_digest", action_digest), ("rulebook_digest", rulebook_digest),
    ("evidence_digest", evidence_digest)])

end vfy.store

namespace vfy.runner

open python keys outcomes authorization custody exclusive

/-! ## The world of the calls -/

/-- A process that was started: by which call, with what, and under which custody. -/
structure Launch (ι : Type) where
  call : ι
  argv : List Str
  environment : List (Str × Str)
  custody : Option Handoff

/-- How far a call is. -/
inductive Point where
  | called
  | checked (m : Mandate)
  | guarded (m : Mandate)
  | created (m : Mandate) (handoff : Handoff)
  | written (m : Mandate) (handoff : Handoff) (body : Value)
  | ready (m : Mandate)
  | spent (m : Mandate)
  | started (m : Mandate) (pid : Int)
  | unstarted (m : Mandate)
  | closing (handoff : Handoff) (body : Value)
  | closed (handoff : Handoff) (body : Value)
  | finished

/-- The claims and terminal records beside the intents, the records of spent
nonces, what was launched, and how far each call is. -/
structure World (κ ι : Type) where
  files : exclusive.Directory κ ι Value
  consumed : Text → Option (ι × Value)
  launches : List (Launch ι)
  point : ι → Point

/-- What a loss of power leaves of a file that is not durable. -/
inductive Left where
  | kept
  | gone
  | torn

/-- What happens next. The operating system answers a check with whatever it
finds, so an act brings the answers along. -/
inductive Act (κ ι : Type) where
  | check (i : ι) (cwd : Directory)
  | guard (i : ι) (os : Os)
  | claim (i : ι)
  | write_claim (i : ι)
  | sync_claim (i : ι)
  | consume (i : ι)
  | launch (i : ι) (pid : Option Int)
  | observe (i : ι) (code : Option Int)
  | write_terminal (i : ι)
  | sync_terminal (i : ι)
  | stop (i : ι)
  | power_loss (left : κ → Left) (lost : Text → Bool)

/-- The world before any call. -/
def World.initial (κ ι : Type) : World κ ι where
  files _ := none
  consumed _ := none
  launches := []
  point _ := .called

section Steps

variable {κ ι : Type} [DecidableEq κ] [DecidableEq ι]

/-- A call goes on to a point. -/
def World.move (w : World κ ι) (i : ι) (p : Point) : World κ ι :=
  { w with point := Function.update w.point i p }

/-- Where a call is after a loss of power: one that has begun is over. -/
def Point.interrupted : Point → Point
  | .called => .called
  | _ => .finished

/-- What is left of a file when the power is lost. -/
def remnant (left : Left) : Option (Entry ι Value) → Option (Entry ι Value)
  | none => none
  | some e =>
    if e.durable then some e
    else match left with
      | .kept => some e
      | .gone => none
      | .torn => some { e with content := none }

/-- Calls with their arguments, over one store. `place` says which entry of
which directory a path names: two spellings of one path name one entry. -/
structure System (κ ι : Type) where
  host : Host
  repr : Value → Str
  place : Str → κ
  call : ι → Call

variable (S : System κ ι)

/-- The nonce has a record. -/
def World.is_consumed (w : World κ ι) (nonce : Str) : Bool :=
  match store.nonce_digest nonce with
  | .ok name => (w.consumed name).isSome
  | .error _ => false

/-- `Handoff.claim`, up to the exclusive creation of the file. A call with no
custody has nothing to claim. -/
def World.claim (w : World κ ι) (i : ι) (m : Mandate) : World κ ι :=
  match (S.call i).custody with
  | none => w.move i (.ready m)
  | some handoff =>
    match w.files (S.place handoff.claimed_path) with
    | some _ => w.move i .finished
    | none => { w.move i (.created m handoff) with
        files := create w.files (S.place handoff.claimed_path) i }

/-- `consume_once`: the link to the record is there for one call only. -/
def World.consume (w : World κ ι) (i : ι) (m : Mandate) : World κ ι :=
  match store.consumption m.verified with
  | .error _ => w.move i .finished
  | .ok (name, record) =>
    match w.consumed name with
    | some _ => w.move i .finished
    | none => { w.move i (.spent m) with
        consumed := Function.update w.consumed name (some (i, record)) }

/-- `_launch`, up to the process: a pid, or an `OSError`. Where `Popen` raises
anything else, the call stops. -/
def World.launch (w : World κ ι) (i : ι) (m : Mandate) (pid : Option Int) : World κ ι :=
  match launch_environment (S.call i) m, pid with
  | .error _, _ => w.move i .finished
  | .ok _, none => w.move i (.unstarted m)
  | .ok environment, some pid => { w.move i (.started m pid) with
      launches := w.launches ++ [⟨i, m.argv, environment, (S.call i).custody⟩] }

/-- `Handoff.terminal`, up to the exclusive creation of the file. A record that
cannot be written is let go. -/
def World.terminal (w : World κ ι) (i : ι) (body : Handoff → Except Exn Value) : World κ ι :=
  match (S.call i).custody with
  | none => w.move i .finished
  | some handoff =>
    match body handoff, w.files (S.place handoff.terminal_path) with
    | .ok body, none => { w.move i (.closing handoff body) with
        files := create w.files (S.place handoff.terminal_path) i }
    | _, _ => w.move i .finished

/-- One step of the system. An act that is not due changes nothing. -/
def World.step (w : World κ ι) : Act κ ι → World κ ι
  | .check i cwd =>
    match w.point i with
    | .called =>
      match check_call S.host S.repr cwd w.is_consumed (S.call i) with
      | .ok m => w.move i (.checked m)
      | .error _ => w.move i .finished
    | _ => w
  | .guard i os =>
    match w.point i with
    | .checked m =>
      match check_custody os (S.call i) m with
      | .ok () => w.move i (.guarded m)
      | .error _ => w.move i .finished
    | _ => w
  | .claim i =>
    match w.point i with
    | .guarded m => w.claim S i m
    | _ => w
  | .write_claim i =>
    match w.point i with
    | .created m handoff =>
      match handoff.claim_body m.verified.authorization_id with
      | .ok body => { w.move i (.written m handoff body) with
          files := write w.files (S.place handoff.claimed_path) i body }
      | .error _ => w.move i .finished
    | _ => w
  | .sync_claim i =>
    match w.point i with
    | .written m handoff body => { w.move i (.ready m) with
        files := sync w.files (S.place handoff.claimed_path) i body }
    | _ => w
  | .consume i =>
    match w.point i with
    | .ready m => w.consume i m
    | _ => w
  | .launch i pid =>
    match w.point i with
    | .spent m => w.launch S i m pid
    | _ => w
  | .observe i code =>
    match w.point i with
    | .started _ pid =>
      match code with
      | none => w.move i .finished
      | some code => w.terminal S i fun handoff => handoff.terminal_body (some code) false (some pid)
    | .unstarted _ => w.terminal S i fun handoff => handoff.terminal_body none true none
    | _ => w
  | .write_terminal i =>
    match w.point i with
    | .closing handoff body => { w.move i (.closed handoff body) with
        files := write w.files (S.place handoff.terminal_path) i body }
    | _ => w
  | .sync_terminal i =>
    match w.point i with
    | .closed handoff body => { w.move i .finished with
        files := sync w.files (S.place handoff.terminal_path) i body }
    | _ => w
  | .stop i => w.move i .finished
  | .power_loss left lost =>
    { files := fun k => remnant (left k) (w.files k)
      consumed := fun name => if lost name then none else w.consumed name
      launches := w.launches
      point := fun i => (w.point i).interrupted }

/-- The world after a run. -/
def World.run (w : World κ ι) (acts : List (Act κ ι)) : World κ ι := acts.foldl (World.step S) w

/-! ## What a call knows -/

variable {S}

/-- The call has its checks behind it. -/
structure Cleared (S : System κ ι) (i : ι) (m : Mandate) : Prop where
  argv : executable_argv S.repr (S.call i).candidate = .ok m.argv
  fits : Fits (S.call i)

/-- The claim of the intent of this call is on the disk for good. -/
def Claimed (S : System κ ι) (files : exclusive.Directory κ ι Value) (i : ι) : Prop :=
  ∀ handoff, (S.call i).custody = some handoff → ∃ authorization_id body,
    handoff.claim_body authorization_id = .ok body ∧
      Holds files (S.place handoff.claimed_path) i (some body) true

/-- This call has launched. -/
def Launched (launches : List (Launch ι)) (i : ι) : Prop := ∃ l ∈ launches, l.call = i

/-- What a call knows at a point. -/
def Knows (S : System κ ι) (files : exclusive.Directory κ ι Value) (launches : List (Launch ι))
    (i : ι) : Point → Prop
  | .called | .finished => True
  | .checked m => executable_argv S.repr (S.call i).candidate = .ok m.argv
  | .guarded m => Cleared S i m
  | .created m handoff => Cleared S i m ∧ (S.call i).custody = some handoff ∧
      Holds files (S.place handoff.claimed_path) i none false
  | .written m handoff body => Cleared S i m ∧ (S.call i).custody = some handoff ∧
      (∃ authorization_id, handoff.claim_body authorization_id = .ok body) ∧
      Holds files (S.place handoff.claimed_path) i (some body) false
  | .ready m | .spent m | .unstarted m => Cleared S i m ∧ Claimed S files i
  | .started m _ => Cleared S i m ∧ Claimed S files i ∧ Launched launches i
  | .closing handoff body => (S.call i).custody = some handoff ∧
      (NamesExit body → Launched launches i) ∧
      Holds files (S.place handoff.terminal_path) i none false
  | .closed handoff body => (S.call i).custody = some handoff ∧
      (NamesExit body → Launched launches i) ∧
      Holds files (S.place handoff.terminal_path) i (some body) false

/-- The call has not come to its launch. -/
def Point.Early : Point → Prop
  | .called | .checked _ | .guarded _ | .created _ _ | .written _ _ _ | .ready _ | .spent _ => True
  | _ => False

/-- A launch is of a call that was cleared for it, and that holds its intent. -/
structure Covered (S : System κ ι) (files : exclusive.Directory κ ι Value) (l : Launch ι) : Prop where
  cleared : ∃ m, Cleared S l.call m ∧ l.argv = m.argv
  custody : l.custody = (S.call l.call).custody
  claimed : Claimed S files l.call

/-- The invariant of the system. -/
structure Good (S : System κ ι) (w : World κ ι) : Prop where
  knows : ∀ i, Knows S w.files w.launches i (w.point i)
  early : ∀ i, (w.point i).Early → ¬ Launched w.launches i
  covered : ∀ l ∈ w.launches, Covered S w.files l
  once : (w.launches.map Launch.call).Nodup
  spent : ∀ name i record, w.consumed name = some (i, record) → Claimed S w.files i
  exits : ∀ k i body durable, Holds w.files k i (some body) durable → NamesExit body →
    Launched w.launches i ∧ ∃ handoff, (S.call i).custody = some handoff ∧
      k = S.place handoff.terminal_path

/-! ## What the others do -/

variable {w : World κ ι} {i j : ι} {m : Mandate} {files files' : exclusive.Directory κ ι Value}
  {launches launches' : List (Launch ι)}

omit [DecidableEq κ] [DecidableEq ι] in
theorem Claimed.frame (h : Changes i files files') (hj : Claimed S files j) : Claimed S files' j := by
  intro handoff hc
  obtain ⟨authorization_id, body, hbody, hholds⟩ := hj handoff hc
  exact ⟨authorization_id, body, hbody, h.durable hholds⟩

omit [DecidableEq κ] [DecidableEq ι] in
/-- What a call knows stays true while another one acts. -/
theorem Knows.frame (h : Changes i files files')
    (hlaunches : ∀ k, Launched launches k → Launched launches' k) (hne : j ≠ i) {p : Point}
    (hk : Knows S files launches j p) : Knows S files' launches' j p := by
  cases p with
  | called => trivial
  | finished => trivial
  | checked m => exact hk
  | guarded m => exact hk
  | created m handoff =>
    obtain ⟨hclear, hc, hholds⟩ := hk
    exact ⟨hclear, hc, h.other hne hholds⟩
  | written m handoff body =>
    obtain ⟨hclear, hc, hbody, hholds⟩ := hk
    exact ⟨hclear, hc, hbody, h.other hne hholds⟩
  | ready m => exact ⟨hk.1, hk.2.frame h⟩
  | spent m => exact ⟨hk.1, hk.2.frame h⟩
  | unstarted m => exact ⟨hk.1, hk.2.frame h⟩
  | started m pid => exact ⟨hk.1, hk.2.1.frame h, hlaunches j hk.2.2⟩
  | closing handoff body =>
    obtain ⟨hc, hexit, hholds⟩ := hk
    exact ⟨hc, fun he => hlaunches j (hexit he), h.other hne hholds⟩
  | closed handoff body =>
    obtain ⟨hc, hexit, hholds⟩ := hk
    exact ⟨hc, fun he => hlaunches j (hexit he), h.other hne hholds⟩

/-! ## One step -/

omit [DecidableEq κ] in
/-- A call goes on and changes its own files, and no terminal record of an exit
appears but one of its own. -/
theorem Good.advance (h : Good S w) {p : Point} (hfiles : Changes i w.files files')
    (hknows : Knows S files' w.launches i p) (hearly : p.Early → (w.point i).Early)
    (hexits : ∀ k j body durable, Holds files' k j (some body) durable → NamesExit body →
      (∃ before, Holds w.files k j (some body) before) ∨ j = i ∧ Launched w.launches i ∧
        ∃ handoff, (S.call i).custody = some handoff ∧ k = S.place handoff.terminal_path) :
    Good S { w.move i p with files := files' } where
  knows j := by
    by_cases hji : j = i
    · subst hji
      simpa [World.move] using hknows
    · simpa [World.move, Function.update_of_ne hji] using (h.knows j).frame hfiles (fun _ hl => hl) hji
  early j := by
    intro he
    by_cases hji : j = i
    · subst hji
      exact h.early j (hearly (by simpa [World.move] using he))
    · exact h.early j (by simpa [World.move, Function.update_of_ne hji] using he)
  covered l hl :=
    have hcov := h.covered l hl
    ⟨hcov.cleared, hcov.custody, hcov.claimed.frame hfiles⟩
  once := h.once
  spent name j record hname := (h.spent name j record hname).frame hfiles
  exits k j body durable hholds hexit := by
    rcases hexits k j body durable hholds hexit with ⟨before, hbefore⟩ | ⟨rfl, hlaunched, hplace⟩
    · exact h.exits k j body before hbefore hexit
    · exact ⟨hlaunched, hplace⟩

omit [DecidableEq κ] in
/-- A call goes on and leaves the files as they are. -/
theorem Good.moved (h : Good S w) {p : Point} (hknows : Knows S w.files w.launches i p)
    (hearly : p.Early → (w.point i).Early) : Good S (w.move i p) :=
  h.advance (Changes.refl i w.files) hknows hearly fun _ _ _ durable hholds _ => .inl ⟨durable, hholds⟩

omit [DecidableEq κ] in
theorem Good.ended (h : Good S w) (i : ι) : Good S (w.move i .finished) :=
  h.moved trivial fun he => he.elim

theorem Good.claim (h : Good S w) (hpoint : w.point i = .guarded m) : Good S (w.claim S i m) := by
  have hclear : Cleared S i m := by
    have hk := h.knows i
    rwa [hpoint] at hk
  have hearly : (w.point i).Early := by
    rw [hpoint]
    trivial
  unfold World.claim
  split
  · rename_i hnone
    refine h.moved ⟨hclear, fun handoff hc => ?_⟩ fun _ => hearly
    rw [hnone] at hc
    cases hc
  · rename_i handoff hc
    split
    · exact h.ended i
    · rename_i hfree
      refine h.advance (changes_create hfree) ⟨hclear, hc, holds_create⟩ (fun _ => hearly) ?_
      intro k j body durable hholds _
      exact .inl ⟨durable, holds_create_content hholds⟩

omit [DecidableEq κ] in
theorem Good.consume (h : Good S w) (hpoint : w.point i = .ready m) : Good S (w.consume i m) := by
  have hk := h.knows i
  rw [hpoint] at hk
  have hmoved : Good S (w.move i (.spent m)) := h.moved hk fun _ => by rw [hpoint]; trivial
  unfold World.consume
  split
  · exact h.ended i
  · rename_i name record _
    split
    · exact h.ended i
    · refine { hmoved with spent := ?_ }
      intro name' j record' hname
      by_cases hsame : name' = name
      · -- the record is of this call, and its claim came first
        obtain ⟨rfl, -⟩ : i = j ∧ record = record' := by simpa [hsame] using hname
        exact hk.2
      · exact h.spent name' j record' (by simpa [hsame] using hname)

omit [DecidableEq κ] in
theorem Good.launch (h : Good S w) (hpoint : w.point i = .spent m) (pid : Option Int) :
    Good S (w.launch S i m pid) := by
  have hk := h.knows i
  rw [hpoint] at hk
  obtain ⟨hclear, hclaimed⟩ := hk
  have hfirst : ¬ Launched w.launches i := h.early i (by rw [hpoint]; trivial)
  unfold World.launch
  split
  · exact h.ended i
  · exact h.moved ⟨hclear, hclaimed⟩ fun he => he.elim
  · rename_i environment pid _
    set l : Launch ι := ⟨i, m.argv, environment, (S.call i).custody⟩ with hl
    have hmore : ∀ k, Launched w.launches k → Launched (w.launches ++ [l]) k := by
      rintro k ⟨l', hl', rfl⟩
      exact ⟨l', List.mem_append_left _ hl', rfl⟩
    have hnow : Launched (w.launches ++ [l]) i := ⟨l, by simp, rfl⟩
    refine ⟨fun j => ?_, fun j he => ?_, fun l' hl' => ?_, ?_, h.spent, ?_⟩
    · by_cases hji : j = i
      · subst hji
        have hknows : Knows S w.files (w.launches ++ [l]) j (.started m pid) := ⟨hclear, hclaimed, hnow⟩
        rwa [show (w.move j (.started m pid)).point j = .started m pid from Function.update_self ..]
      · simpa [World.move, Function.update_of_ne hji] using
          (h.knows j).frame (Changes.refl i w.files) hmore hji
    · by_cases hji : j = i
      · subst hji
        exact (by simpa [World.move] using he : Point.Early (.started m pid)).elim
      · rintro ⟨l', hl', hcall⟩
        rcases List.mem_append.mp hl' with hold | hnew
        · exact h.early j (by simpa [World.move, Function.update_of_ne hji] using he) ⟨l', hold, hcall⟩
        · obtain rfl := List.mem_singleton.mp hnew
          exact hji hcall.symm
    · rcases List.mem_append.mp hl' with hold | hnew
      · exact h.covered l' hold
      · obtain rfl := List.mem_singleton.mp hnew
        exact ⟨⟨m, hclear, rfl⟩, rfl, hclaimed⟩
    · rw [List.map_append, List.nodup_append]
      refine ⟨h.once, List.nodup_singleton _, ?_⟩
      intro a ha b hb hab
      obtain ⟨l', hl', rfl⟩ := List.mem_map.mp ha
      obtain rfl := List.mem_singleton.mp hb
      exact hfirst ⟨l', hl', hab⟩
    · intro k j body durable hholds hexit
      obtain ⟨hlaunched, hplace⟩ := h.exits k j body durable hholds hexit
      exact ⟨hmore j hlaunched, hplace⟩

/-- A terminal record that names an exit is begun by a call that launched. -/
theorem Good.terminal (h : Good S w) {record : Handoff → Except Exn Value}
    (hexit : ∀ handoff body, record handoff = .ok body → NamesExit body → Launched w.launches i) :
    Good S (w.terminal S i record) := by
  unfold World.terminal
  split
  · exact h.ended i
  · rename_i handoff hc
    split
    · rename_i body hbody hfree
      refine h.advance (changes_create hfree) ⟨hc, hexit handoff body hbody, holds_create⟩
        (fun he => he.elim) ?_
      intro k j body' durable hholds _
      exact .inl ⟨durable, holds_create_content hholds⟩
    · exact h.ended i

omit [DecidableEq κ] [DecidableEq ι] in
theorem loses_remnant (left : κ → Left) (files : exclusive.Directory κ ι Value) :
    Loses files fun k => remnant (left k) (files k) := by
  intro k
  show Remains (files k) (remnant (left k) (files k))
  cases files k with
  | none => exact .kept none
  | some e =>
    by_cases hd : e.durable = true
    · simpa [remnant, hd] using Remains.kept (some e)
    · have hd : e.durable = false := by simpa using hd
      unfold remnant
      dsimp only
      rw [if_neg (by simp [hd])]
      cases left k with
      | kept => exact .kept (some e)
      | gone => exact .gone e hd
      | torn => exact .torn e hd

/-- What is durable outlives a loss of power. -/
theorem Good.power_loss (h : Good S w) (left : κ → Left) (lost : Text → Bool) :
    Good S (w.step S (.power_loss left lost)) := by
  have hloses := loses_remnant left w.files
  have hclaimed : ∀ j, Claimed S w.files j → Claimed S (fun k => remnant (left k) (w.files k)) j := by
    intro j hj handoff hc
    obtain ⟨authorization_id, body, hbody, hholds⟩ := hj handoff hc
    exact ⟨authorization_id, body, hbody, hloses.durable hholds⟩
  refine ⟨fun i => ?_, fun i he => ?_, fun l hl => ?_, h.once, ?_, ?_⟩
  · show Knows S _ _ i (w.point i).interrupted
    cases w.point i <;> trivial
  · -- only a call that has not begun can still come to its launch
    change (w.point i).interrupted.Early at he
    refine h.early i ?_
    cases hp : w.point i with
    | called => trivial
    | _ =>
      rw [hp] at he
      exact he.elim
  · have hcov := h.covered l hl
    exact ⟨hcov.cleared, hcov.custody, hclaimed l.call hcov.claimed⟩
  · intro name j record hname
    refine hclaimed j (h.spent name j record ?_)
    simp only [World.step] at hname
    split at hname
    · cases hname
    · exact hname
  · intro k j body durable hholds hexit
    exact h.exits k j body durable (hloses.content hholds) hexit

theorem good_step (h : Good S w) (act : Act κ ι) : Good S (w.step S act) := by
  cases act with
  | check i cwd =>
    simp only [World.step]
    split
    · rename_i hpoint
      split
      · rename_i m hm
        exact h.moved (argv_of_check_call hm) fun _ => by rw [hpoint]; trivial
      · exact h.ended i
    · exact h
  | guard i os =>
    simp only [World.step]
    split
    · rename_i m hpoint
      have hk := h.knows i
      rw [hpoint] at hk
      split
      · rename_i hcheck
        exact h.moved ⟨hk, fits_of_check hcheck⟩ fun _ => by rw [hpoint]; trivial
      · exact h.ended i
    · exact h
  | claim i =>
    simp only [World.step]
    split
    · rename_i m hpoint
      exact h.claim hpoint
    · exact h
  | write_claim i =>
    simp only [World.step]
    split
    · rename_i m handoff hpoint
      have hk := h.knows i
      rw [hpoint] at hk
      obtain ⟨hclear, hc, hholds⟩ := hk
      split
      · rename_i body hbody
        refine h.advance (changes_write hholds) ⟨hclear, hc, ⟨_, hbody⟩, holds_write⟩
          (fun _ => by rw [hpoint]; trivial) ?_
        intro k j body' durable hheld hexit
        rcases holds_write_content hheld with ⟨-, -, rfl⟩ | hbefore
        · exact absurd hexit (claim_names_no_exit hbody)
        · exact .inl ⟨durable, hbefore⟩
      · exact h.ended i
    · exact h
  | sync_claim i =>
    simp only [World.step]
    split
    · rename_i m handoff body hpoint
      have hk := h.knows i
      rw [hpoint] at hk
      obtain ⟨hclear, hc, ⟨authorization_id, hbody⟩, hholds⟩ := hk
      refine h.advance (changes_sync hholds) ⟨hclear, fun handoff' hc' => ?_⟩
        (fun _ => by rw [hpoint]; trivial) ?_
      · obtain rfl := Option.some.inj (hc.symm.trans hc')
        exact ⟨authorization_id, body, hbody, holds_sync⟩
      · intro k j body' durable hheld hexit
        rcases holds_sync_content hheld with ⟨-, -, rfl⟩ | hbefore
        · exact absurd hexit (claim_names_no_exit hbody)
        · exact .inl ⟨durable, hbefore⟩
    · exact h
  | consume i =>
    simp only [World.step]
    split
    · rename_i m hpoint
      exact h.consume hpoint
    · exact h
  | launch i pid =>
    simp only [World.step]
    split
    · rename_i m hpoint
      exact h.launch hpoint pid
    · exact h
  | observe i code =>
    simp only [World.step]
    split
    · rename_i m pid hpoint
      have hk := h.knows i
      rw [hpoint] at hk
      split
      · exact h.ended i
      · exact h.terminal fun _ _ _ _ => hk.2.2
    · -- nothing was started, and the record names no exit
      refine h.terminal fun handoff body hbody hexit => ?_
      exact absurd (terminal_names_exit hbody hexit) (by simp)
    · exact h
  | write_terminal i =>
    simp only [World.step]
    split
    · rename_i handoff body hpoint
      have hk := h.knows i
      rw [hpoint] at hk
      obtain ⟨hc, hexit, hholds⟩ := hk
      refine h.advance (changes_write hholds) ⟨hc, hexit, holds_write⟩ (fun he => he.elim) ?_
      intro k j body' durable hheld hexit'
      rcases holds_write_content hheld with ⟨rfl, rfl, rfl⟩ | hbefore
      · exact .inr ⟨rfl, hexit hexit', handoff, hc, rfl⟩
      · exact .inl ⟨durable, hbefore⟩
    · exact h
  | sync_terminal i =>
    simp only [World.step]
    split
    · rename_i handoff body hpoint
      have hk := h.knows i
      rw [hpoint] at hk
      obtain ⟨hc, hexit, hholds⟩ := hk
      refine h.advance (changes_sync hholds) trivial (fun he => he.elim) ?_
      intro k j body' durable hheld hexit'
      rcases holds_sync_content hheld with ⟨rfl, rfl, rfl⟩ | hbefore
      · exact .inr ⟨rfl, hexit hexit', handoff, hc, rfl⟩
      · exact .inl ⟨durable, hbefore⟩
    · exact h
  | stop i => exact h.ended i
  | power_loss left lost => exact h.power_loss left lost

omit [DecidableEq κ] [DecidableEq ι] in
theorem good_initial : Good S (World.initial κ ι) where
  knows _ := trivial
  early _ _ := by
    rintro ⟨l, hl, -⟩
    cases hl
  covered l hl := by cases hl
  once := List.nodup_nil
  spent _ _ _ h := by cases h
  exits _ _ _ _ h := by cases h

theorem good_run (acts : List (Act κ ι)) (h : Good S w) : Good S (w.run S acts) := by
  induction acts generalizing w with
  | nil => exact h
  | cons act acts ih => exact ih (good_step h act)

omit [DecidableEq κ] [DecidableEq ι] in
@[simp] theorem is_consumed_initial (nonce : Str) :
    (World.initial κ ι).is_consumed nonce = false := by
  unfold World.is_consumed
  split <;> rfl

/-- A call that is alone and whose checks pass comes to its launch. -/
theorem lone_call_launches {cwd : Directory} {os : Os} {handoff : Handoff} {body record : Value}
    {name : Text} {environment : List (Str × Str)} (pid : Int)
    (hchecked : check_call S.host S.repr cwd (fun _ => false) (S.call i) = .ok m)
    (hcheck : check_custody os (S.call i) m = .ok ()) (hc : (S.call i).custody = some handoff)
    (hbody : handoff.claim_body m.verified.authorization_id = .ok body)
    (hrecord : store.consumption m.verified = .ok (name, record))
    (henv : launch_environment (S.call i) m = .ok environment) :
    ((World.initial κ ι).run S [.check i cwd, .guard i os, .claim i, .write_claim i, .sync_claim i,
      .consume i, .launch i (some pid)]).launches = [⟨i, m.argv, environment, some handoff⟩] := by
  have hfree : (World.initial κ ι).is_consumed = fun _ => false := funext is_consumed_initial
  have hfirst : (World.initial κ ι).step S (.check i cwd) =
      (World.initial κ ι).move i (.checked m) := by
    simp only [World.step, World.initial]
    rw [← World.initial, hfree, hchecked]
  have hfiles : (World.initial κ ι).files (S.place handoff.claimed_path) = none := rfl
  have hconsumed : (World.initial κ ι).consumed name = none := rfl
  have hlaunches : (World.initial κ ι).launches = [] := rfl
  rw [World.run, List.foldl_cons, hfirst]
  simp [World.step, World.move, World.claim, World.consume, World.launch, hcheck, hc, hbody, hrecord,
    henv, hfiles, hconsumed, hlaunches]

/-! ## Custody -/

/-- The intents that launches were made under. -/
def World.intents (w : World κ ι) : List Str :=
  w.launches.filterMap fun l => l.custody.map Handoff.intent_path

/-- A candidate that names a handoff is launched with this handoff, as the argv
that it binds, and a candidate that names none is launched with none. -/
def InCustody (candidate : Value) (l : Launch ι) : Prop :=
  ∃ named, run_custody_sha256 candidate = .ok named ∧
    (named ≠ .null ∧ (∃ handoff binding, l.custody = some handoff ∧
        (∃ expected, commitment handoff.envelope = .ok expected ∧ named = .str expected) ∧
        getItem handoff.envelope "binding" = .ok binding ∧
        getItem binding "argv" = .ok (.list (l.argv.map .str))) ∨
      named = .null ∧ l.custody = none)

omit [DecidableEq κ] [DecidableEq ι] in
theorem Covered.inCustody {l : Launch ι} (h : Covered S files l) :
    InCustody (S.call l.call).candidate l := by
  obtain ⟨m, hclear, hargv⟩ := h.cleared
  have hfits := hclear.fits
  unfold Fits at hfits
  unfold InCustody
  rw [h.custody]
  cases hc : (S.call l.call).custody with
  | none =>
    rw [hc] at hfits
    exact ⟨.null, hfits, .inr ⟨rfl, rfl⟩⟩
  | some handoff =>
    rw [hc] at hfits
    obtain ⟨expected, hexpected, hnamed⟩ := hfits.named
    obtain ⟨action, b, argv, bound, haction, hat, hb, hbound, heq⟩ := hfits.argv
    obtain ⟨action', haction', hat'⟩ := executable_argv_spec hclear.argv
    obtain rfl := Except.ok.inj (haction.symm.trans haction')
    obtain rfl := Except.ok.inj (hat.symm.trans hat')
    refine ⟨.str expected, hnamed, .inl ⟨by simp, handoff, b, rfl, ⟨expected, hexpected, rfl⟩, hb, ?_⟩⟩
    rw [hbound, eq_strings heq, hargv]

omit [DecidableEq κ] [DecidableEq ι] in
/-- Two launches under one claim are the launch of one call. -/
theorem intents_nodup {launches : List (Launch ι)} (hcov : ∀ l ∈ launches, Covered S files l)
    (honce : (launches.map Launch.call).Nodup) :
    ((launches.filterMap fun l => l.custody.map Handoff.intent_path).map fun path =>
      S.place (path ++ lit ".claimed")).Nodup := by
  have howner : ∀ l ∈ launches, ∀ handoff, l.custody = some handoff → ∃ body,
      Holds files (S.place handoff.claimed_path) l.call (some body) true := by
    intro l hl handoff hc
    rw [(hcov l hl).custody] at hc
    obtain ⟨_, body, _, hholds⟩ := (hcov l hl).claimed handoff hc
    exact ⟨body, hholds⟩
  clear hcov
  induction launches with
  | nil => exact List.nodup_nil
  | cons l launches ih =>
    rw [List.map_cons, List.nodup_cons] at honce
    have hrest := ih honce.2 fun l' hl' => howner l' (List.mem_cons_of_mem _ hl')
    cases hc : l.custody with
    | none => simpa [hc] using hrest
    | some handoff =>
      simp only [List.filterMap_cons, hc, Option.map_some, List.map_cons, List.nodup_cons]
      refine ⟨?_, hrest⟩
      intro hmem
      obtain ⟨path, hpath, hplace⟩ := List.mem_map.mp hmem
      obtain ⟨l', hl', hintent⟩ := List.mem_filterMap.mp hpath
      obtain ⟨handoff', hc', rfl⟩ := Option.map_eq_some_iff.mp hintent
      obtain ⟨body, hholds⟩ := howner l (by simp) handoff hc
      obtain ⟨body', hholds'⟩ := howner l' (List.mem_cons_of_mem _ hl') handoff' hc'
      rw [show S.place handoff'.claimed_path = S.place handoff.claimed_path from hplace] at hholds'
      exact honce.1 (List.mem_map.mpr ⟨l', hl', (hholds'.unique hholds).1⟩)

/-- Custody, in every world that any calls can reach, whatever the operating
system answers and wherever they stop: what is launched is what its candidate
names; one intent is launched under at most once; a call that spent a nonce has
claimed its intent for good; a terminal record of an exit is beside the intent
of a call that launched, and it is this call that wrote it. -/
theorem custody_holds (S : System κ ι) (acts : List (Act κ ι)) :
    let w := (World.initial κ ι).run S acts
    (∀ l ∈ w.launches, executable_argv S.repr (S.call l.call).candidate = .ok l.argv ∧
      InCustody (S.call l.call).candidate l) ∧
    (w.intents.map fun path => S.place (path ++ lit ".claimed")).Nodup ∧
    (∀ name i record, w.consumed name = some (i, record) → Claimed S w.files i) ∧
    ∀ k i body durable, Holds w.files k i (some body) durable → NamesExit body →
      ∃ l ∈ w.launches, l.call = i ∧ ∃ handoff, l.custody = some handoff ∧
        k = S.place handoff.terminal_path := by
  intro w
  have hgood : Good S w := good_run acts good_initial
  refine ⟨fun l hl => ?_, intents_nodup hgood.covered hgood.once, hgood.spent, ?_⟩
  · have hcov := hgood.covered l hl
    obtain ⟨m, hclear, hargv⟩ := hcov.cleared
    exact ⟨by rw [hargv]; exact hclear.argv, hcov.inCustody⟩
  · intro k i body durable hholds hexit
    obtain ⟨⟨l, hl, hcall⟩, handoff, hc, hplace⟩ := hgood.exits k i body durable hholds hexit
    refine ⟨l, hl, hcall, handoff, ?_, hplace⟩
    rw [(hgood.covered l hl).custody, hcall, hc]

end Steps

end vfy.runner
