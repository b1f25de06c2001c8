-- The instants of a run, in order: whatever the clock says, a command is
-- launched only after evidence, freeze, issue and spend have come in that
-- order and before the authorization expires. A clock that never steps
-- backward leaves a receipt with no impossible order in it.
import VerifyRun.Freeze
import VerifyRun.Timeline
import VerifyRun.Workflow

namespace vfy.workflow

open python keys outcomes session runner authorization snapshot receipt

/-! ## The readings of the clock -/

/-- What the clock was read as. -/
def readingOf : Entry Question Answer → Option Str
  | ⟨.now, .ok t⟩ => some t
  | _ => none

/-- The readings of the clock, the oldest first. -/
def readings (h : Events) : List Str := h.filterMap readingOf

theorem readings_append (h more : Events) : readings (h ++ more) = readings h ++ readings more :=
  List.filterMap_append

/-- Readings in the grammar, none of them before an earlier one. -/
structure NeverDecrease (l : List Str) : Prop where
  grammar : ∀ r ∈ l, schema.is_date_time r = true
  ordered : l.Pairwise NotAfter

theorem NeverDecrease.prefix {l l' : List Str} (h : NeverDecrease (l ++ l')) : NeverDecrease l :=
  ⟨fun r hr => h.grammar r (List.mem_append_left l' hr), (List.pairwise_append.mp h.ordered).1⟩

/-- The last reading is after all readings before it. -/
theorem NeverDecrease.last {l : List Str} {r : Str} (h : NeverDecrease (l ++ [r])) {a : Str}
    (ha : a ∈ l) : NotAfter a r :=
  (List.pairwise_append.mp h.ordered).2.2 a ha r (List.mem_singleton_self r)

/-! ## What is promised at each question -/

/-- The declarations that are gone through. -/
def declarations_of (pinned : rulebook.LoadedRulebook) : Except Exn (List Value) := do
  iterate (← getItem (← pinned.value) "evidence")

/-- An adapter of this runtime acquires the declared evidence. -/
def acquires (declaration : Value) : Bool :=
  isStr ((declaration.get? "source").getD .null) "file" ||
    isStr ((declaration.get? "source").getD .null) "exec"

/-- The declared evidence that is acquired, by its ids. -/
def declared (declarations : List Value) : List Str :=
  (declarations.filter acquires).map fun declaration => custody.textAt declaration "id"

/-- Where evidence is evaluated: each declared file or command was read by the
clock once, the freeze after them, and an age is between the two. -/
structure Evaluates (h : Events) (pinned : rulebook.LoadedRulebook) (candidate : Value)
    (S : FrozenSnapshot) (started_at : Str) (own : List (Str × Str)) (frozen_at : Str)
    (frozen : Int) : Prop where
  readings : readings h = started_at :: own.map Prod.snd ++ [frozen_at]
  dates : ∃ V items added, Dates S own frozen_at frozen V items added
  declared : ∃ declarations, declarations_of pinned = .ok declarations ∧
    own.map Prod.fst = declared declarations
  ages : ∀ PV V context, pinned.value = .ok PV → S.value = .ok V →
    gate.context_of PV candidate V = .ok context → ∀ reading ∈ own, gate.Aged context reading frozen

/-- Where a command is launched: right after an authorization was spent, which
was issued no earlier than the freeze, and spent in its interval. -/
structure Launches (h : Events) (verified : FrozenAuthorization) (started_at : Str)
    (own : List (Str × Str)) (frozen_at issued_at spent_at : Str)
    (frozen issued spent expires : Int) : Prop where
  consumed : ∃ before, h = before ++ [⟨.consume verified, .ok ()⟩]
  evaluated : ∃ pinned candidate S before after,
    h = before ++ ⟨.evaluated pinned candidate S, ()⟩ :: after ∧
      Evaluates before pinned candidate S started_at own frozen_at frozen
  readings : readings h = started_at :: own.map Prod.snd ++ [frozen_at, issued_at, spent_at]
  acquired : ∀ reading ∈ own, ∃ acquired,
    rulebook.instant (.str reading.2) = .ok acquired ∧ acquired ≤ frozen
  freeze : rulebook.instant (.str frozen_at) = .ok frozen
  issue : rulebook.instant (.str issued_at) = .ok issued
  spend : rulebook.instant (.str spent_at) = .ok spent
  expiry : rulebook.instant (.str verified.expires_at) = .ok expires
  named : verified.issued_at = issued_at
  frozen_first : frozen ≤ issued
  issued_first : issued ≤ spent
  in_time : spent < expires

/-- What is promised of a question that is asked from a history. -/
def Promised (h : Events) : Question → Prop
  | .launch _ _ _ => ∃ verified started_at own frozen_at issued_at spent_at frozen issued spent
      expires, Launches h verified started_at own frozen_at issued_at spent_at frozen issued spent
        expires
  | .evaluated pinned candidate S => ∃ started_at own frozen_at frozen,
      Evaluates h pinned candidate S started_at own frozen_at frozen
  | .put_record R _ _ S authorization =>
      NeverDecrease (readings h) → Consistent R S authorization
  | _ => True

/-! ## Parts that neither read the clock nor matter to the promise -/

/-- A question of no concern here. -/
def Quiet : Question → Prop
  | .now | .launch _ _ _ | .evaluated _ _ _ | .put_record _ _ _ _ _ => False
  | _ => True

theorem promised_of_quiet {q : Question} (h : Events) (hq : Quiet q) : Promised h q := by
  cases q <;> trivial

theorem readings_quiet {more : Events} (h : ∀ e ∈ more, Quiet e.question) : readings more = [] := by
  refine List.filterMap_eq_nil_iff.mpr fun e he => ?_
  obtain ⟨q, a⟩ := e
  have hq := h _ he
  cases q <;> first | rfl | cases hq

/-- What a quiet part returns, and what it leaves of the history. -/
theorem quiet_keeps {α : Type} {p : Stage α} {R : α → Prop} (hp : p.Only Quiet R) (h : Events) :
    p.Keeps Promised (fun h' a => R a ∧ ∃ more, h' = h ++ more ∧ readings more = []) h := by
  refine (hp.keeps (fun h _ hq => promised_of_quiet h hq) h).mono ?_
  rintro h' a ⟨hR, more, rfl, hmore⟩
  exact ⟨hR, more, rfl, readings_quiet hmore⟩

/-- What a part computes on its own is quiet. -/
theorem compute_quiet {α : Type} (x : Except Exn α) : (compute x).Only Quiet fun _ => True :=
  compute_only fun _ _ => trivial

theorem search_quiet (p : Platform) (ws : Workspace) (name : Str) (path : List Str) :
    (search p ws name path).Only Quiet fun _ => True := by
  induction path with
  | nil => exact compute_quiet _
  | cons entry rest ih =>
    refine (Prog.Only.question trivial).bind fun found _ => ?_
    split
    · exact Prog.Only.pure trivial
    · exact ih

theorem resolve_program_quiet (p : Platform) (ws : Workspace) (name : Str) :
    (resolve_program p ws name).Only Quiet fun _ => True := by
  unfold resolve_program
  split
  · refine (Prog.Only.question trivial).bind fun found _ => ?_
    split
    · exact Prog.Only.pure trivial
    · split
      · exact compute_quiet _
      · exact compute_quiet _
  · exact search_quiet p ws name _

theorem build_candidate_quiet (p : Platform) (ws : Workspace) (argv : List Str) (started_at : Str) :
    (build_candidate p ws argv started_at).Only Quiet fun _ => True := by
  cases argv with
  | nil => exact compute_quiet _
  | cons name rest =>
    refine (resolve_program_quiet p ws name).bind fun program _ => ?_
    exact (compute_quiet _).bind fun seed _ => Prog.Only.pure trivial

theorem bind_candidate_quiet (ws : Workspace) (pinned : rulebook.LoadedRulebook)
    (candidate_id : Str) (resolved : List Str) (identity : List (Str × Value))
    (held : Option custody.Handoff) :
    (bind_candidate ws pinned candidate_id resolved identity held).Only Quiet fun _ => True := by
  cases held with
  | none => exact Prog.Only.pure trivial
  | some handoff =>
    refine (compute_quiet _).bind fun expected _ => ?_
    refine (Prog.Only.question trivial).bind fun os _ => ?_
    refine (compute_quiet _).bind fun _ _ => ?_
    exact (compute_quiet _).bind fun _ _ => Prog.Only.pure trivial

/-- An adapter asks no clock, and observes the declared evidence at the instant it is handed. -/
theorem observe_quiet (p : Platform) (ws : Workspace) (declaration source : Value)
    (acquired_at : Str) : (observe p ws declaration source acquired_at).Only Quiet
      fun r => evidence.Of r declaration acquired_at := by
  refine (Prog.Only.question trivial).bind fun fs _ => ?_
  split
  · exact compute_only fun r hr => evidence.acquire_file_of hr
  · refine (compute_only fun prepared hp => evidence.prepare_command_id hp).bind fun prepared hid => ?_
    refine (Prog.Only.question trivial).bind fun ran _ => ?_
    exact compute_only fun r hr => evidence.command_result_of hid hr

theorem signer_quiet (p : Platform) (keys : KeyRegistry) (key_id which : Str) :
    (signer p keys key_id which).Only Quiet fun _ => True := by
  unfold signer
  cases keys.lookup (key_id, 1) with
  | none => exact compute_quiet _
  | some entry =>
    refine (compute_quiet _).bind fun _ _ => ?_
    refine (request_only trivial).bind fun seed _ => ?_
    cases p.public_key seed with
    | none => exact compute_quiet _
    | some public_key => exact (compute_quiet _).bind fun _ _ => Prog.Only.pure trivial

theorem verify_quiet (p : Platform) (c : Call) : (verify p c).Only Quiet
    fun m => ∃ cwd consumed, check_call p.host p.repr cwd (fun _ => consumed) c = .ok m := by
  refine (Prog.Only.question trivial).bind fun cwd _ => ?_
  refine (Prog.Only.question trivial).bind fun consumed _ => ?_
  exact compute_only fun m hm => ⟨cwd, consumed, hm⟩

theorem claim_quiet (c : Call) (m : Mandate) : (runner.claim c m).Only Quiet fun _ => True := by
  unfold runner.claim
  cases c.custody with
  | none => exact Prog.Only.pure trivial
  | some handoff =>
    refine (Prog.Only.question trivial).bind fun claimed _ => ?_
    cases claimed with
    | ok _ => exact (compute_quiet _).bind fun _ _ => Prog.Only.pure trivial
    | error e => cases e <;> exact compute_quiet _

/-- What follows a reading of the clock. -/
theorem now_then {α : Type} {f : Str → Stage α} {R : Events → α → Prop} {h : Events}
    (hf : ∀ t, (f t).Keeps Promised R (h ++ [⟨.now, .ok t⟩])) :
    (now_utc >>= f).Keeps Promised R h := by
  refine Prog.Keeps.bind (R := fun h' t => h' = h ++ [⟨.now, .ok t⟩])
    (request_keeps trivial fun _ => rfl) ?_
  rintro t h' rfl
  exact hf t

/-- What follows a quiet part. -/
theorem quiet_then {α β : Type} {p : Stage α} {Q : α → Prop} {f : α → Stage β}
    {R : Events → β → Prop} {h : Events} (hp : p.Only Quiet Q)
    (hf : ∀ a more, Q a → readings more = [] → (f a).Keeps Promised R (h ++ more)) :
    (p >>= f).Keeps Promised R h := by
  refine (quiet_keeps hp h).bind ?_
  rintro a h' ⟨ha, more, rfl, hmore⟩
  exact hf a more ha hmore

theorem readings_now (h : Events) (t : Str) : readings (h ++ [⟨.now, .ok t⟩]) = readings h ++ [t] := by
  rw [readings_append]
  rfl

/-! ## Acquisition -/

/-- After these declarations: each acquisition is what its own reading says. -/
structure Acquiring (started_at : Str) (done : List Value) (state : Acquired) (h : Events)
    (own : List (Str × Str)) : Prop where
  readings : readings h = started_at :: own.map Prod.snd
  declared : own.map Prod.fst = declared done
  own : List.Forall₂ Own own state.acquisitions
  distinct : ∀ acquisition ∈ state.acquisitions, acquisition.DistinctKeys

theorem acquire_one_keeps (p : Platform) (ws : Workspace) {started_at : Str} {done : List Value}
    {state : Acquired} {h : Events} {own : List (Str × Str)}
    (hI : Acquiring started_at done state h own) (declaration : Value) :
    (acquire_one p ws state declaration).Keeps Promised (fun h' state' =>
      ∃ own', Acquiring started_at (done ++ [declaration]) state' h' own') h := by
  refine compute_then fun source hsource => ?_
  rw [getItem_eq_ok] at hsource
  split
  · rename_i hother
    refine compute_then fun id _ => Prog.Keeps.pure ⟨own, hI.readings, ?_, hI.own, hI.distinct⟩
    rw [hI.declared]
    simp [declared, acquires, hsource, hother]
  · rename_i hlocal
    refine now_then fun acquired_at => ?_
    refine quiet_then (observe_quiet p ws declaration source acquired_at)
      fun result more hof hmore => ?_
    refine compute_then fun acquisition hacquisition => ?_
    obtain ⟨hid, hat, hdistinct⟩ := evidence.as_acquisition_spec hacquisition
    refine Prog.Keeps.pure ⟨own ++ [(result.id, acquired_at)], ?_, ?_, ?_, ?_⟩
    · rw [readings_append, readings_now, hmore, hI.readings]
      simp
    · have hacquires : acquires declaration = true := by
        rw [acquires, hsource, Option.getD_some]
        by_contra hn
        simp only [Bool.or_eq_true, not_or, Bool.not_eq_true] at hn
        exact hlocal hn
      rw [List.map_append, hI.declared]
      simp [declared, hacquires, custody.textAt, hof.id]
    · exact List.rel_append hI.own (.cons ⟨hid, hof.acquired_at ▸ hat⟩ .nil)
    · intro a ha
      rcases List.mem_append.mp ha with ha | ha
      · exact hI.distinct a ha
      · rw [List.mem_singleton.mp ha]
        exact hdistinct

theorem acquire_keeps (p : Platform) (ws : Workspace) (pinned : rulebook.LoadedRulebook)
    {started_at : Str} {h : Events} (hh : readings h = [started_at]) :
    (acquire p ws pinned).Keeps Promised (fun h' state => ∃ declarations own,
      declarations_of pinned = .ok declarations ∧ Acquiring started_at declarations state h' own)
      h := by
  refine compute_then fun declarations hd => ?_
  have hstart : ∃ own, Acquiring started_at [] ⟨[], []⟩ h own :=
    ⟨[], by simpa using hh, rfl, .nil, by simp⟩
  refine (Prog.Keeps.foldlM (I := fun done state h => ∃ own, Acquiring started_at done state h own)
    (fun done x state h ⟨own, hI⟩ => acquire_one_keeps p ws hI x) declarations hstart).mono ?_
  rintro h'' state ⟨own, hI⟩
  exact ⟨declarations, own, hd, hI⟩

/-! ## Evaluation -/

/-- After an evaluation, and before the clock is read again: where it was
evaluated, and what it gave. -/
structure Evaluation (pinned : rulebook.LoadedRulebook) (candidate : Value) (e : Evaluated)
    (started_at : Str) (own : List (Str × Str)) (frozen_at : Str) (frozen : Int) (h : Events) :
    Prop where
  readings : readings h = started_at :: own.map Prod.snd ++ [frozen_at]
  evaluated : ∃ before after, h = before ++ ⟨.evaluated pinned candidate e.frozen, ()⟩ :: after ∧
    Evaluates before pinned candidate e.frozen started_at own frozen_at frozen
  dates : ∃ V items added, Dates e.frozen own frozen_at frozen V items added ∧
    gate.evaluate pinned candidate V schema.REGISTRY = .ok e.result

theorem Evaluation.quiet {pinned : rulebook.LoadedRulebook} {candidate : Value} {e : Evaluated}
    {started_at : Str} {own : List (Str × Str)} {frozen_at : Str} {frozen : Int} {h more : Events}
    (hE : Evaluation pinned candidate e started_at own frozen_at frozen h)
    (hmore : workflow.readings more = []) :
    Evaluation pinned candidate e started_at own frozen_at frozen (h ++ more) := by
  obtain ⟨before, after, rfl, hbefore⟩ := hE.evaluated
  refine ⟨?_, ⟨before, after ++ more, by simp, hbefore⟩, hE.dates⟩
  rw [readings_append, hE.readings, hmore, List.append_nil]

theorem evaluate_keeps (p : Platform) (ws : Workspace) (pinned : rulebook.LoadedRulebook)
    (candidate : Value) {started_at : Str} {h : Events} (hh : readings h = [started_at]) :
    (evaluate p ws pinned candidate).Keeps Promised (fun h' e => ∃ own frozen_at frozen,
      Evaluation pinned candidate e started_at own frozen_at frozen h') h := by
  refine (acquire_keeps p ws pinned hh).bind ?_
  rintro acquired h₁ ⟨declarations, own, hd, hI⟩
  refine now_then fun frozen_at => ?_
  refine compute_then fun id _ => ?_
  refine compute_then fun seed _ => ?_
  refine compute_then fun S hS => ?_
  refine compute_then fun V hV => ?_
  obtain ⟨frozen, items, added, hdates⟩ := dates_of_build hI.distinct hI.own hS hV
  have hevaluates : Evaluates (h₁ ++ [⟨.now, .ok frozen_at⟩]) pinned candidate S started_at own
      frozen_at frozen := by
    refine ⟨?_, ⟨V, items, added, hdates⟩, ⟨declarations, hd, hI.declared⟩, ?_⟩
    · rw [readings_now, hI.readings]
    · intro PV V' context _ hV' hcontext
      obtain rfl := Except.ok.inj (hV.symm.trans hV')
      exact gate.aged_of_dates hdates hcontext
  refine ⟨⟨_, _, _, _, hevaluates⟩, fun _ => ?_⟩
  refine compute_then fun r hr => Prog.Keeps.pure ⟨own, frozen_at, frozen, ?_, ?_, ?_⟩
  · rw [readings_append, hevaluates.readings]
    exact List.append_nil _
  · exact ⟨_, [], rfl, hevaluates⟩
  · exact ⟨V, items, added, hdates, hr⟩

/-- The decision of an evaluation records its document, unless it is an error. -/
theorem Evaluation.records {pinned : rulebook.LoadedRulebook} {candidate : Value} {e : Evaluated}
    {started_at : Str} {own : List (Str × Str)} {frozen_at : Str} {frozen : Int} {h : Events}
    (hE : Evaluation pinned candidate e started_at own frozen_at frozen h)
    (hdecision : e.result.outcome ≠ lit "ERROR") : ∃ d, gate.Records e.result d := by
  obtain ⟨V, items, added, -, hresult⟩ := hE.dates
  exact gate.records_of_evaluate hresult hdecision

/-! ## A decision that stops the run -/

theorem decline_keeps (p : Platform) (ws : Workspace) {pinned : rulebook.LoadedRulebook}
    {candidate : Value} {e : Evaluated} (seed : List UInt8) (receipt_id : Str) {started_at : Str}
    {own : List (Str × Str)} {frozen_at : Str} {frozen : Int} {h : Events}
    (hE : Evaluation pinned candidate e started_at own frozen_at frozen h)
    (hdecision : e.result.outcome ≠ lit "ERROR") :
    (decline p ws pinned candidate e seed receipt_id).Keeps Promised (fun _ _ => True) h := by
  refine now_then fun created_at => compute_then fun signed hsigned => ?_
  refine request_keeps (fun hclock => ?_) fun _ => trivial
  obtain ⟨d, hd⟩ := hE.records hdecision
  obtain ⟨V, items, added, hdates, -⟩ := hE.dates
  rw [readings_now] at hclock
  have hfreeze : NotAfter frozen_at created_at := hclock.last (by rw [hE.readings]; simp)
  exact consistent_of_issue hsigned hd (by simp) (hclock.grammar _ (by simp)) hdates.reads_back
    hdates.recorded hfreeze rfl (by simp)

/-! ## An authorization that is spent -/

theorem freeze_members {v : Value} {A : FrozenAuthorization} (h : authorization.freeze v = .ok A) :
    v.get? "issued_at" = some (.str A.issued_at) ∧
      v.get? "expires_at" = some (.str A.expires_at) := by
  unfold authorization.freeze at h
  simp only [bind_eq_ok, getItem_eq_ok, pure_eq_ok, rulebook.string_eq_ok] at h
  obtain ⟨_, -, _, -, _, -, _, -, _, -, _, hissued, _, rfl, _, hexpires, _, rfl, rfl⟩ := h
  exact ⟨hissued, hexpires⟩

/-- What the verification of an authorization says of its interval. -/
theorem interval_of_verify {host : Host} {value : Value} {pinned : rulebook.LoadedRulebook}
    {candidate : Value} {S : FrozenSnapshot} {result : gate.EvaluationResult}
    {runtime_id spent_at : Str} {keys : KeyRegistry} {registry : schema.Registry}
    {consumed_nonces : Option (List Str)} {historical : Bool} {A : FrozenAuthorization}
    (h : verify_authorization host value pinned candidate S result runtime_id
      (some (.str spent_at)) keys registry consumed_nonces historical = .ok A) :
    authorization.freeze value = .ok A ∧ ∃ issued spent expires frozen,
      rulebook.instant (.str A.issued_at) = .ok issued ∧
      rulebook.instant (.str spent_at) = .ok spent ∧
      rulebook.instant (.str A.expires_at) = .ok expires ∧
      rulebook.instant (.str S.frozen_at) = .ok frozen ∧
      frozen ≤ issued ∧ issued ≤ spent ∧ spent < expires := by
  unfold verify_authorization at h
  split at h
  · simp only [bind_eq_ok, exists_unit, raiseIf_eq_ok, getItem_eq_ok, check_interval,
      check_spendable, instant_of_eq_ok] at h
    obtain ⟨-, -, -, _, -, -, ⟨issued_at, hissued_at, issued, hissued, expires_at, hexpires_at,
      expires, hexpires, frozen, hfrozen, hfreeze, -, _, -, -, spent, hspent, hearly, hlate⟩, _, -,
      _, -, -, hfreezes⟩ := h
    obtain ⟨hi, he⟩ := freeze_members hfreezes
    obtain rfl := Option.some.inj (hi.symm.trans hissued_at)
    obtain rfl := Option.some.inj (he.symm.trans hexpires_at)
    exact ⟨hfreezes, issued, spent, expires, frozen, hissued, hspent, hexpires, hfrozen,
      not_lt.mp hfreeze, not_lt.mp hearly, not_le.mp hlate⟩
  · cases h

/-! ## The attempt -/

theorem close_custody_quiet (held : Option custody.Handoff) (code : Option Int)
    (not_started : Bool) (pid : Option Int) :
    (close_custody held code not_started pid).Only Quiet fun _ => True := by
  cases held with
  | none => exact Prog.Only.pure trivial
  | some handoff =>
    unfold close_custody
    dsimp only
    split
    · exact Prog.Only.pure trivial
    · exact (compute_quiet _).bind fun body _ => Prog.Only.question trivial

theorem preserve_quiet (signed : FrozenReceipt) :
    (preserve signed).Only Quiet fun _ => True := by
  refine (Prog.Only.question trivial).bind fun answer _ => ?_
  cases answer with
  | ok path => exact Prog.Only.pure trivial
  | error e =>
    dsimp only
    split
    · exact Prog.Only.pure trivial
    · trivial

/-- A launch asks to launch once, where that is allowed, and reads no clock. -/
theorem launch_keeps (c : Call) (m : Mandate) {h : Events}
    (hl : ∀ argv environment custody, Promised h (.launch argv environment custody)) :
    (launch c m).Keeps Promised (fun h' _ => ∃ more, h' = h ++ more ∧ readings more = []) h := by
  refine compute_then fun environment _ => ⟨hl _ _ _, fun launched => ?_⟩
  have hends : ∀ (code : Option Int) (not_started : Bool) (pid : Option Int) (outcome : Outcome),
      (do
        close_custody c.custody code not_started pid
        pure outcome : Stage Outcome).Keeps Promised
          (fun h' _ => ∃ more, h' = h ++ more ∧ readings more = [])
          (h ++ [⟨.launch m.argv environment c.custody, launched⟩]) := by
    intro code not_started pid outcome
    refine quiet_then (close_custody_quiet _ code not_started pid) fun _ more _ hmore => ?_
    refine Prog.Keeps.pure ⟨⟨.launch m.argv environment c.custody, launched⟩ :: more, by simp, ?_⟩
    rw [← hmore]
    rfl
  cases launched with
  | refused => exact hends _ _ _ _
  | failed e => exact compute_keeps fun _ he => by cases he
  | observed child => exact hends _ _ _ _

theorem completion_instants_keeps (execution : Outcome) {h : Events} :
    (completion_instants .clock execution).Keeps Promised
      (fun h' instants => ∃ instant, instants = (instant, instant) ∧
        h' = h ++ [⟨.now, .ok instant⟩]) h := by
  refine Prog.Keeps.bind (R := fun h' instant => h' = h ++ [⟨.now, .ok instant⟩])
    ⟨trivial, fun answer => ?_⟩ ?_
  · cases answer with
    | error e => trivial
    | ok instant =>
      show (if schema.is_date_time instant then pure instant else _ : Stage Str).Keeps _ _ _
      split
      · exact Prog.Keeps.pure rfl
      · trivial
  · rintro instant h' rfl
    exact Prog.Keeps.pure ⟨instant, rfl, rfl⟩

theorem acknowledge_members (outcome : Outcome) (acknowledged_at : Str) :
    (acknowledge outcome acknowledged_at).DistinctKeys ∧
      (acknowledge outcome acknowledged_at).get? "acknowledged_at" = some (.str acknowledged_at) := by
  unfold acknowledge
  split
  · simp [Distinct]
  · split
    · simp [Distinct]
    · split
      · simp [Distinct]
      · cases outcome.exit_status <;> simp [Distinct, custody.orNull]

/-- What a receipt is issued over is what is stored. -/
theorem commit_keeps (p : Platform) (c : Call) (verified : FrozenAuthorization)
    (signed : FrozenReceipt) (execution : Outcome) {h : Events}
    (hs : Promised h (.put_record signed c.pinned c.candidate c.snapshot (some verified))) :
    (commit p c verified signed execution).Keeps Promised (fun _ _ => True) h := by
  refine ⟨hs, fun answer => ?_⟩
  cases answer with
  | ok _ => exact Prog.Keeps.pure trivial
  | error e =>
    show (if uncommittable e then _ else _ : Stage Unit).Keeps _ _ _
    split
    · exact quiet_then (preserve_quiet signed) fun _ _ _ _ => trivial
    · trivial

theorem issue_keeps (p : Platform) (c : Call) (verified : FrozenAuthorization)
    (acknowledgment : Value) (created_at : Str) (r : Recording) (execution : Outcome) {h : Events} :
    (issue p c verified acknowledgment created_at r execution).Keeps Promised
      (fun h' signed => h' = h ∧ issue_receipt p.host c.pinned c.candidate c.snapshot c.result
        (some verified) (some acknowledgment) r.receipt_id created_at r.receipt_key_id
        r.receipt_key_version r.receipt_private_key c.registry = .ok signed) h := by
  unfold issue
  split
  · rename_i signed hsigned
    exact Prog.Keeps.pure ⟨rfl, hsigned⟩
  · split <;> trivial

theorem attempt_keeps (p : Platform) (c : Call) (m : Mandate) (r : Recording)
    (hclock : r.completion = .clock) (hregistry : c.registry = schema.REGISTRY) {started_at : Str}
    {own : List (Str × Str)} {frozen_at issued_at spent_at : Str}
    {frozen issued spent expires : Int} {h : Events}
    (hL : Launches h m.verified started_at own frozen_at issued_at spent_at frozen issued spent
      expires) {d V av : Value} {items added : List Value}
    (hdates : Dates c.snapshot own frozen_at frozen V items added) (hd : gate.Records c.result d)
    (hav : m.verified.value = .ok av) (hissued : av.get? "issued_at" = some (.str issued_at)) :
    (attempt p c m r).Keeps Promised (fun _ _ => True) h := by
  refine (launch_keeps c m fun _ _ _ => ⟨_, _, _, _, _, _, _, _, _, _, hL⟩).bind ?_
  rintro execution h₁ ⟨more, rfl, hmore⟩
  rw [hclock]
  refine (completion_instants_keeps execution).bind ?_
  rintro _ h₁ ⟨instant, rfl, rfl⟩
  refine (issue_keeps p c m.verified _ instant r execution).bind ?_
  rintro signed h₁ ⟨rfl, hsigned⟩
  rw [hregistry] at hsigned
  refine (commit_keeps p c m.verified signed execution fun hnever => ?_).bind ?_
  · rw [readings_now, readings_append, hmore, List.append_nil] at hnever
    have hsupplied : (some m.verified).mapM FrozenAuthorization.value = .ok (some av) := by
      show (some <$> m.verified.value) = _
      rw [hav]
      rfl
    refine consistent_of_issue hsigned hd ?_ (hnever.grammar _ (by simp)) hdates.reads_back
      hdates.recorded (hnever.last (by rw [hL.readings]; simp)) hsupplied ?_
    · rintro e he
      obtain rfl := Option.some.inj he
      exact acknowledge_members execution instant
    · rintro v hv
      obtain rfl := Option.some.inj hv
      exact ⟨issued_at, hissued, hnever.last (by rw [hL.readings]; simp)⟩
  · intro _ h₂ _
    exact compute_then fun _ _ => Prog.Keeps.pure trivial

/-! ## The spend -/

/-- What is in hand after the verification of an authorization that was issued
at one instant and is spent at another. -/
structure Spends (m : Mandate) (issued_at spent_at : Str) (frozen issued spent expires : Int) :
    Prop where
  named : m.verified.issued_at = issued_at
  issue : rulebook.instant (.str issued_at) = .ok issued
  spend : rulebook.instant (.str spent_at) = .ok spent
  expiry : rulebook.instant (.str m.verified.expires_at) = .ok expires
  frozen_first : frozen ≤ issued
  issued_first : issued ≤ spent
  in_time : spent < expires
  reads_back : ∃ av, m.verified.value = .ok av ∧ av.get? "issued_at" = some (.str issued_at)

theorem spends_of_check_call {p : Platform} {ws : Workspace} {pinned : rulebook.LoadedRulebook}
    {candidate : Value} {e : Evaluated} {authorization_id nonce issued_at spent_at key_id : Str}
    {key_version : Int} {seed : List UInt8} {granted : FrozenAuthorization} {keys : KeyRegistry}
    {held : Option custody.Handoff} {cwd : Directory} {is_consumed : Str → Bool} {m : Mandate}
    {frozen : Int} (hfrozen : rulebook.instant (.str e.frozen.frozen_at) = .ok frozen)
    (hgranted : issue_authorization p.host pinned candidate e.frozen e.result authorization_id nonce
      ws.config.runtime_id issued_at key_id key_version seed schema.REGISTRY = .ok granted)
    (hm : check_call p.host p.repr cwd is_consumed
      (callOf ws pinned candidate e granted spent_at keys held) = .ok m) :
    ∃ issued spent expires, Spends m issued_at spent_at frozen issued spent expires := by
  obtain ⟨value, hvalue, hverify⟩ := verified_of_check_call hm
  obtain ⟨-, _, _, _, _, completed, hI⟩ := issue_authorization_ok hgranted
  have hdoc := hI.document
  obtain rfl := Except.ok.inj (hdoc.reads_back.symm.trans hvalue)
  obtain ⟨hfreeze, issued, spent, expires, frozen', hissued, hspent, hexpires, hfrozen', hle, hlate,
    htime⟩ := interval_of_verify hverify
  -- what is spent is what was issued
  rw [freeze_normalize hdoc.distinct] at hfreeze
  have hgrant : m.verified = granted := Except.ok.inj (hfreeze.symm.trans hI.sealed)
  have hnamed : m.verified.issued_at = issued_at := by
    obtain ⟨hi, -⟩ := freeze_members hfreeze
    rw [hdoc.issued_at] at hi
    simpa using hi.symm
  obtain rfl := Except.ok.inj (hfrozen.symm.trans hfrozen')
  refine ⟨issued, spent, expires, hnamed, hnamed ▸ hissued, hspent, hexpires, hle, hlate, htime,
    completed.normalize, ?_, ?_⟩
  · rw [hgrant]
    exact hdoc.reads_back
  · rw [Value.get?_normalize hdoc.distinct, hdoc.issued_at]
    simp

/-- A permitted run spends its authorization, and launches, in order. -/
theorem proceed_keeps (p : Platform) (ws : Workspace) {pinned : rulebook.LoadedRulebook}
    {candidate : Value} {e : Evaluated} (keys : KeyRegistry) (receipt_seed : List UInt8)
    (receipt_id : Str) (held : Option custody.Handoff) {started_at : Str} {own : List (Str × Str)}
    {frozen_at : Str} {frozen : Int} {h : Events}
    (hE : Evaluation pinned candidate e started_at own frozen_at frozen h)
    (hdecision : e.result.outcome ≠ lit "ERROR") :
    (proceed p ws pinned candidate e keys receipt_seed receipt_id held).Keeps Promised
      (fun _ _ => True) h := by
  refine quiet_then (signer_quiet p keys _ _) fun seed more₁ _ hmore₁ => ?_
  refine quiet_then (Prog.Only.question trivial) fun nonce more₂ _ hmore₂ => ?_
  have hE := (hE.quiet hmore₁).quiet hmore₂
  generalize h ++ more₁ ++ more₂ = h₁ at hE ⊢
  refine now_then fun issued_at => compute_then fun granted hgranted => ?_
  refine now_then fun spent_at => ?_
  refine quiet_then (verify_quiet p _) fun m more₃ hm hmore₃ => ?_
  refine quiet_then (Prog.Only.question trivial) fun os more₄ _ hmore₄ => ?_
  refine compute_then fun _ _ => ?_
  refine quiet_then (claim_quiet _ m) fun _ more₅ _ hmore₅ => ?_
  refine (request_keeps trivial (R := fun h' _ => ∃ before, h' = before ++
    [⟨.consume m.verified, .ok ()⟩] ∧ readings before = readings h₁ ++ [issued_at, spent_at] ∧
      ∃ later, before = h₁ ++ later) ?_).bind ?_
  · intro _
    refine ⟨_, rfl, ?_, _, by simp only [List.append_assoc]; rfl⟩
    rw [readings_append, readings_append, readings_append, hmore₃, hmore₄, hmore₅, readings_now,
      readings_now]
    simp
  rintro _ _ ⟨before, rfl, hbefore, later, rfl⟩
  obtain ⟨cwd, consumed, hm⟩ := hm
  obtain ⟨V, items, added, hdates, -⟩ := hE.dates
  obtain ⟨d, hd⟩ := hE.records hdecision
  obtain ⟨first, rest, rfl, hfirst⟩ := hE.evaluated
  have hfrozen : rulebook.instant (.str e.frozen.frozen_at) = .ok frozen := by
    rw [hdates.named]
    exact hdates.freeze
  obtain ⟨issued, spent, expires, hS⟩ := spends_of_check_call hfrozen hgranted hm
  obtain ⟨av, hav, hissued_at⟩ := hS.reads_back
  have hL : Launches (first ++ ⟨.evaluated pinned candidate e.frozen, ()⟩ :: rest ++ later ++
      [⟨.consume m.verified, .ok ()⟩]) m.verified started_at own frozen_at issued_at spent_at frozen
      issued spent expires := by
    refine ⟨⟨_, rfl⟩, ⟨pinned, candidate, e.frozen, first,
      rest ++ later ++ [⟨.consume m.verified, .ok ()⟩], by simp, hfirst⟩, ?_, hdates.ordered,
      hdates.freeze, hS.issue, hS.spend, hS.expiry, hS.named, hS.frozen_first, hS.issued_first,
      hS.in_time⟩
    rw [readings_append, hbefore, hE.readings]
    simp [readings, readingOf]
  exact attempt_keeps p _ m _ rfl rfl hL hdates hd hav hissued_at

/-! ## The run -/

theorem conclude_keeps (p : Platform) (ws : Workspace) {pinned : rulebook.LoadedRulebook}
    {candidate : Value} {e : Evaluated} (held : Option custody.Handoff) (base : Decision)
    {started_at : Str} {own : List (Str × Str)} {frozen_at : Str} {frozen : Int} {h : Events}
    (hE : Evaluation pinned candidate e started_at own frozen_at frozen h)
    (hdecision : e.result.outcome ≠ lit "ERROR") :
    (conclude p ws pinned candidate e held base).Keeps Promised (fun _ _ => True) h := by
  refine quiet_then (request_only trivial) fun trust more₁ _ hmore₁ => ?_
  refine quiet_then (signer_quiet p _ _ _) fun receipt_seed more₂ _ hmore₂ => ?_
  refine quiet_then (request_only trivial) fun _ more₃ _ hmore₃ => ?_
  refine quiet_then (Prog.Only.question trivial) fun receipt_id more₄ _ hmore₄ => ?_
  have hE := (((hE.quiet hmore₁).quiet hmore₂).quiet hmore₃).quiet hmore₄
  dsimp only
  split
  · exact (decline_keeps p ws receipt_seed receipt_id hE hdecision).bind fun _ _ _ =>
      Prog.Keeps.pure trivial
  · exact (proceed_keeps p ws trust.1 receipt_seed receipt_id held hE hdecision).bind fun _ _ _ =>
      Prog.Keeps.pure trivial

/-- Whatever a run asks, what is promised of it holds. -/
theorem run_keeps (p : Platform) (ws : Workspace) (argv : List Str) (identity : List (Str × Value))
    (held : Option custody.Handoff) :
    (run p ws argv identity held).Keeps Promised (fun _ _ => True) [] := by
  refine now_then fun started_at => ?_
  refine quiet_then (request_only trivial) fun source more₁ _ hmore₁ => ?_
  refine compute_then fun pinned _ => ?_
  refine quiet_then (build_candidate_quiet p ws argv started_at) fun named more₂ _ hmore₂ => ?_
  refine quiet_then (bind_candidate_quiet ws pinned _ _ identity held)
    fun candidate more₃ _ hmore₃ => ?_
  have hstart : readings ([⟨.now, .ok started_at⟩] ++ more₁ ++ more₂ ++ more₃) = [started_at] := by
    rw [readings_append, readings_append, readings_append, hmore₁, hmore₂, hmore₃]
    rfl
  refine (evaluate_keeps p ws pinned candidate hstart).bind ?_
  rintro e h ⟨own, frozen_at, frozen, hE⟩
  refine compute_then fun value _ => compute_then fun reasons _ => ?_
  split
  · exact Prog.Keeps.pure trivial
  · rename_i hdecision
    exact conclude_keeps p ws held _ hE hdecision

/-- Run instants are in order where it matters. Whatever the clock and the rest
of the surroundings answer: a command is launched only after every acquired
item, the freeze, the issue and the spend have come in this order, before the
authorization expires; and each age that `fresh()` compares is the time between
an item's own reading and the freeze. Where the readings never decrease, a
receipt that is stored has no anomaly in its timeline. -/
theorem run_instants (p : Platform) (ws : Workspace) (argv : List Str)
    (identity : List (Str × Value)) (held : Option custody.Handoff)
    (env : Surroundings Question Answer) (before after : Events) :
    (∀ command environment custody answer,
      ((run p ws argv identity held).run env []).1 =
        before ++ ⟨.launch command environment custody, answer⟩ :: after →
      ∃ verified started_at own frozen_at issued_at spent_at frozen issued spent expires,
        Launches before verified started_at own frozen_at issued_at spent_at frozen issued spent
          expires) ∧
    (∀ pinned candidate S answer,
      ((run p ws argv identity held).run env []).1 =
        before ++ ⟨.evaluated pinned candidate S, answer⟩ :: after →
      ∃ started_at own frozen_at frozen,
        Evaluates before pinned candidate S started_at own frozen_at frozen) ∧
    (∀ R pinned candidate S authorization answer,
      ((run p ws argv identity held).run env []).1 =
        before ++ ⟨.put_record R pinned candidate S authorization, answer⟩ :: after →
      NeverDecrease (readings ((run p ws argv identity held).run env []).1) →
      Consistent R S authorization) := by
  obtain ⟨more, hmore, hall⟩ := (run_keeps p ws argv identity held).run env
  rw [List.nil_append] at hmore
  rw [hmore]
  refine ⟨?_, ?_, ?_⟩
  · intro command environment custody answer hsplit
    exact hall before _ after hsplit
  · intro pinned candidate S answer hsplit
    exact hall before _ after hsplit
  · intro R pinned candidate S authorization answer hsplit hclock
    refine hall before _ after hsplit ?_
    rw [hsplit, readings_append] at hclock
    exact hclock.prefix

end vfy.workflow
