-- Succession of one task: observations in a row, each of which was bound, in
-- its preview, to the task, to its revision and to the observation before it.
-- The digest of the last observation is the whole chain.
import VerifyRun.ServiceTests
import VerifyRun.ChildRecords
import VerifyRun.Lib.Chain

namespace vfy.service_test_successor

open python keys outcomes child_ledger service_tests

def SCHEMA : Str := "vfy.service-test-task-binding/1"
def FIELD : Str := "task_successor_binding"
def MAX_LINKS : Nat := 64
def MAX_CHAIN_BYTES : Nat := 16 * 1024 * 1024

/-- `binding`. -/
def binding (task_bytes : ByteArray) (revision : Nat) (predecessor_sha256 : Option Str) :
    Checked Value := do
  needOr (0 < task_bytes.size ∧ task_bytes.size ≤ 131072) "INVALID_TASK_BYTES"
  needOr (1 ≤ revision ∧ revision ≤ MAX_LINKS) "INVALID_TASK_REVISION"
  needOr ((revision = 1 ∧ predecessor_sha256 = none) ∨
    (1 < revision ∧ ∃ p ∈ predecessor_sha256, hex64 p)) "INVALID_TASK_PREDECESSOR"
  pure (.dict [("schema", .str SCHEMA), ("task_sha256", .str (sha task_bytes)),
    ("revision", .int revision),
    ("predecessor_observation_sha256", managed_capacity.textOrNull predecessor_sha256),
    ("authority_granted", .bool false), ("automatic_retry", .bool false)])

/-- A link: a checker that the host selected, and the raw evidence of an attempt. -/
structure Link where
  checker : TestObservationChecker
  evidence : Evidence

/-- The bytes of a link. -/
def Link.raws (l : Link) : List ByteArray :=
  (l.checker.selected ++ l.evidence.members).map Prod.snd

/-- One turn of the loop that bounds all bytes. -/
def count_raw (total : Nat) (data : ByteArray) : Checked Nat := do
  let total := total + data.size
  needOr (total ≤ MAX_CHAIN_BYTES) "CHAIN_BYTE_LIMIT"
  pure total

def count_link (total : Nat) (l : Link) : Checked Nat := do
  needOr (hex64 l.evidence.request_sha256) "INVALID_REQUEST_HASH"
  l.raws.foldlM count_raw total

/-- The criteria that no link of a chain changes: `STABLE`. -/
def stableOf (s : Selection) : Value := .dict
  [("requirements_sha256", .str s.requirements_sha256), ("examiner_sha256", .str s.examiner_sha256),
   ("environment_sha256", .str s.environment_sha256), ("adapter_sha256", .str s.adapter_sha256),
   ("capture_sha256", .str s.capture_sha256), ("runner_sha256", .str s.runner_sha256),
   ("labels", .list (s.labels.map .str)), ("case_ids", .list (s.case_ids.map .str)),
   ("requirement_cases", .dict (s.requirement_cases.map fun c => (c.1, .list (c.2.map .str))))]

/-- What the result says of one link. -/
structure Row where
  revision : Nat
  observation_sha256 : Str
  request_sha256 : Str
  state : State
  source_sha256 : Str

def Row.value (r : Row) : Value := .dict
  [("revision", .int r.revision), ("observation_sha256", .str r.observation_sha256),
   ("request_sha256", .str r.request_sha256), ("state", .str r.state.name),
   ("source_sha256", .str r.source_sha256)]

/-- What the loop over the links has so far. -/
structure Progress where
  prior : Option Str
  stable : Option ByteArray
  observations : List Row

/-- The binding in the preview of a link. -/
def preview_binding (preview_bytes : ByteArray) : Checked Value := do
  match ← lift (load.load_json_bytes preview_bytes) with
  | .dict members =>
    match members.lookup FIELD with
    | none => .error (.refused "LEGACY_TASK_SUCCESSION_UNESTABLISHED")
    | some (.dict bound) => pure (.dict bound)
    | some _ => .error (.refused "TASK_OR_PREDECESSOR_MISMATCH")
  | _ => .error (.raised .type_error)

/-- One turn of the loop of `check_chain`. -/
def check_link (task_bytes : ByteArray) (s : Progress) (l : Link) : Checked Progress := do
  let revision := s.observations.length + 1
  let observed ← l.checker.check l.evidence
  needOr (observed.state = .OBSERVED_SELECTED_CASES_SUCCESS ∨
    observed.state = .OBSERVED_SELECTED_CASES_NON_SUCCESS) "UNAUTHENTICATED_OR_INCOMPLETE_OBSERVATION"
  let bound ← preview_binding l.evidence.preview_bytes
  let expected ← binding task_bytes revision s.prior
  let bound_bytes ← raw bound
  let expected_bytes ← raw expected
  needOr (bound_bytes = expected_bytes) "TASK_OR_PREDECESSOR_MISMATCH"
  let selected ← raw (stableOf l.checker.selection)
  let stable := s.stable.getD selected
  needOr (selected = stable) "CHANGED_CRITERIA_OR_EXAMINER"
  let observation_sha256 ← digest observed.value
  pure { prior := some observation_sha256, stable := some stable
         observations := s.observations ++
           [{ revision, observation_sha256, request_sha256 := l.evidence.request_sha256,
              state := observed.state, source_sha256 := l.checker.selection.source_sha256 }] }

/-- What `check_chain` returns. -/
structure Succession where
  destination_predecessor_sha256 : Option Str
  task_sha256 : Str
  stable_selection_sha256 : Str
  observations : List Row
  input_bytes : Nat

def Succession.value (r : Succession) : Value := .dict
  [("destination_predecessor_sha256", managed_capacity.textOrNull r.destination_predecessor_sha256),
   ("schema", .str "vfy.service-test-task-succession/1"),
   ("state", .str "AUTHENTICATED_DECLARED_TASK_SEQUENCE"), ("task_sha256", .str r.task_sha256),
   ("stable_selection_sha256", .str r.stable_selection_sha256),
   ("observations", .list (r.observations.map Row.value)), ("input_bytes", .int r.input_bytes),
   ("semantic_adequacy", .str "UNESTABLISHED"), ("repair_causality", .str "UNESTABLISHED"),
   ("current_source", .str "UNKNOWN"), ("authority_granted", .bool false),
   ("automatic_retry", .bool false)]

/-- `observations[-2]['observation_sha256']`, where there are two. -/
def parentOf (observations : List Row) : Option Str :=
  (observations.dropLast.getLast?).map Row.observation_sha256

/-- `check_chain`: the result, and the digest of it. -/
def check_chain (links : List Link) (task_bytes : ByteArray) (expected_task_sha256 : Str)
    (destination_predecessor_sha256 : Option Str) : Checked (Succession × Str) := do
  let _ ← binding task_bytes 1 none
  needOr (hex64 expected_task_sha256 ∧ sha task_bytes = expected_task_sha256) "SELECTED_TASK_MISMATCH"
  needOr (0 < links.length ∧ links.length ≤ MAX_LINKS) "CHAIN_LIMIT"
  -- All bytes are bounded before anything is read.
  let total ← links.foldlM count_link task_bytes.size
  let s ← links.foldlM (check_link task_bytes) ⟨none, none, []⟩
  needOr (destination_predecessor_sha256 = parentOf s.observations ∧
    ∀ d ∈ destination_predecessor_sha256, hex64 d) "DESTINATION_PREDECESSOR_MISMATCH"
  let result : Succession :=
    { destination_predecessor_sha256, task_sha256 := expected_task_sha256
      stable_selection_sha256 := (s.stable.map sha).getD [], observations := s.observations
      input_bytes := total }
  let result_sha256 ← digest result.value
  pure (result, result_sha256)

/-! ## What an observation covers -/

theorem failed_state {out o : Observation} {e : Refusal} (h : out.failed e = .ok o) :
    o.state = out.state := by
  unfold Observation.failed at h
  split at h
  · cases h
    rfl
  · split at h
    · cases h
      rfl
    · cases h

/-- A stage after which the state is another one went through. -/
theorem attempt_eq_ok {α : Type} {out o : Observation} {x : Checked α}
    {next : α → Checked Observation} (h : attempt out x next = .ok o) (hs : o.state ≠ out.state) :
    ∃ a, x = .ok a ∧ next a = .ok o := by
  unfold attempt at h
  cases hx : x with
  | ok a =>
    rw [hx] at h
    exact ⟨a, rfl, h⟩
  | error e =>
    rw [hx] at h
    exact absurd (failed_state h) hs

theorem read_report_value {limits : Limits} {data : ByteArray} {report : service_tests.Report}
    (h : read_report limits data = .ok report) : load.load_json_bytes data = .ok report.value := by
  unfold read_report at h
  simp only [bind_eq_ok, lift_eq_ok] at h
  obtain ⟨v, hv, _, -, _, -, _, -, events, -, h⟩ := h
  cases events with
  | list items =>
    simp only [bind_eq_ok, pure_eq_ok] at h
    obtain ⟨_, -, _, -, _, -, _, -, _, -, _, -, _, -, _, -, _, -, _, -, rfl⟩ := h
    exact hv
  | _ => cases h

/-- Reading the members of a mapping keeps its keys. -/
theorem keys_of_mapM {members : List (Str × Value)} {cases : List (Str × List Str)}
    (h : (members.mapM fun m => do pure (m.1, ← names m.2)) = .ok cases) :
    cases.map Prod.fst = members.map Prod.fst := by
  have hf := mapM_eq_ok.mp h
  clear h
  induction hf with
  | nil => rfl
  | cons hm _ ih =>
    simp only [bind_eq_ok, pure_eq_ok] at hm
    obtain ⟨ids, -, rfl⟩ := hm
    rw [List.map_cons, List.map_cons, ih]

/-- The requirements of a selection are distinct. -/
theorem distinct_requirements (C : TestObservationChecker) :
    Distinct C.selection.requirement_cases := by
  have h := C.read
  unfold read_selected at h
  simp only [bind_eq_ok, lift_eq_ok] at h
  obtain ⟨_, -, _, -, q, hq, _, -, req, -, selection, h, hpair⟩ := h
  cases hpair
  unfold read_selection at h
  simp only [bind_eq_ok, common_capacity.item, lift_eq_ok, getItem_eq_ok] at h
  iterate 20 obtain ⟨_, -, h⟩ := h
  obtain ⟨mapping, hmapping, cases, hcases, hselection⟩ := h
  rw [← (pure_eq_ok.mp hselection)]
  have hdistinct := (load.canonical_of_load hq).distinctKeys.get? hmapping
  unfold read_mapping at hcases
  cases mapping with
  | dict members =>
    simp only [bind_eq_ok, pure_eq_ok] at hcases
    obtain ⟨_, -, cases', hread, _, -, rfl⟩ := hcases
    unfold Distinct
    rw [keys_of_mapM hread]
    exact (Value.distinctKeys_dict.mp hdistinct).1
  | _ => cases hcases

/-- What an observation that was made says of its inputs. -/
structure Covers (C : TestObservationChecker) (E : Evidence) (o : Observation) : Prop where
  refs : o.refs = (C.selected ++ E.members).map fun i => (i.1, sha i.2)
  limits : o.selected_limits = C.limits
  request : o.request_sha256 = some E.request_sha256
  distinct : o.value.DistinctKeys

theorem distinctKeys_observation {o : Observation} (hreport : (o.report.getD .null).DistinctKeys)
    (hrefs : Distinct o.refs) (hrequirements : Distinct o.requirements) :
    o.value.DistinctKeys := by
  have hr : (Value.dict (o.refs.map fun r => (r.1, .str r.2))).DistinctKeys := by
    rw [Value.distinctKeys_dict]
    refine ⟨hrefs.map_snd _, ?_⟩
    intro m hm
    obtain ⟨r, -, rfl⟩ := List.mem_map.mp hm
    exact .str _
  have hq : (Value.dict (o.requirements.map fun r => (r.1, requirementValue r.2))).DistinctKeys := by
    rw [Value.distinctKeys_dict]
    refine ⟨hrequirements.map_snd _, ?_⟩
    intro m hm
    obtain ⟨r, -, rfl⟩ := List.mem_map.mp hm
    simp [requirementValue, Distinct]
  have hi : ∀ n, (intOrNull n).DistinctKeys := by
    intro n
    cases n <;> simp [intOrNull]
  have hc : o.costs.DistinctKeys := by
    simp [Observation.costs, Distinct, hi]
  have hl : o.selected_limits.value.DistinctKeys := by
    simp [Limits.value, Limits.members, Distinct]
  unfold Observation.value
  cases o.request_sha256 with
  | none =>
    simp [Observation.said, SCOPE, FLAGS, identity, Distinct, hreport, hr, hq, hc, hl]
  | some s =>
    simp [Observation.said, SCOPE, FLAGS, identity, Distinct, hreport, hr, hq, hc, hl]

/-- The names of what an observation refers to. -/
def INPUTS : List Str :=
  ["selection_bytes", "requirements_bytes", "runner_bytes", "preview_bytes", "start_bytes",
   "result_bytes", "stdout_bytes", "stderr_bytes", "accounting_snapshot_bytes"]

theorem covers_of_check {C : TestObservationChecker} {E : Evidence} {o : Observation}
    (h : C.check E = .ok o) (hs : o.state ≠ .UNKNOWN) : Covers C E o := by
  unfold TestObservationChecker.check at h
  obtain ⟨count, -, h⟩ := attempt_eq_ok h hs
  obtain ⟨_, -, h⟩ := attempt_eq_ok h hs
  obtain ⟨report, hreport, h⟩ := attempt_eq_ok h hs
  obtain ⟨_, -, h⟩ := attempt_eq_ok h hs
  cases h
  refine ⟨rfl, rfl, rfl, distinctKeys_observation ?_ ?_ ?_⟩
  · exact (load.canonical_of_load (read_report_value hreport)).distinctKeys
  · show INPUTS.Nodup
    decide
  · show Distinct (C.selection.requirement_cases.map fun c => (c.1, (c.2, c.2.all fun id =>
      (report.events.find? fun e => e.id = id).any fun e => e.outcome = .success)))
    unfold Distinct
    rw [List.map_map]
    exact distinct_requirements C

/-! ## Two observations with one digest -/

theorem get?_of_normalize_eq {v w : Value} (hv : v.DistinctKeys) (hw : w.DistinctKeys)
    (h : v.normalize = w.normalize) (k : Str) :
    (v.get? k).map Value.normalize = (w.get? k).map Value.normalize := by
  rw [← Value.get?_normalize hv, h, Value.get?_normalize hw]

theorem get?_refs (o : Observation) :
    o.value.get? "refs" = some (.dict (o.refs.map fun r => (r.1, .str r.2))) := by
  unfold Observation.value
  rw [Value.get?_dict]
  simp [Observation.said]

theorem get?_limits (o : Observation) :
    o.value.get? "selected_limits" = some o.selected_limits.value := by
  unfold Observation.value
  rw [Value.get?_dict]
  simp [Observation.said]

theorem get?_request (o : Observation) :
    o.value.get? "request_sha256" = o.request_sha256.map .str := by
  unfold Observation.value
  rw [Value.get?_dict]
  cases o.request_sha256 with
  | none => simp [Observation.said, SCOPE, FLAGS]
  | some s => simp [Observation.said, SCOPE, FLAGS]

/-! ## What a digest covers -/

/-- What a link was: all evidence, what was selected, and the limits. -/
@[ext] structure Inputs where
  evidence : Evidence
  selection_bytes : ByteArray
  requirements_bytes : ByteArray
  runner_bytes : ByteArray
  limits : Limits
deriving DecidableEq

def Link.inputs (l : Link) : Inputs where
  evidence := l.evidence
  selection_bytes := l.checker.selection_bytes
  requirements_bytes := l.checker.requirements_bytes
  runner_bytes := l.checker.runner_bytes
  limits := l.checker.limits

/-- What is hashed of a link: its bytes, and its observation. -/
def Hashed (l : Link) (data : ByteArray) : Prop :=
  data ∈ l.raws ∨ ∃ observed, l.checker.check l.evidence = .ok observed ∧ raw observed.value = .ok data

/-- No two different bytes of the two chains have one digest. -/
def Injective (links links' : List Link) : Prop :=
  ∀ l ∈ links, ∀ l' ∈ links', ∀ data data', Hashed l data → Hashed l' data' →
    sha data = sha data' → data = data'

theorem limits_eq {a b : Limits} (h : a.value.normalize = b.value.normalize) : a = b := by
  have hd : ∀ l : Limits, l.value.DistinctKeys := by
    intro l
    simp [Limits.value, Limits.members, Distinct]
  have hget := get?_of_normalize_eq (hd a) (hd b) h
  have hi := hget "input_bytes"
  have hc := hget "cases"
  have hr := hget "requirements"
  have ht := hget "retained_bytes"
  simp [Limits.value, Limits.members] at hi hc hr ht
  cases a
  cases b
  simp_all

/-- The bytes of a link under a name. -/
def Link.inputNamed (l : Link) (k : Str) : Option ByteArray :=
  (l.checker.selected ++ l.evidence.members).lookup k

theorem lookup_inputs {l : Link} {k : Str} {a : ByteArray} (h : l.inputNamed k = some a) :
    ((l.checker.selected ++ l.evidence.members).map
      ((fun r => (r.1, Value.str r.2)) ∘ fun i => (i.1, sha i.2))).lookup k = some (.str (sha a)) := by
  show ((l.checker.selected ++ l.evidence.members).map fun m => (m.1, Value.str (sha m.2))).lookup k =
    some (.str (sha a))
  unfold Link.inputNamed at h
  rw [lookup_map_snd fun data => Value.str (sha data), h]
  rfl

/-- Two observations that are the same value are of the same inputs. -/
theorem Covers.inputs_eq {l l' : Link} {o o' : Observation} (h : Covers l.checker l.evidence o)
    (h' : Covers l'.checker l'.evidence o') (hnormal : o.value.normalize = o'.value.normalize)
    (hinj : ∀ a ∈ l.raws, ∀ a' ∈ l'.raws, sha a = sha a' → a = a') : l.inputs = l'.inputs := by
  have hget := get?_of_normalize_eq h.distinct h'.distinct hnormal
  have hrequest : l.evidence.request_sha256 = l'.evidence.request_sha256 := by
    have hr := hget "request_sha256"
    rw [get?_request, get?_request, h.request, h'.request] at hr
    simpa using hr
  have hlimits : l.checker.limits = l'.checker.limits := by
    have hl := hget "selected_limits"
    rw [get?_limits, get?_limits, h.limits, h'.limits] at hl
    exact limits_eq (Option.some.inj hl)
  have hrefs := hget "refs"
  have hd := h.distinct.get? (get?_refs o)
  have hd' := h'.distinct.get? (get?_refs o')
  rw [get?_refs, get?_refs] at hrefs
  have hat := get?_of_normalize_eq hd hd' (Option.some.inj hrefs)
  rw [h.refs, h'.refs] at hat
  have hpick : ∀ k a a', l.inputNamed k = some a → l'.inputNamed k = some a' → a = a' := by
    intro k a a' ha ha'
    have hk := hat k
    rw [Value.get?_dict, Value.get?_dict, List.map_map, List.map_map, lookup_inputs ha,
      lookup_inputs ha'] at hk
    refine hinj a ?_ a' ?_ (by simpa using hk)
    · exact List.mem_map.mpr ⟨_, mem_of_lookup ha, rfl⟩
    · exact List.mem_map.mpr ⟨_, mem_of_lookup ha', rfl⟩
  have hselection := hpick "selection_bytes" _ _ rfl rfl
  have hrequirements := hpick "requirements_bytes" _ _ rfl rfl
  have hrunner := hpick "runner_bytes" _ _ rfl rfl
  have hpreview := hpick "preview_bytes" _ _ rfl rfl
  have hstart := hpick "start_bytes" _ _ rfl rfl
  have hresult := hpick "result_bytes" _ _ rfl rfl
  have hstdout := hpick "stdout_bytes" _ _ rfl rfl
  have hstderr := hpick "stderr_bytes" _ _ rfl rfl
  have hsnapshot := hpick "accounting_snapshot_bytes" _ _ rfl rfl
  have hevidence : l.evidence = l'.evidence :=
    Evidence.ext hpreview hstart hresult hstdout hstderr hsnapshot hrequest
  exact Inputs.ext hevidence hselection hrequirements hrunner hlimits

/-! ## The chain -/

/-- The link is bound to the head before it, and makes the head after it. -/
def Bound (task_bytes : ByteArray) (before : Option Str) (l : Link) (after : Str) : Prop :=
  ∃ observed revision bound expected b, l.checker.check l.evidence = .ok observed ∧
    observed.state ≠ .UNKNOWN ∧ preview_binding l.evidence.preview_bytes = .ok bound ∧
    binding task_bytes revision before = .ok expected ∧ raw bound = .ok b ∧ raw expected = .ok b ∧
    digest observed.value = .ok after

theorem bound_of_check_link {task_bytes : ByteArray} {s s' : Progress} {l : Link}
    (h : check_link task_bytes s l = .ok s') :
    ∃ after, s'.prior = some after ∧ Bound task_bytes s.prior l after := by
  unfold check_link at h
  simp only [bind_eq_ok, exists_unit, needOr_eq_ok, pure_eq_ok] at h
  obtain ⟨observed, hobserved, hstate, bound, hbound, expected, hexpected, b, hb, b', hb', rfl,
    _, -, -, after, hafter, rfl⟩ := h
  refine ⟨after, rfl, observed, _, bound, expected, b, hobserved, ?_, hbound, hexpected, hb, hb',
    hafter⟩
  intro hunknown
  rw [hunknown] at hstate
  simp at hstate

theorem binding_eq_ok {task_bytes : ByteArray} {revision : Nat} {before : Option Str} {v : Value}
    (h : binding task_bytes revision before = .ok v) : v.DistinctKeys ∧
      v.get? "predecessor_observation_sha256" = some (managed_capacity.textOrNull before) := by
  unfold binding at h
  simp only [bind_eq_ok, exists_unit, pure_eq_ok] at h
  obtain ⟨-, -, -, rfl⟩ := h
  refine ⟨?_, by simp⟩
  cases before <;> simp [managed_capacity.textOrNull, Distinct]

/-- The binding of a link names the head before it. -/
theorem before_eq {task_bytes : ByteArray} {revision revision' : Nat} {before before' : Option Str}
    {v v' : Value} {b : ByteArray} (h : binding task_bytes revision before = .ok v)
    (h' : binding task_bytes revision' before' = .ok v') (hb : raw v = .ok b)
    (hb' : raw v' = .ok b) : before = before' := by
  obtain ⟨hd, hget⟩ := binding_eq_ok h
  obtain ⟨hd', hget'⟩ := binding_eq_ok h'
  have hnormal := normalize_eq_of_raw hd hd' hb hb'
  have heq := get?_of_normalize_eq hd hd' hnormal "predecessor_observation_sha256"
  rw [hget, hget'] at heq
  cases before <;> cases before' <;> simp_all [managed_capacity.textOrNull]

theorem digest_eq_ok {v : Value} {d : Str} (h : digest v = .ok d) : ∃ b, raw v = .ok b ∧ d = sha b := by
  unfold digest at h
  simp only [bind_eq_ok, pure_eq_ok] at h
  obtain ⟨b, hb, rfl⟩ := h
  exact ⟨b, hb, rfl⟩

/-- The head after a link is of that link, on one head before it. -/
theorem Bound.back {task_bytes : ByteArray} {before before' : Option Str} {l l' : Link} {after : Str}
    (h : Bound task_bytes before l after) (h' : Bound task_bytes before' l' after)
    (hinj : ∀ data data', Hashed l data → Hashed l' data' → sha data = sha data' → data = data') :
    before = before' ∧ l.inputs = l'.inputs := by
  obtain ⟨o, _, bound, expected, b, ho, hstate, hbound, hexpected, hb, he, hafter⟩ := h
  obtain ⟨o', _, bound', expected', b', ho', hstate', hbound', hexpected', hb', he', hafter'⟩ := h'
  obtain ⟨d, hd, hsha⟩ := digest_eq_ok hafter
  obtain ⟨d', hd', hsha'⟩ := digest_eq_ok hafter'
  have hsame : d = d' :=
    hinj d d' (.inr ⟨o, ho, hd⟩) (.inr ⟨o', ho', hd'⟩) (hsha.symm.trans hsha')
  subst hsame
  have hc := covers_of_check ho hstate
  have hc' := covers_of_check ho' hstate'
  have hinputs : l.inputs = l'.inputs :=
    hc.inputs_eq hc' (normalize_eq_of_raw hc.distinct hc'.distinct hd hd')
      fun a ha a' ha' => hinj a a' (.inl ha) (.inl ha')
  have hpreview : l.evidence.preview_bytes = l'.evidence.preview_bytes :=
    congrArg (fun i => i.evidence.preview_bytes) hinputs
  rw [hpreview, hbound', Except.ok.injEq] at hbound
  subst hbound
  rw [hb', Except.ok.injEq] at hb
  subst hb
  exact ⟨before_eq hexpected hexpected' he he', hinputs⟩

/-- The digest of the last observation. -/
def headOf (observations : List Row) : Option Str :=
  observations.getLast?.map Row.observation_sha256

theorem check_link_rows {task_bytes : ByteArray} {s s' : Progress} {l : Link}
    (h : check_link task_bytes s l = .ok s') : ∃ row, s'.observations = s.observations ++ [row] ∧
      s'.prior = some row.observation_sha256 := by
  unfold check_link at h
  simp only [bind_eq_ok, exists_unit, needOr_eq_ok, pure_eq_ok] at h
  obtain ⟨observed, -, -, _, -, _, -, _, -, _, -, -, _, -, -, after, -, rfl⟩ := h
  exact ⟨_, rfl, rfl⟩

theorem prior_eq {task_bytes : ByteArray} {links : List Link} {s : Progress}
    (h : links.foldlM (check_link task_bytes) ⟨none, none, []⟩ = .ok s) :
    s.prior = headOf s.observations := by
  refine foldlM_invariant (P := fun s : Progress => s.prior = headOf s.observations)
    (fun s l s' _ hl => ?_) rfl h
  obtain ⟨row, hrows, hprior⟩ := check_link_rows hl
  rw [hprior, headOf, hrows, List.getLast?_append]
  rfl

/-- A chain that is accepted is a chain of bound links. The head of it is of
its last link, on the head that the destination selected. -/
theorem exists_last {task_bytes : ByteArray} {links : List Link} {task_sha256 : Str}
    {destination : Option Str} {r : Succession} {result_sha256 : Str}
    (h : check_chain links task_bytes task_sha256 destination = .ok (r, result_sha256)) :
    ∃ first last after, links = first ++ [last] ∧
      chain.Chained (Bound task_bytes) first destination ∧
      Bound task_bytes destination last after ∧ headOf r.observations = some after := by
  unfold check_chain at h
  simp only [bind_eq_ok, exists_unit, needOr_eq_ok, pure_eq_ok] at h
  obtain ⟨_, -, -, hlength, total, -, s, hs, hdestination, _, -, heq⟩ := h
  cases heq
  obtain ⟨first, last, rfl⟩ : ∃ first last, links = first ++ [last] := by
    rcases List.eq_nil_or_concat' links with rfl | hlinks
    · simp at hlength
    · exact hlinks
  rw [List.foldlM_append, bind_eq_ok] at hs
  obtain ⟨t, ht, hs⟩ := hs
  rw [List.foldlM_cons, bind_eq_ok] at hs
  obtain ⟨s', hlast, hs⟩ := hs
  rw [List.foldlM_nil, pure_eq_ok] at hs
  subst hs
  obtain ⟨row, hrows, hprior⟩ := check_link_rows hlast
  obtain ⟨after, hafter, hbound⟩ := bound_of_check_link hlast
  have hparent : destination = t.prior := by
    rw [hdestination.1, parentOf, hrows, List.dropLast_concat, prior_eq ht]
    rfl
  refine ⟨first, last, after, rfl, ?_, hparent ▸ hbound, ?_⟩
  · rw [hparent]
    exact chain.chained_of_foldlM (fun s l s' hl => bound_of_check_link hl) rfl ht
  · dsimp only
    rw [headOf, hrows, List.getLast?_append]
    rw [hprior] at hafter
    simpa using hafter

/-- Succession chains of one task are unique: the digest of the last
observation is of one chain, link by link, and of one predecessor. -/
structure Unique (task_bytes : ByteArray) : Prop where
  links : ∀ links links' task_sha256 task_sha256' destination destination' r r' d d',
    check_chain links task_bytes task_sha256 destination = .ok (r, d) →
    check_chain links' task_bytes task_sha256' destination' = .ok (r', d') →
    headOf r.observations = headOf r'.observations → Injective links links' →
    links.map Link.inputs = links'.map Link.inputs ∧ destination = destination'
  /-- A link that is reordered, dropped, inserted, repeated or changed changes the head. -/
  changed : ∀ links links' task_sha256 task_sha256' destination destination' r r' d d',
    check_chain links task_bytes task_sha256 destination = .ok (r, d) →
    check_chain links' task_bytes task_sha256' destination' = .ok (r', d') →
    Injective links links' → links.map Link.inputs ≠ links'.map Link.inputs →
    headOf r.observations ≠ headOf r'.observations

theorem links_eq {task_bytes : ByteArray} {links links' : List Link}
    {task_sha256 task_sha256' : Str} {destination destination' : Option Str} {r r' : Succession}
    {d d' : Str} (h : check_chain links task_bytes task_sha256 destination = .ok (r, d))
    (h' : check_chain links' task_bytes task_sha256' destination' = .ok (r', d'))
    (hhead : headOf r.observations = headOf r'.observations) (hinj : Injective links links') :
    links.map Link.inputs = links'.map Link.inputs ∧ destination = destination' := by
  obtain ⟨first, last, after, rfl, hchain, hbound, hafter⟩ := exists_last h
  obtain ⟨first', last', after', rfl, hchain', hbound', hafter'⟩ := exists_last h'
  have hsame : after = after' := by
    rw [hafter, hafter'] at hhead
    exact Option.some.inj hhead
  subst hsame
  have hback : ∀ l ∈ first ++ [last], ∀ l' ∈ first' ++ [last'], ∀ before before' after,
      Bound task_bytes before l after → Bound task_bytes before' l' after →
      before = before' ∧ l.inputs = l'.inputs := fun l hl l' hl' before before' after hb hb' =>
    hb.back hb' (hinj l hl l' hl')
  obtain ⟨rfl, hinputs⟩ := hback last (by simp) last' (by simp) _ _ _ hbound hbound'
  have hfirst := hchain.content_eq hchain' fun l hl l' hl' =>
    hback l (List.mem_append_left _ hl) l' (List.mem_append_left _ hl')
  refine ⟨?_, rfl⟩
  rw [List.map_append, List.map_append, hfirst, List.map_singleton, List.map_singleton, hinputs]

theorem succession_is_unique (task_bytes : ByteArray) : Unique task_bytes where
  links _ _ _ _ _ _ _ _ _ _ h h' hhead hinj := links_eq h h' hhead hinj
  changed _ _ _ _ _ _ _ _ _ _ h h' hinj hne hhead := hne (links_eq h h' hhead hinj).1

end vfy.service_test_successor
