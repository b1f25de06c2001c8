-- Why an evaluation holds: a rule is unsettled exactly when it notes a cause,
-- and the reasons of a HOLD are the causes that a full traversal meets, unless an
-- operand is the very object that the evaluator returns for what is unsettled.
import VerifyRun.SettledDecisions
import VerifyRun.Lib.FirstMet

namespace vfy.gate

open python keys outcomes expr schema firstmet

/-! ## The causes of a rule -/

/-- What the evaluation of a rule notes: nothing where the rule is settled, the
first id that is not ok where required evidence is not, and otherwise the
causes of a traversal of the whole tree, each where it is first met. -/
structure Notes (w : World) (clause : Clause) (state : State) (causes : List Cause) : Prop where
  unsettled_iff : state = .unsettled ↔ causes ≠ []
  required : ∀ before id after, clause.rule.needs = before ++ id :: after →
    (∀ b ∈ before, w.ok b = true) → w.ok id = false → causes = [.evidence_unsettled id]
  traversed : (∀ id ∈ clause.rule.needs, w.ok id = true) → FirstMet (w.causes clause.tree) causes

/-- How the reasons of a result come from the rules, from one of them on. -/
inductive Explains (context : Context) (default_outcome outcome : Str) (reasons : List Value) :
    List Value → Prop where
  | default : outcome = default_outcome →
      reasons = [reason (codeIn DEFAULT_CODES default_outcome) DEFAULT_MESSAGE none none] →
      Explains context default_outcome outcome reasons []
  | matched (rule : Rule) (v : Value) (rest : List Value) : rule.Of v →
      rule_state context v = .ok (.true, []) → outcome = rule.outcome →
      reasons = [reason (codeIn RULE_CODES rule.outcome) rule.reason (some rule.id) none] →
      Explains context default_outcome outcome reasons (v :: rest)
  | held (rule : Rule) (v : Value) (rest : List Value) (causes : List Cause) : rule.Of v →
      rule_state context v = .ok (.unsettled, causes) → causes ≠ [] → outcome = lit "HOLD" →
      reasons = causes.map (fun cause =>
        reason cause.code cause.message (some rule.id) cause.evidence_id) →
      Explains context default_outcome outcome reasons (v :: rest)
  | passed (v : Value) (rest : List Value) : rule_state context v = .ok (.false, []) →
      Explains context default_outcome outcome reasons rest →
      Explains context default_outcome outcome reasons (v :: rest)

section Causes

variable {w : World}

/-- A rule that the object touches has other causes, and they are those that a
traversal of the whole tree meets without the object. -/
def World.Hears (w : World) (clause : Clause) : Prop :=
  w.Touches clause → w.causes clause.tree ≠ [] ∧
    FirstMet (w.plain.causes clause.tree) ((w.causes clause.tree).foldl noted [])

theorem World.Hears.sees {clause : Clause} (h : w.Hears clause) : ¬ w.Overlooks clause :=
  fun ⟨htouches, hnil⟩ => (h htouches).1 hnil

/-- A rule that is settled notes nothing. -/
theorem stateCauses_eq_nil {clause : Clause} (h : w.state clause ≠ .unsettled) :
    w.stateCauses clause = [] := by
  by_cases hall : clause.rule.needs.all w.ok = true
  · rw [World.state, if_pos hall, ne_eq, denote_unsettled_iff, not_or, not_not] at h
    rw [stateCauses_of_ok hall, h.2]
    rfl
  · exact absurd (if_neg hall) h

/-- Where the object is heard, the evaluation of a rule notes its causes. -/
theorem notes_of_hears {clause : Clause} (h : w.Hears clause) :
    Notes w.plain clause (w.state clause) (w.stateCauses clause) := by
  refine ⟨⟨fun hu => stateCauses_ne_nil hu h.sees, fun hne => ?_⟩, ?_, ?_⟩
  · by_contra hsettled
    exact hne (stateCauses_eq_nil hsettled)
  · intro before id after hneeds hbefore hid
    have hfind : clause.rule.needs.find? (fun id => !w.ok id) = some id := by
      rw [List.find?_eq_some_iff_append]
      have hok : w.ok id = false := hid
      refine ⟨by simp [hok], before, after, hneeds, ?_⟩
      intro b hb
      have hb : w.ok b = true := hbefore b hb
      simp [hb]
    rw [World.stateCauses, hfind]
  · intro hall
    have hok : clause.rule.needs.all w.ok = true := List.all_eq_true.mpr hall
    rw [stateCauses_of_ok hok]
    by_cases hmeets : w.Meets clause.tree
    · exact (h ⟨hok, hmeets⟩).2
    · rw [(denote_plain clause.tree hmeets).2]
      exact firstMet_foldl _

/-- Where the evaluation of a rule notes its causes, the object is heard. -/
theorem hears_of_notes {clause : Clause}
    (h : Notes w.plain clause (w.state clause) (w.stateCauses clause)) : w.Hears clause := by
  intro htouches
  have htraversed := h.traversed (List.all_eq_true.mp htouches.1)
  have hne := h.unsettled_iff.mp (state_of_touches htouches)
  rw [stateCauses_of_ok htouches.1] at htraversed hne
  refine ⟨fun hnil => hne ?_, htraversed⟩
  rw [hnil]
  rfl

/-- The reasons of a decision come from the rules. -/
theorem explains_decision {context : Context} (h : Models context w) {clauses : List Clause}
    {rules : List Value} (hr : List.Forall₂ Clause.Of clauses rules) (hsees : w.Sees clauses)
    (default_outcome : Str) :
    Explains context default_outcome ((w.decision clauses).outcome default_outcome)
      ((w.decision clauses).reasons default_outcome) rules := by
  induction hr with
  | nil => exact .default rfl rfl
  | @cons clause v clauses rules hv _ ih =>
    have hstate := rule_state_eq h hv
    rw [World.decision]
    cases hs : w.state clause with
    | true =>
      rw [hs, stateCauses_eq_nil (by simp [hs])] at hstate
      exact .matched clause.rule v rules hv.rule hstate rfl rfl
    | unsettled =>
      rw [hs] at hstate
      exact .held clause.rule v rules _ hv.rule hstate
        (stateCauses_ne_nil hs (hsees clause (reaches_head clause clauses))) rfl rfl
    | false =>
      rw [hs, stateCauses_eq_nil (by simp [hs])] at hstate
      exact .passed v rules hstate (ih (hsees.tail hs))

end Causes

/-! ## Prepared evaluations -/

/-- The reasons of a HOLD are complete: every rule is unsettled exactly when it notes a
cause, what it notes is what a traversal of the whole expression meets in the world of
the inputs, and the result cites nothing else. -/
def HoldsForItsCauses (objects : Objects) (P : rulebook.LoadedRulebook)
    (V candidate snapshot : Value) (context : Context) (default_outcome : Str) : Prop :=
  (∀ clause rule, rule ∈ membersOf V "rules" → clause.Of rule → ∃ state causes,
    rule_state context rule = .ok (state, causes) ∧
    Notes (World.of V candidate snapshot) clause state causes) ∧
  ∃ r d reasons, evaluateWith objects P candidate snapshot REGISTRY = .ok r ∧ r.value = .ok d ∧
    d.get? "reasons" = some (.list (reasons.map Value.normalize)) ∧
    Explains context default_outcome r.outcome reasons (membersOf V "rules")

/-- The reasons of a HOLD are complete exactly where every rule of the rulebook hears
the object `UNSETTLED`: no operand of it is that very object, or it has other causes,
and without the object a traversal would meet no more. -/
theorem hold_reasons_are_the_causes_met {v : Value} (hv : v.DistinctKeys)
    {P : rulebook.LoadedRulebook} (hpin : rulebook.pin v REGISTRY = .ok P) (objects : Objects)
    {members : List (Str × Value)} {snapshot : Value} (hc : (Value.dict members).DistinctKeys)
    (hs : snapshot.DistinctKeys)
    (hprep : prepare P (.dict members) snapshot REGISTRY = .ok none) :
    ∃ V context default_outcome, P.value = .ok V ∧
      contextWith objects V (.dict members) snapshot = .ok context ∧
      V.get? "default_outcome" = some (.str default_outcome) ∧
      (∀ rule ∈ membersOf V "rules", ∃ clause : Clause, clause.Of rule) ∧
      (HoldsForItsCauses objects P V (.dict members) snapshot context default_outcome ↔
        ∀ clause rule, rule ∈ membersOf V "rules" → clause.Of rule →
          (World.ofObjects objects V (.dict members) snapshot).Hears clause) := by
  have hV := readsBack_of_pin hv hpin
  obtain ⟨clauses, hready⟩ := ready_of_prepare hV hprep
  obtain ⟨o, ho, hdefault⟩ := rulebook_default_outcome hV.valid
  have hmem : lit o ∈ [lit "BLOCK", lit "HOLD"] := by simpa using ho
  obtain ⟨context, hcontext, -, hmodels⟩ := context_models objects hV.valid hc hready.snapshot hs
  refine ⟨v.normalize, context, lit o, hV.value, hcontext, hdefault, ?_, ?_, fun hhears => ⟨?_, ?_⟩⟩
  · intro rule hrule
    obtain ⟨clause, -, hclause⟩ := forall₂_mem hready.rules.flip hrule
    exact ⟨clause, hclause⟩
  · rintro ⟨hnotes, -⟩ clause rule hrule hof
    obtain ⟨state, causes, hstate, hclause⟩ := hnotes clause rule hrule hof
    rw [rule_state_eq hmodels hof, Except.ok.injEq, Prod.mk.injEq] at hstate
    obtain ⟨rfl, rfl⟩ := hstate
    rw [← plain_ofObjects objects] at hclause
    exact hears_of_notes hclause
  · intro clause rule hrule hof
    refine ⟨_, _, rule_state_eq hmodels hof, ?_⟩
    rw [← plain_ofObjects objects]
    exact notes_of_hears (hhears clause rule hrule hof)
  · have hsees : (World.ofObjects objects v.normalize (.dict members) snapshot).Sees clauses := by
      intro c hreaches
      obtain ⟨before, after, hsplit, -⟩ := hreaches
      have hmemc : c ∈ clauses := by simp [hsplit]
      obtain ⟨rule, hrule, hof⟩ := forall₂_mem hready.rules hmemc
      exact (hhears c rule hrule hof).sees
    obtain ⟨r, hr, houtcome, -, hvalue⟩ :=
      evaluateWith_returns objects hV hc hs hprep hready hdefault hmem rfl hsees
    obtain ⟨-, -, -, hreasons⟩ := documentOf_members r.outcome
      (((World.ofObjects objects v.normalize (.dict members) snapshot).decision clauses).reasons (lit o))
      ((World.ofObjects objects v.normalize (.dict members) snapshot).decision clauses).matched_rule
      (some ((World.ofObjects objects v.normalize (.dict members) snapshot).trace 0 clauses))
    refine ⟨r, _, _, hr, hvalue, hreasons, ?_⟩
    rw [houtcome]
    exact explains_decision hmodels hready.rules hsees (lit o)

/-- A snapshot where the evidence that a rule asks for is missing. -/
theorem hold_reasons_presentReport : ∃ P V context default_outcome,
    rulebook.pin (rulebook.rulebookWith presentReport) REGISTRY = .ok P ∧
      HoldsForItsCauses .loaded P V (.dict smallCandidate)
        (snapshotWith [itemWith "report" "missing"]) context default_outcome := by
  obtain ⟨P, hP, -⟩ := rulebook.pin_rulebookWith encodable_presentReport
  have hprep := @prepare_presentReport P hP [("report", "missing")] (by simp)
  have hsnapshot : (snapshotWith [itemWith "report" "missing"]).DistinctKeys :=
    distinctKeys_snapshotWith (by simp [itemWith, Distinct])
  obtain ⟨V, context, default_outcome, -, -, -, -, hiff⟩ :=
    hold_reasons_are_the_causes_met
      (rulebook.canonical_rulebookWith encodable_presentReport).distinctKeys hP .loaded
      canonical_smallCandidate.distinctKeys hsnapshot hprep
  exact ⟨P, V, context, default_outcome, hP, hiff.mpr fun clause _ _ _ htouches =>
    absurd htouches (not_touches_of _ _ _ clause)⟩

/-- Evidence that is the very object `UNSETTLED`: the rule is unsettled, and notes no
cause. -/
theorem unsettled_without_a_cause : ∃ P V context rule,
    rulebook.pin (rulebook.rulebookWith reportUnsettled) REGISTRY = .ok P ∧ P.value = .ok V ∧
      prepare P (.dict smallCandidate) snapshotSaying REGISTRY = .ok none ∧
      contextWith objectsSaying V (.dict smallCandidate) snapshotSaying = .ok context ∧
      rule ∈ membersOf V "rules" ∧ rule_state context rule = .ok (.unsettled, []) := by
  obtain ⟨P, hP, -⟩ := rulebook.pin_rulebookWith encodable_reportUnsettled
  have hV := readsBack_saying hP
  obtain ⟨context, hcontext, -, hmodels⟩ := context_models objectsSaying hV.valid
    canonical_smallCandidate.distinctKeys isSnapshot_snapshotSaying distinctKeys_snapshotSaying
  obtain ⟨rule, hrule, hof⟩ := forall₂_mem ready_saying.rules (List.mem_singleton.mpr rfl)
  have hoverlooks := overlooks_saying (rulebook.rulebookWith reportUnsettled)
  refine ⟨P, _, context, rule, hP, hV.value, prepare_saying hP, hcontext, hrule, ?_⟩
  rw [rule_state_eq hmodels hof, state_of_touches hoverlooks.1, stateCauses_of_overlooks hoverlooks]

end vfy.gate
