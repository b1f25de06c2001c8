-- What a prepared evaluation decides: it is the reference walk over the
-- three-valued denotations, unless an operand is the very object that the
-- evaluator returns for what is unsettled.
import VerifyRun.GateLaws

namespace vfy.gate

open python keys outcomes expr schema

/-! ## Pinned rulebooks -/

/-- The value that a pinned rulebook reads back as. -/
structure ReadsBack (P : rulebook.LoadedRulebook) (V : Value) : Prop where
  value : P.value = .ok V
  valid : IsRulebook V
  canonical : V.Canonical

theorem readsBack_of_pin {v : Value} (hv : v.DistinctKeys) {P : rulebook.LoadedRulebook}
    (h : rulebook.pin v REGISTRY = .ok P) : ReadsBack P v.normalize := by
  obtain ⟨hvalid, -, hcanonical, -, -⟩ := rulebook.pin_eq_ok.mp h
  have hc := canon.canonical_of_encode hv (canon.canonicalize_eq_encode v ▸ hcanonical)
  refine ⟨rulebook.value_of_pin hv h, ?_, hc.normalize⟩
  rw [← validate_rulebook_iff, validate_normalize hv]
  exact hvalid

/-! ## Preparation -/

theorem caught_eq_none {x : Except Exn Unit} : caught x = .ok none ↔ x = .ok () := by
  unfold caught
  split <;> simp

theorem first_eq_none {α : Type} {step : α → Except Exn (Option Value)} {l : List α} :
    first step l = .ok none ↔ ∀ a ∈ l, step a = .ok none := by
  induction l with
  | nil => simp [first]
  | cons a l ih =>
    rw [first, bind_eq_ok]
    constructor
    · rintro ⟨o, ho, hrest⟩
      cases o with
      | some reason => simp at hrest
      | none =>
        intro b hb
        rcases List.mem_cons.mp hb with rfl | hb
        · exact ho
        · exact ih.mp hrest b hb
    · intro h
      exact ⟨none, h a (by simp), ih.mpr fun b hb => h b (by simp [hb])⟩

theorem input_failure_eq_none {registry : Registry} {value : Value} {schema_id : Str} :
    input_failure registry value schema_id = .ok none ↔
      schema.validate value schema_id registry = .ok () := by
  unfold input_failure
  rw [bind_eq_ok, ← caught_eq_none]
  constructor
  · rintro ⟨o, ho, hrest⟩
    cases o with
    | none => exact ho
    | some f => simp at hrest
  · intro h
    exact ⟨none, h, rfl⟩

/-- A text parses to a tree. -/
def ParsesTo (source : Str) (e : Expr) : Prop :=
  ∃ parsed, parse_expression (.str source) = .ok parsed ∧ Parsed source e parsed

theorem clause_of_rule_failure {P : rulebook.LoadedRulebook} {v : Value} (hv : IsRule v)
    (h : rule_failure P v = .ok none) : ∃ clause : Clause, clause.Of v := by
  obtain ⟨rule, hrule⟩ := rule_of_isRule hv
  unfold rule_failure at h
  rw [getItem_eq_ok.mpr hrule.when_, ok_bind, bind_eq_ok] at h
  obtain ⟨o, ho, hrest⟩ := h
  cases o with
  | some f =>
    simp only [getItem_eq_ok.mpr hrule.id, ok_bind, string, pure_eq_ok, reduceCtorEq] at hrest
  | none =>
    obtain ⟨parsed, hparse, -⟩ := bind_eq_ok.mp (caught_eq_none.mp ho)
    rcases parse_expression_cases rule.when_ with ⟨e, parsed', hok, hparsed⟩ | ⟨x, hx, -⟩ | ⟨hx, -⟩
    · exact ⟨⟨rule, e⟩, hrule, parsed', hok, hparsed⟩
    · rw [hx] at hparse
      cases hparse
    · rw [hx] at hparse
      cases hparse

/-- What passed preparation. -/
structure Ready (V candidate snapshot : Value) (clauses : List Clause) : Prop where
  candidate : schema.validate candidate CANDIDATE_SCHEMA_ID REGISTRY = .ok ()
  snapshot : IsSnapshot snapshot
  rules : List.Forall₂ Clause.Of clauses (membersOf V "rules")

theorem forall₂_of_exists {α β : Type} {R : α → β → Prop} {bs : List β}
    (h : ∀ b ∈ bs, ∃ a, R a b) : ∃ as, List.Forall₂ R as bs := by
  induction bs with
  | nil => exact ⟨[], .nil⟩
  | cons b bs ih =>
    obtain ⟨a, ha⟩ := h b (by simp)
    obtain ⟨as, has⟩ := ih fun c hc => h c (by simp [hc])
    exact ⟨a :: as, .cons ha has⟩

theorem forall₂_mem {α β : Type} {R : α → β → Prop} {as : List α} {bs : List β}
    (h : List.Forall₂ R as bs) {a : α} (ha : a ∈ as) : ∃ b ∈ bs, R a b := by
  induction h with
  | nil => cases ha
  | @cons c b _ _ hcb _ ih =>
    rcases List.mem_cons.mp ha with rfl | ha
    · exact ⟨b, by simp, hcb⟩
    · obtain ⟨d, hd, hr⟩ := ih ha
      exact ⟨d, by simp [hd], hr⟩

theorem ready_of_prepare {P : rulebook.LoadedRulebook} {V candidate snapshot : Value}
    (hV : ReadsBack P V) (h : prepare P candidate snapshot REGISTRY = .ok none) :
    ∃ clauses, Ready V candidate snapshot clauses := by
  unfold prepare at h
  obtain ⟨o, hcandidate, h⟩ := bind_eq_ok.mp h
  cases o with
  | some reason => simp at h
  | none =>
    obtain ⟨o, hsnapshot, h⟩ := bind_eq_ok.mp h
    cases o with
    | some reason => simp at h
    | none =>
      obtain ⟨frozen_at, -, h⟩ := bind_eq_ok.mp h
      obtain ⟨w, -, h⟩ := bind_eq_ok.mp h
      obtain ⟨items, -, h⟩ := bind_eq_ok.mp h
      obtain ⟨o, -, h⟩ := bind_eq_ok.mp h
      cases o with
      | some reason => simp at h
      | none =>
        obtain ⟨applies, -, h⟩ := bind_eq_ok.mp h
        cases applies with
        | false => simp at h
        | true =>
          rw [if_pos rfl, hV.value, ok_bind] at h
          obtain ⟨rules, hrules, hall⟩ := rulebook_rules hV.valid
          rw [getItem_eq_ok.mpr hrules, ok_bind, show iterate (.list rules) = .ok rules from rfl,
            ok_bind, first_eq_none] at h
          have hsnap := (validate_snapshot_iff _).mp (input_failure_eq_none.mp hsnapshot)
          obtain ⟨clauses, hclauses⟩ := forall₂_of_exists (R := Clause.Of) fun v hv =>
            clause_of_rule_failure (hall v hv) (h v hv)
          refine ⟨clauses, input_failure_eq_none.mp hcandidate, hsnap, ?_⟩
          rw [membersOf, hrules]
          exact hclauses

/-! ## Evaluation is the reference walk -/

/-- Without the objects of the evaluator the world is that of inputs that were loaded. -/
theorem plain_ofObjects (objects : Objects) (V candidate snapshot : Value) :
    (World.ofObjects objects V candidate snapshot).plain = World.of V candidate snapshot := by
  have hsame : Objects.loaded.at = fun _ => false := by
    funext p
    unfold Objects.at
    cases p.root <;> rfl
  unfold World.of World.ofObjects World.plain
  rw [hsame]

/-- Inputs that were loaded hold no object of the evaluator. -/
theorem not_touches_of (V candidate snapshot : Value) (clause : Clause) :
    ¬ (World.of V candidate snapshot).Touches clause := by
  rw [← plain_ofObjects .loaded]
  rintro ⟨-, p, -, hsame, -⟩
  cases hsame

theorem sees_of (V candidate snapshot : Value) (clauses : List Clause) :
    (World.of V candidate snapshot).Sees clauses :=
  fun c _ h => not_touches_of V candidate snapshot c h.1

/-- A prepared evaluation gives the result of the walk in its world. -/
theorem evaluate_ready (objects : Objects) {P : rulebook.LoadedRulebook} {V snapshot : Value}
    {members : List (Str × Value)} {clauses : List Clause} (hV : ReadsBack P V)
    (hc : (Value.dict members).DistinctKeys) (hs : snapshot.DistinctKeys)
    (hprep : prepare P (.dict members) snapshot REGISTRY = .ok none)
    (h : Ready V (.dict members) snapshot clauses) {default_outcome : Str}
    (hdefault : V.get? "default_outcome" = some (.str default_outcome))
    (hmem : default_outcome ∈ [lit "BLOCK", lit "HOLD"]) {w : World}
    (hw : World.ofObjects objects V (.dict members) snapshot = w) :
    evaluateWith objects P (.dict members) snapshot REGISTRY =
      result REGISTRY ((w.decision clauses).outcome default_outcome)
        ((w.decision clauses).reasons default_outcome) (w.decision clauses).matched_rule
        (some (w.trace 0 clauses)) := by
  subst hw
  obtain ⟨context, hcontext, hrulebook, hmodels⟩ :=
    context_models objects hV.valid hc h.snapshot hs
  obtain ⟨rules, hrules, -⟩ := rulebook_rules hV.valid
  have hclauses := h.rules
  rw [membersOf, hrules] at hclauses
  obtain ⟨ms, rfl, -, -⟩ := (show ClosedObject _ _ snapshot from h.snapshot)
  unfold evaluateWith
  dsimp only
  rw [hprep, ok_bind]
  dsimp only
  rw [hV.value, ok_bind, hcontext, ok_bind, hrulebook, getItem_eq_ok.mpr hrules, ok_bind,
    show iterate (.list rules) = .ok rules from rfl, ok_bind,
    walk_eq hmodels (hrulebook.symm ▸ hdefault) hmem hclauses, List.nil_append]

/-- The rules that are ready can be written. -/
theorem Ready.writable {P : rulebook.LoadedRulebook} {V candidate snapshot : Value}
    {clauses : List Clause} (h : Ready V candidate snapshot clauses) (hV : ReadsBack P V) :
    ∀ c ∈ clauses, c.Writable := by
  intro c hmemc
  obtain ⟨rules, hrules, -⟩ := rulebook_rules hV.valid
  have hf := h.rules
  rw [membersOf, hrules] at hf
  obtain ⟨v, hv, hcv⟩ := forall₂_mem hf hmemc
  have hvc : v.Canonical := by
    have hlist := hV.canonical.get? hrules
    rw [Value.canonical_list] at hlist
    exact hlist v hv
  exact hcv.writable hvc

/-- Everything about a prepared evaluation: it returns the document of the
decision of the walk, where every rule that is reached has a cause. -/
theorem evaluateWith_returns (objects : Objects) {P : rulebook.LoadedRulebook}
    {V snapshot : Value} {members : List (Str × Value)} {clauses : List Clause}
    (hV : ReadsBack P V) (hc : (Value.dict members).DistinctKeys) (hs : snapshot.DistinctKeys)
    (hprep : prepare P (.dict members) snapshot REGISTRY = .ok none)
    (h : Ready V (.dict members) snapshot clauses) {default_outcome : Str}
    (hdefault : V.get? "default_outcome" = some (.str default_outcome))
    (hmem : default_outcome ∈ [lit "BLOCK", lit "HOLD"]) {w : World}
    (hw : World.ofObjects objects V (.dict members) snapshot = w) (hsees : w.Sees clauses) :
    ∃ r, evaluateWith objects P (.dict members) snapshot REGISTRY = .ok r ∧
      r.outcome = (w.decision clauses).outcome default_outcome ∧
      canon.canonicalize (documentOf r.outcome ((w.decision clauses).reasons default_outcome)
        (w.decision clauses).matched_rule (some (w.trace 0 clauses))) = .ok r.canonical ∧
      r.value = .ok (documentOf r.outcome ((w.decision clauses).reasons default_outcome)
        (w.decision clauses).matched_rule (some (w.trace 0 clauses))).normalize := by
  have hwritable := h.writable hV
  obtain ⟨hne, hsound, hmatched⟩ := decision_sound hwritable hsees default_outcome
  obtain ⟨o, ho, houtcome⟩ := @decision_outcome_mem w _ _ h.rules _ hmem
  have ho' : o ∈ ["ALLOW", "BLOCK", "HOLD", "ERROR"] := by
    clear * - ho
    simp only [List.mem_cons, List.not_mem_nil, or_false] at ho ⊢
    tauto
  rw [evaluate_ready objects hV hc hs hprep h hdefault hmem hw, houtcome]
  have htrace : ∀ lines ∈ some (w.trace 0 clauses), ∀ l ∈ lines, Encodable l := by
    simpa using @encodable_trace w _ hwritable 0
  obtain ⟨r, hr, hro, hcanon, hvalue⟩ := result_ok ho' hne hsound hmatched htrace
  exact ⟨r, hr, hro, hro ▸ hcanon, hro ▸ hvalue⟩

/-- The same, for inputs that were loaded. -/
theorem evaluate_returns {P : rulebook.LoadedRulebook} {V snapshot : Value}
    {members : List (Str × Value)} {clauses : List Clause} (hV : ReadsBack P V)
    (hc : (Value.dict members).DistinctKeys) (hs : snapshot.DistinctKeys)
    (hprep : prepare P (.dict members) snapshot REGISTRY = .ok none)
    (h : Ready V (.dict members) snapshot clauses) {default_outcome : Str}
    (hdefault : V.get? "default_outcome" = some (.str default_outcome))
    (hmem : default_outcome ∈ [lit "BLOCK", lit "HOLD"]) {w : World}
    (hw : World.of V (.dict members) snapshot = w) :
    ∃ r, evaluate P (.dict members) snapshot REGISTRY = .ok r ∧
      r.outcome = (w.decision clauses).outcome default_outcome ∧
      canon.canonicalize (documentOf r.outcome ((w.decision clauses).reasons default_outcome)
        (w.decision clauses).matched_rule (some (w.trace 0 clauses))) = .ok r.canonical ∧
      r.value = .ok (documentOf r.outcome ((w.decision clauses).reasons default_outcome)
        (w.decision clauses).matched_rule (some (w.trace 0 clauses))).normalize :=
  evaluateWith_returns .loaded hV hc hs hprep h hdefault hmem hw (hw ▸ sees_of _ _ _ clauses)

/-- A HOLD with no reason is no document of the outcome schema. -/
theorem result_hold_nil (trace : Option (List Str)) (r : EvaluationResult) :
    result REGISTRY "HOLD" [] none trace ≠ .ok r := by
  intro h
  obtain ⟨hvalid, -⟩ := seq_eq_ok.mp h
  have houtcome := (validate_outcome_iff _).mp hvalid
  obtain ⟨_, hget, items, rfl, hlen, -⟩ := ClosedObject.require houtcome
    (f := ("reasons", .dict [("type", .str "array"), ("minItems", .int 1), ("items", REASON)],
      IsLongList 1 IsReason)) (by simp) (by simp [outcomeFields]) (by decide)
  simp at hget
  subst hget
  simp at hlen

/-- A rule that is reached and overlooks the object makes the evaluation raise. -/
theorem evaluate_overlooks (objects : Objects) {P : rulebook.LoadedRulebook} {V snapshot : Value}
    {members : List (Str × Value)} {clauses : List Clause} (hV : ReadsBack P V)
    (hc : (Value.dict members).DistinctKeys) (hs : snapshot.DistinctKeys)
    (hprep : prepare P (.dict members) snapshot REGISTRY = .ok none)
    (h : Ready V (.dict members) snapshot clauses) {w : World}
    (hw : World.ofObjects objects V (.dict members) snapshot = w)
    (hblind : ¬ w.Sees clauses) (r : EvaluationResult) :
    evaluateWith objects P (.dict members) snapshot REGISTRY ≠ .ok r := by
  obtain ⟨o, ho, hdefault⟩ := rulebook_default_outcome hV.valid
  unfold World.Sees at hblind
  push Not at hblind
  obtain ⟨c, hreaches, hoverlooks⟩ := hblind
  rw [evaluate_ready objects hV hc hs hprep h hdefault (by simpa using ho) hw,
    decision_of_reaches hreaches (state_of_touches hoverlooks.1), stateCauses_of_overlooks hoverlooks]
  exact result_hold_nil _ r

theorem decision_allow {w : World} {clauses : List Clause} {default_outcome : Str}
    (hmem : default_outcome ∈ [lit "BLOCK", lit "HOLD"])
    (h : (w.decision clauses).outcome default_outcome = lit "ALLOW") :
    ∃ before c after, clauses = before ++ c :: after ∧ c.rule.outcome = lit "ALLOW" ∧
      w.state c = .true ∧ ∀ b ∈ before, w.state b = .false := by
  induction clauses with
  | nil =>
    have hd : default_outcome = lit "ALLOW" := h
    rw [hd] at hmem
    simp at hmem
  | cons c rest ih =>
    rw [World.decision] at h
    cases hstate : w.state c with
    | true =>
      rw [hstate] at h
      exact ⟨[], c, rest, rfl, h, hstate, by simp⟩
    | unsettled =>
      rw [hstate] at h
      simp [Decision.outcome] at h
    | false =>
      rw [hstate] at h
      obtain ⟨before, d, after, rfl, ho, hd, hb⟩ := ih h
      refine ⟨c :: before, d, after, rfl, ho, hd, ?_⟩
      intro b hmemb
      rcases List.mem_cons.mp hmemb with rfl | hmemb
      · exact hstate
      · exact hb b hmemb

theorem denote_of_state {w : World} {c : Clause} {s : State} (h : w.state c = s)
    (hs : s ≠ .unsettled) : c.rule.needs.all w.ok = true ∧ w.denote c.tree = s := by
  unfold World.state at h
  split at h
  · rename_i hall
    exact ⟨hall, h⟩
  · exact absurd h.symm hs

/-- The members of a document of a result, read back. -/
theorem documentOf_members (outcome : Str) (reasons : List Value) (matched_rule : Option Str)
    (trace : Option (List Str)) :
    (documentOf outcome reasons matched_rule trace).normalize.get? "outcome" =
        some (.str outcome) ∧
      (documentOf outcome reasons matched_rule trace).normalize.get? "matched_rule" =
        matched_rule.map .str ∧
      (documentOf outcome reasons matched_rule trace).normalize.get? "trace" =
        trace.map (fun lines => .list (lines.map .str)) ∧
      (documentOf outcome reasons matched_rule trace).normalize.get? "reasons" =
        some (.list (reasons.map Value.normalize)) := by
  have hd : Distinct ([(lit "outcome", .str outcome), (lit "reasons", .list reasons)] ++
      (matched_rule.map fun id => (lit "matched_rule", Value.str id)).toList ++
      (trace.map fun lines => (lit "trace", Value.list (lines.map .str))).toList) := by
    cases matched_rule <;> cases trace <;> simp [Distinct]
  unfold documentOf
  rw [Value.normalize_dict]
  simp only [Value.get?_dict, lookup_normalized hd]
  cases matched_rule <;> cases trace <;> simp

/-- The evaluation returns the outcome, the matched rule and the trace of the reference
walk in a world, and ALLOW only where a rule that allows is true and every rule before it
is settled false. -/
def Refines (objects : Objects) (P : rulebook.LoadedRulebook) (candidate snapshot : Value)
    (w : World) (clauses : List Clause) (default_outcome : Str) : Prop :=
  ∃ r d, evaluateWith objects P candidate snapshot REGISTRY = .ok r ∧ r.value = .ok d ∧
    r.outcome = (w.decision clauses).outcome default_outcome ∧
    d.get? "outcome" = some (.str r.outcome) ∧
    d.get? "matched_rule" = (w.decision clauses).matched_rule.map .str ∧
    d.get? "trace" = some (.list ((w.trace 0 clauses).map .str)) ∧
    (r.outcome = lit "ALLOW" → ∃ before c after, clauses = before ++ c :: after ∧
      c.rule.outcome = lit "ALLOW" ∧ w.state c = .true ∧ w.denote c.tree = .true ∧
      ∀ b ∈ before, w.state b = .false ∧ w.denote b.tree = .false)

theorem refines_of_sees (objects : Objects) {P : rulebook.LoadedRulebook} {V snapshot : Value}
    {members : List (Str × Value)} {clauses : List Clause} (hV : ReadsBack P V)
    (hc : (Value.dict members).DistinctKeys) (hs : snapshot.DistinctKeys)
    (hprep : prepare P (.dict members) snapshot REGISTRY = .ok none)
    (hready : Ready V (.dict members) snapshot clauses) {default_outcome : Str}
    (hdefault : V.get? "default_outcome" = some (.str default_outcome))
    (hmem : default_outcome ∈ [lit "BLOCK", lit "HOLD"])
    (hsees : (World.ofObjects objects V (.dict members) snapshot).Sees clauses) :
    Refines objects P (.dict members) snapshot (World.of V (.dict members) snapshot) clauses
      default_outcome := by
  obtain ⟨r, hr, houtcome, -, hvalue⟩ :=
    evaluateWith_returns objects hV hc hs hprep hready hdefault hmem rfl hsees
  obtain ⟨hplain, hmatched, htrace⟩ := decision_plain hsees default_outcome 0
  rw [plain_ofObjects] at hplain hmatched htrace
  rw [hmatched, htrace] at hvalue
  obtain ⟨h1, h2, h3, -⟩ := documentOf_members r.outcome _ _ (some _)
  refine ⟨r, _, hr, hvalue, houtcome.trans hplain, h1, h2, h3, fun hallow => ?_⟩
  obtain ⟨before, c, after, hsplit, hco, hstate, hbefore⟩ :=
    decision_allow hmem ((houtcome.trans hplain) ▸ hallow)
  refine ⟨before, c, after, hsplit, hco, hstate, (denote_of_state hstate (by simp)).2, ?_⟩
  intro b hb
  exact ⟨hbefore b hb, (denote_of_state (hbefore b hb) (by simp)).2⟩

/-- The evaluator refines its declared semantics exactly where every rule that it
reaches has a cause: no required evidence is unsettled, no operand is the very object
`UNSETTLED`, or another operand cannot settle. -/
theorem evaluate_refines_the_reference_walk {v : Value} (hv : v.DistinctKeys)
    {P : rulebook.LoadedRulebook} (hpin : rulebook.pin v REGISTRY = .ok P) (objects : Objects)
    {members : List (Str × Value)} {snapshot : Value} (hc : (Value.dict members).DistinctKeys)
    (hs : snapshot.DistinctKeys)
    (hprep : prepare P (.dict members) snapshot REGISTRY = .ok none) :
    ∃ V clauses default_outcome, P.value = .ok V ∧
      List.Forall₂ Clause.Of clauses (membersOf V "rules") ∧
      V.get? "default_outcome" = some (.str default_outcome) ∧
      (Refines objects P (.dict members) snapshot (World.of V (.dict members) snapshot) clauses
          default_outcome ↔
        (World.ofObjects objects V (.dict members) snapshot).Sees clauses) := by
  have hV := readsBack_of_pin hv hpin
  obtain ⟨clauses, hready⟩ := ready_of_prepare hV hprep
  obtain ⟨o, ho, hdefault⟩ := rulebook_default_outcome hV.valid
  have hmem : lit o ∈ [lit "BLOCK", lit "HOLD"] := by simpa using ho
  refine ⟨v.normalize, clauses, lit o, hV.value, hready.rules, hdefault, ?_,
    refines_of_sees objects hV hc hs hprep hready hdefault hmem⟩
  rintro ⟨r, -, hr, -⟩
  by_contra hblind
  exact evaluate_overlooks objects hV hc hs hprep hready rfl hblind r hr

/-! ## A prepared evaluation -/

/-- What passes preparation. -/
theorem prepare_eq_none {P : rulebook.LoadedRulebook} {V candidate snapshot : Value}
    (hV : ReadsBack P V) (hc : schema.validate candidate CANDIDATE_SCHEMA_ID REGISTRY = .ok ())
    (hs : IsSnapshot snapshot) (horder : ∀ item ∈ membersOf snapshot "items",
      instantAt item "acquired_at" ≤ instantAt snapshot "frozen_at")
    (happlies : ∀ frozen, snapshot.get? "frozen_at" = some frozen →
      rulebook.rulebook_applies P frozen = .ok true)
    (hrules : ∀ rule ∈ membersOf V "rules", rule_failure P rule = .ok none) :
    prepare P candidate snapshot REGISTRY = .ok none := by
  obtain ⟨items, hitems, hall⟩ := snapshot_items hs
  obtain ⟨frozen, hfrozen, hdate⟩ := snapshot_frozen_at hs
  obtain ⟨rules, hget, -⟩ := rulebook_rules hV.valid
  rw [membersOf, hitems] at horder
  rw [membersOf, hget] at hrules
  have hfirst : first (order_failure (.str frozen)) items = .ok none := by
    rw [first_eq_none]
    intro item hitem
    obtain ⟨acquired, hacquired, hadate⟩ := item_acquired_at (hall item hitem)
    unfold order_failure
    rw [getItem_eq_ok.mpr hacquired, ok_bind, instantAt_eq hacquired hadate, ok_bind,
      instantAt_eq hfrozen hdate, ok_bind, if_neg (by have := horder item hitem; omega)]
    rfl
  have hsnapshot : input_failure REGISTRY snapshot SNAPSHOT_SCHEMA_ID = .ok none :=
    input_failure_eq_none.mpr ((validate_snapshot_iff _).mpr hs)
  unfold prepare
  rw [input_failure_eq_none.mpr hc, ok_bind]
  dsimp only
  rw [hsnapshot, ok_bind]
  dsimp only
  rw [getItem_eq_ok.mpr hfrozen, ok_bind, getItem_eq_ok.mpr hitems, ok_bind,
    show iterate (.list items) = .ok items from rfl, ok_bind, hfirst, ok_bind]
  dsimp only
  rw [happlies _ hfrozen, ok_bind, if_pos rfl, hV.value, ok_bind, getItem_eq_ok.mpr hget, ok_bind,
    show iterate (.list rules) = .ok rules from rfl, ok_bind]
  exact first_eq_none.mpr hrules

/-- The text of a rule that asks for one piece of evidence. -/
def presentReport : Str := "present(report)"

theorem encodable_presentReport : Encodable presentReport := encodable_lit _

theorem parses_presentReport : ParsesTo presentReport (.present "report") := by
  have hparse : (match parse_expression (.str presentReport) with
      | .ok parsed => decide (parsed.source = presentReport ∧
          parsed.canonical = "\x7b\"evidence_id\":\"report\",\"type\":\"present\"\x7d".toList ∧
          parsed.evidence_ids = [lit "report"])
      | .error _ => false) = true := by decide +kernel
  generalize hresult : parse_expression (.str presentReport) = result at hparse
  cases result with
  | ok parsed =>
    obtain ⟨hsource, htext, hids⟩ := of_decide_eq_true hparse
    refine ⟨parsed, hresult, hsource, by simp [Expr.height, HEIGHT], ?_, by decide, hids⟩
    rw [htext]
    decide +kernel
  | error e => cases hparse

/-- A candidate that proposes a command. -/
def smallCandidate : List (Str × Value) :=
  [("action", .dict [("argv", .list [.str "true"]), ("summary", .str "run")]),
   ("candidate_id", .str "c"), ("kind", .str "command")]

theorem canonical_smallCandidate : (Value.dict smallCandidate).Canonical := by
  simp [smallCandidate, Distinct]

theorem validate_smallCandidate :
    schema.validate (.dict smallCandidate) CANDIDATE_SCHEMA_ID REGISTRY = .ok () := by
  decide +kernel

/-- A snapshot of these items. -/
def snapshotWith (items : List Value) : Value := .dict
  [("frozen_at", .str "2026-01-02T00:00:00Z"), ("items", .list items),
   ("rulebook_digest", .str (lit "sha256:" ++ ofText (sha256.hexdigest []))),
   ("snapshot_digest", .str (lit "sha256:" ++ ofText (sha256.hexdigest []))),
   ("snapshot_id", .str "s")]

/-- An item, acquired when the snapshot was frozen. -/
def itemWith (id status : Str) : Value := .dict
  [("acquired_at", .str "2026-01-02T00:00:00Z"), ("id", .str id), ("order", .int 0),
   ("status", .str status)]

/-- The instant of the snapshots and of their items. -/
theorem isDate_frozen : IsDate (.str (lit "2026-01-02T00:00:00Z")) := ⟨_, rfl, rfl⟩

theorem isItem_itemWith (id : Str) {status : String}
    (h : status ∈ ["ok", "missing", "stale", "error"]) : IsItem (itemWith id status) := by
  have hstatus : IsOneOf ["ok", "missing", "stale", "error"] (.str (lit status)) := ⟨_, h, rfl⟩
  refine ⟨_, rfl, by simp, ?_⟩
  simp [itemFields, hstatus, isDate_frozen, IsText, IsNatural]

theorem isSnapshot_snapshotWith {items : List Value} (h : ∀ item ∈ items, IsItem item) :
    IsSnapshot (snapshotWith items) := by
  have hitems : IsList IsItem (.list items) := ⟨items, rfl, h⟩
  refine ⟨_, rfl, by simp, ?_⟩
  simp [snapshotFields, hitems, isDate_frozen, IsText, isDigest_hexdigest]

theorem distinctKeys_snapshotWith {items : List Value} (h : ∀ item ∈ items, item.DistinctKeys) :
    (snapshotWith items).DistinctKeys := by
  simpa [snapshotWith, Distinct] using h

/-- A rulebook whose rule names one piece of evidence is prepared for a snapshot that
it applies to. -/
theorem prepare_naming {adopted_at when_ : Str} (ha : Encodable adopted_at)
    (hwhen : Encodable when_) {e : Expr} (hparses : ParsesTo when_ e)
    (hnames : e.evidenceIds = [lit "report"]) {P : rulebook.LoadedRulebook}
    (hpin : rulebook.pin (rulebook.rulebookSince adopted_at when_) REGISTRY = .ok P)
    {snapshot : Value} (hs : IsSnapshot snapshot)
    (horder : ∀ item ∈ membersOf snapshot "items",
      instantAt item "acquired_at" ≤ instantAt snapshot "frozen_at")
    (happlies : ∀ frozen, snapshot.get? "frozen_at" = some frozen →
      rulebook.rulebook_applies P frozen = .ok true) :
    prepare P (.dict smallCandidate) snapshot REGISTRY = .ok none := by
  have hV := readsBack_of_pin (rulebook.canonical_rulebookSince ha hwhen).distinctKeys hpin
  rw [rulebook.normalize_rulebookSince] at hV
  refine prepare_eq_none hV validate_smallCandidate hs horder happlies ?_
  intro rule hrule
  obtain ⟨parsed, hparse, hparsed⟩ := hparses
  have hids : parsed.evidence_ids = [lit "report"] := by
    rw [hparsed.evidence_ids, hnames]
    rfl
  simp [membersOf, rulebook.rulebookSince] at hrule
  subst hrule
  unfold rule_failure
  simp only [getItem_dict, ne_eq, String.reduceEq, not_false_eq_true, lookup_lit_ne,
    List.lookup_cons_self, ok_bind, hparse]
  unfold validate_expression
  rw [hV.value]
  simp [hids, rulebook.rulebookSince, byId, iterate, string, dictOf, setItem, caught, pure,
    Except.pure]

/-- The rulebook that asks for one piece of evidence is prepared for a snapshot
that it applies to. -/
theorem prepare_report {adopted_at : Str} (ha : Encodable adopted_at) {P : rulebook.LoadedRulebook}
    (hpin : rulebook.pin (rulebook.rulebookSince adopted_at presentReport) REGISTRY = .ok P)
    {snapshot : Value} (hs : IsSnapshot snapshot)
    (horder : ∀ item ∈ membersOf snapshot "items",
      instantAt item "acquired_at" ≤ instantAt snapshot "frozen_at")
    (happlies : ∀ frozen, snapshot.get? "frozen_at" = some frozen →
      rulebook.rulebook_applies P frozen = .ok true) :
    prepare P (.dict smallCandidate) snapshot REGISTRY = .ok none :=
  prepare_naming ha encodable_presentReport parses_presentReport rfl hpin hs horder happlies

/-- An item was acquired when the snapshots were frozen. -/
def AcquiredThen (item : Value) : Prop :=
  IsItem item ∧ item.get? "acquired_at" = some (.str "2026-01-02T00:00:00Z")

/-- It is prepared for a snapshot of items that were acquired when it was frozen. -/
theorem prepare_snapshotWith {when_ : Str} (hwhen : Encodable when_) {e : Expr}
    (hparses : ParsesTo when_ e) (hnames : e.evidenceIds = [lit "report"])
    {P : rulebook.LoadedRulebook} (hpin : rulebook.pin (rulebook.rulebookWith when_) REGISTRY = .ok P)
    {items : List Value} (h : ∀ item ∈ items, AcquiredThen item) :
    prepare P (.dict smallCandidate) (snapshotWith items) REGISTRY = .ok none := by
  refine prepare_naming (encodable_lit _) hwhen hparses hnames hpin
    (isSnapshot_snapshotWith fun item hitem => (h item hitem).1) ?_ ?_
  · intro item hitem
    simp only [membersOf, snapshotWith, Value.get?_dict, ne_eq, String.reduceEq, not_false_eq_true,
      lookup_lit_ne, List.lookup_cons_self] at hitem
    simp [instantAt, snapshotWith, (h item hitem).2]
  · intro frozen hfrozen
    have hadopted : P.adopted_at = lit "2026-01-01T00:00:00Z" := by
      obtain ⟨-, -, -, -, hid⟩ := rulebook.pin_eq_ok.mp hpin
      have := hid.adopted_at
      simpa [rulebook.rulebookWith] using this.symm
    simp [snapshotWith] at hfrozen
    subst hfrozen
    unfold rulebook.rulebook_applies
    rw [hadopted]
    rfl

theorem prepare_presentReport {P : rulebook.LoadedRulebook}
    (hpin : rulebook.pin (rulebook.rulebookWith presentReport) REGISTRY = .ok P)
    {ids : List (Str × String)} (h : ∀ p ∈ ids, p.2 ∈ ["ok", "missing", "stale", "error"]) :
    prepare P (.dict smallCandidate) (snapshotWith (ids.map fun p => itemWith p.1 p.2)) REGISTRY =
      .ok none := by
  refine prepare_snapshotWith encodable_presentReport parses_presentReport rfl hpin ?_
  intro item hitem
  obtain ⟨p, hp, rfl⟩ := List.mem_map.mp hitem
  exact ⟨isItem_itemWith _ (h p hp), by simp [itemWith]⟩

/-- A rule that allows when the tree is true. -/
def firstClause (when_ : Str) (tree : Expr) : Clause :=
  ⟨⟨"first", when_, "ALLOW", "always", []⟩, tree⟩

theorem firstClause_of {when_ : Str} {tree : Expr} (h : ParsesTo when_ tree) (adopted_at : Str) :
    List.Forall₂ Clause.Of [firstClause when_ tree]
      (membersOf (rulebook.rulebookSince adopted_at when_) "rules") := by
  have hrule : (firstClause when_ tree).rule.Of (.dict [("id", .str "first"),
      ("outcome", .str "ALLOW"), ("reason", .str "always"), ("when", .str when_)]) := by
    refine ⟨?_, ?_, ?_, ?_, ?_, ?_⟩ <;>
      simp [firstClause, getOr, getMethod, pure, Except.pure]
  have hmembers : membersOf (rulebook.rulebookSince adopted_at when_) "rules" =
      [.dict [("id", .str "first"), ("outcome", .str "ALLOW"), ("reason", .str "always"),
        ("when", .str when_)]] := by
    simp [membersOf, rulebook.rulebookSince]
  rw [hmembers]
  exact .cons ⟨hrule, h⟩ .nil

/-- A snapshot where the evidence is ok. -/
theorem evaluate_presentReport : ∃ P V clauses default_outcome,
    rulebook.pin (rulebook.rulebookWith presentReport) REGISTRY = .ok P ∧
      Refines .loaded P (.dict smallCandidate) (snapshotWith [itemWith "report" "ok"])
        (World.of V (.dict smallCandidate) (snapshotWith [itemWith "report" "ok"])) clauses
        default_outcome := by
  obtain ⟨P, hP, -⟩ := rulebook.pin_rulebookWith encodable_presentReport
  have hprep := @prepare_presentReport P hP [("report", "ok")] (by simp)
  obtain ⟨V, clauses, default_outcome, -, -, -, hiff⟩ := evaluate_refines_the_reference_walk
    (rulebook.canonical_rulebookWith encodable_presentReport).distinctKeys hP .loaded
    (by simp [smallCandidate, Distinct])
    (distinctKeys_snapshotWith (by simp [itemWith, Distinct])) hprep
  exact ⟨P, V, clauses, default_outcome, hP, hiff.mpr (sees_of _ _ _ clauses)⟩

/-! ## Evidence that is the very object `UNSETTLED` -/

/-- The text of a rule that compares evidence with the text `unsettled`. -/
def reportUnsettled : Str := "evidence.report == \"unsettled\""

def reportUnsettledTree : Expr :=
  .compare .eq (.path ⟨.evidence, "report", []⟩) (.literal (.str UNSETTLED))

theorem encodable_reportUnsettled : Encodable reportUnsettled := encodable_lit _

theorem parses_reportUnsettled : ParsesTo reportUnsettled reportUnsettledTree := by
  have hparse : (match parse_expression (.str reportUnsettled) with
      | .ok parsed => decide (parsed.source = reportUnsettled ∧
          canon.canonicalize reportUnsettledTree.node = .ok parsed.canonical ∧
          parsed.evidence_ids = [lit "report"])
      | .error _ => false) = true := by decide +kernel
  generalize hresult : parse_expression (.str reportUnsettled) = result at hparse
  cases result with
  | ok parsed =>
    obtain ⟨hsource, htext, hids⟩ := of_decide_eq_true hparse
    exact ⟨parsed, hresult, hsource, by decide, htext, by decide, hids⟩
  | error e => cases hparse

/-- The evidence is a string. -/
def itemSaying (text : Str) : Value := .dict
  [("acquired_at", .str "2026-01-02T00:00:00Z"), ("id", .str "report"), ("order", .int 0),
   ("status", .str "ok"), ("value", .str text)]

theorem acquiredThen_itemSaying (text : Str) : AcquiredThen (itemSaying text) := by
  have hstatus : IsOneOf ["ok", "missing", "stale", "error"] (.str (lit "ok")) :=
    ⟨"ok", by simp, rfl⟩
  refine ⟨⟨_, rfl, by simp, ?_⟩, by simp [itemSaying]⟩
  simp [itemFields, hstatus, isDate_frozen, IsText, IsNatural]

/-- The snapshot says `unsettled`. -/
def snapshotSaying : Value := snapshotWith [itemSaying UNSETTLED]

theorem distinctKeys_snapshotSaying : snapshotSaying.DistinctKeys :=
  distinctKeys_snapshotWith (by simp [itemSaying, Distinct])

theorem isSnapshot_snapshotSaying : IsSnapshot snapshotSaying :=
  isSnapshot_snapshotWith (by simpa using (acquiredThen_itemSaying UNSETTLED).1)

/-- The string that the snapshot says is the object of the evaluator. -/
def objectsSaying : Objects where
  candidate _ := false
  evidence id place := decide (id = lit "report") && place.isEmpty

theorem prepare_saying {P : rulebook.LoadedRulebook}
    (hpin : rulebook.pin (rulebook.rulebookWith reportUnsettled) REGISTRY = .ok P) :
    prepare P (.dict smallCandidate) snapshotSaying REGISTRY = .ok none :=
  prepare_snapshotWith encodable_reportUnsettled parses_reportUnsettled rfl hpin
    (by simpa using acquiredThen_itemSaying UNSETTLED)

theorem value_saying (objects : Objects) (V : Value) :
    (World.ofObjects objects V (.dict smallCandidate) snapshotSaying).value "report" =
      some (.str UNSETTLED) := by
  have hitem : itemOf snapshotSaying "report" = some (itemSaying UNSETTLED) := by
    simp [itemOf, membersOf, snapshotSaying, snapshotWith, withId, itemSaying]
  simp only [World.ofObjects, hitem]
  rfl

theorem found_saying (objects : Objects) (V : Value) :
    (World.ofObjects objects V (.dict smallCandidate) snapshotSaying).found ⟨.evidence, "report", []⟩ =
      .value (.str UNSETTLED) := by
  unfold World.found
  rw [value_saying]
  rfl

/-- The rule allows in the reference walk. -/
theorem state_saying (V : Value) :
    (World.of V (.dict smallCandidate) snapshotSaying).state
      (firstClause reportUnsettled reportUnsettledTree) = .true := by
  have hpath : (World.of V (.dict smallCandidate) snapshotSaying).path ⟨.evidence, "report", []⟩ =
      .value (.str UNSETTLED) := by
    show identified _ _ = _
    rw [show (World.of V (.dict smallCandidate) snapshotSaying).found ⟨.evidence, "report", []⟩ = _
      from found_saying .loaded V]
    rfl
  rw [World.state, if_pos (by rfl), firstClause, reportUnsettledTree, World.denote, World.operand, World.operand, hpath]
  decide

/-- The evaluator overlooks it. -/
theorem overlooks_saying (V : Value) :
    (World.ofObjects objectsSaying V (.dict smallCandidate) snapshotSaying).Overlooks
      (firstClause reportUnsettled reportUnsettledTree) := by
  have hsentinel : (World.ofObjects objectsSaying V (.dict smallCandidate) snapshotSaying).Sentinel
      ⟨.evidence, "report", []⟩ := ⟨rfl, found_saying _ _⟩
  have hpath := (path_unsettled_iff _ _).mpr (.inl hsentinel)
  refine ⟨⟨rfl, _, List.mem_singleton.mpr rfl, hsentinel⟩, ?_⟩
  simp only [firstClause, reportUnsettledTree, World.causes, World.operandCauses, World.operand, hpath,
    comparisonCauses, List.append_nil]
  unfold World.pathCauses
  rw [if_neg]
  rw [value_saying]
  simp

section Saying

variable {P : rulebook.LoadedRulebook}
  (hP : rulebook.pin (rulebook.rulebookWith reportUnsettled) REGISTRY = .ok P)

include hP

theorem readsBack_saying : ReadsBack P (rulebook.rulebookWith reportUnsettled) := by
  have hV := readsBack_of_pin
    (rulebook.canonical_rulebookWith encodable_reportUnsettled).distinctKeys hP
  rwa [rulebook.normalize_rulebookWith] at hV

omit hP in
theorem ready_saying : Ready (rulebook.rulebookWith reportUnsettled) (.dict smallCandidate)
    snapshotSaying [firstClause reportUnsettled reportUnsettledTree] :=
  ⟨validate_smallCandidate, isSnapshot_snapshotSaying, firstClause_of parses_reportUnsettled _⟩

theorem raises_saying (r : EvaluationResult) :
    evaluateWith objectsSaying P (.dict smallCandidate) snapshotSaying REGISTRY ≠ .ok r :=
  evaluate_overlooks objectsSaying (readsBack_saying hP) canonical_smallCandidate.distinctKeys
    distinctKeys_snapshotSaying (prepare_saying hP) ready_saying rfl
    (fun hsees => hsees _ (reaches_head _ []) (overlooks_saying _)) r

end Saying

/-- Evidence that is the very object: the evaluator raises, and the reference walk allows. -/
theorem reference_walk_is_missed : ∃ P V clauses default_outcome,
    rulebook.pin (rulebook.rulebookWith reportUnsettled) REGISTRY = .ok P ∧ P.value = .ok V ∧
      prepare P (.dict smallCandidate) snapshotSaying REGISTRY = .ok none ∧
      List.Forall₂ Clause.Of clauses (membersOf V "rules") ∧
      V.get? "default_outcome" = some (.str default_outcome) ∧
      (∀ r, evaluateWith objectsSaying P (.dict smallCandidate) snapshotSaying REGISTRY ≠ .ok r) ∧
      ((World.of V (.dict smallCandidate) snapshotSaying).decision clauses).outcome
        default_outcome = lit "ALLOW" := by
  obtain ⟨P, hP, -⟩ := rulebook.pin_rulebookWith encodable_reportUnsettled
  refine ⟨P, _, _, lit "BLOCK", hP, (readsBack_saying hP).value, prepare_saying hP,
    ready_saying.rules, by simp [rulebook.rulebookWith], raises_saying hP, ?_⟩
  rw [World.decision, state_saying]
  rfl

end vfy.gate
