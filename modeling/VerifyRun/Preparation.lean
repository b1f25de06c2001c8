-- What preparation finds: the first failure of the inputs, in the fixed
-- order, and when evaluation returns a result at all.
import VerifyRun.Decisions
import VerifyRun.SchemaFailures

namespace vfy.gate

open python keys outcomes expr schema

/-! ## The failures of the inputs -/

/-- The reason for a typed failure. -/
def failureReason (failure : Failure) (rule_id : Option Str) : Value :=
  reason failure.code.text failure.message rule_id none

/-- The item was acquired by the time that the snapshot was frozen. -/
def InOrder (snapshot item : Value) : Prop :=
  instantAt item "acquired_at" ≤ instantAt snapshot "frozen_at"

/-- The rulebook was adopted by the time that the snapshot was frozen. -/
def Adopted (V snapshot : Value) : Prop :=
  instantAt V "adopted_at" ≤ instantAt snapshot "frozen_at"

instance decidableInOrder (snapshot item : Value) : Decidable (InOrder snapshot item) :=
  inferInstanceAs (Decidable (_ ≤ _))

instance decidableAdopted (V snapshot : Value) : Decidable (Adopted V snapshot) :=
  inferInstanceAs (Decidable (_ ≤ _))

/-- The text of the rule parses, and names declared evidence only. -/
def RulePasses (P : rulebook.LoadedRulebook) (rule : Value) : Prop :=
  ∃ when_ parsed, rule.get? "when" = some (.str when_) ∧
    parse_expression (.str when_) = .ok parsed ∧ validate_expression parsed P = .ok ()

/-- The text of the rule fails to parse, or it names undeclared evidence. -/
def RuleFails (P : rulebook.LoadedRulebook) (rule : Value) (failure : Failure) : Prop :=
  ∃ when_, rule.get? "when" = some (.str when_) ∧
    (parse_expression (.str when_) = .error (.verify failure) ∨
      ∃ parsed, parse_expression (.str when_) = .ok parsed ∧
        validate_expression parsed P = .error (.verify failure))

/-- The parser of the text of the rule meets an integer that is too long for
the runtime. -/
def RuleTooLong (rule : Value) : Prop :=
  ∃ when_, rule.get? "when" = some (.str when_) ∧ ¬ ShortIntegers (parsing when_)

/-- The inputs that the rules are judged on: valid, in order, and under an
adopted rulebook. -/
structure Admissible (V candidate snapshot : Value) : Prop where
  valid_candidate : schema.validate candidate CANDIDATE_SCHEMA_ID REGISTRY = .ok ()
  valid_snapshot : schema.validate snapshot SNAPSHOT_SCHEMA_ID REGISTRY = .ok ()
  order : ∀ item ∈ membersOf snapshot "items", InOrder snapshot item
  adopted : Adopted V snapshot

/-- The first failure of the inputs: of the candidate, of the snapshot, of the
order of the evidence, of the adoption, of a rule. -/
inductive FirstFailure (P : rulebook.LoadedRulebook) (V candidate snapshot : Value) : Value → Prop
  | candidate (failure : Failure)
      (h : schema.validate candidate CANDIDATE_SCHEMA_ID REGISTRY = .error (.verify failure)) :
      FirstFailure P V candidate snapshot (failureReason failure none)
  | snapshot (failure : Failure)
      (hc : schema.validate candidate CANDIDATE_SCHEMA_ID REGISTRY = .ok ())
      (h : schema.validate snapshot SNAPSHOT_SCHEMA_ID REGISTRY = .error (.verify failure)) :
      FirstFailure P V candidate snapshot (failureReason failure none)
  | order (before : List Value) (item : Value) (after : List Value) (id : Str)
      (hc : schema.validate candidate CANDIDATE_SCHEMA_ID REGISTRY = .ok ())
      (hs : schema.validate snapshot SNAPSHOT_SCHEMA_ID REGISTRY = .ok ())
      (hsplit : membersOf snapshot "items" = before ++ item :: after)
      (hbefore : ∀ b ∈ before, InOrder snapshot b) (h : ¬ InOrder snapshot item)
      (hid : item.get? "id" = some (.str id)) :
      FirstFailure P V candidate snapshot (reason "evidence_order_invalid"
        "Evidence was acquired after the freeze." none (some id))
  | adoption (hc : schema.validate candidate CANDIDATE_SCHEMA_ID REGISTRY = .ok ())
      (hs : schema.validate snapshot SNAPSHOT_SCHEMA_ID REGISTRY = .ok ())
      (ho : ∀ item ∈ membersOf snapshot "items", InOrder snapshot item)
      (h : ¬ Adopted V snapshot) :
      FirstFailure P V candidate snapshot (reason "rulebook_not_adopted"
        "The rulebook was not adopted when this run started." none none)
  | rule (before : List Value) (rule : Value) (after : List Value) (failure : Failure) (id : Str)
      (ha : Admissible V candidate snapshot)
      (hsplit : membersOf V "rules" = before ++ rule :: after)
      (hbefore : ∀ b ∈ before, RulePasses P b) (h : RuleFails P rule failure)
      (hid : rule.get? "id" = some (.str id)) :
      FirstFailure P V candidate snapshot (failureReason failure (some id))

/-- Preparation reaches a rule whose text holds an integer too long for the
runtime. -/
def MeetsLongInteger (P : rulebook.LoadedRulebook) (V candidate snapshot : Value) : Prop :=
  Admissible V candidate snapshot ∧
    ∃ before rule after, membersOf V "rules" = before ++ rule :: after ∧
      (∀ b ∈ before, RulePasses P b) ∧ RuleTooLong rule

/-- Preparation passes, and the walk reaches a rule that is unsettled by an operand
that is the very object `UNSETTLED`, and by nothing else. -/
def MeetsObject (objects : Objects) (P : rulebook.LoadedRulebook) (V candidate snapshot : Value) :
    Prop :=
  Admissible V candidate snapshot ∧ (∀ rule ∈ membersOf V "rules", RulePasses P rule) ∧
    ∃ clauses, List.Forall₂ Clause.Of clauses (membersOf V "rules") ∧
      ¬ (World.ofObjects objects V candidate snapshot).Sees clauses

/-! ## One check -/

theorem first_eq_some {α : Type} {step : α → Except Exn (Option Value)} {l : List α} {r : Value} :
    first step l = .ok (some r) ↔ ∃ before a after, l = before ++ a :: after ∧
      (∀ b ∈ before, step b = .ok none) ∧ step a = .ok (some r) := by
  induction l with
  | nil => simp [first]
  | cons a l ih =>
    rw [first, bind_eq_ok]
    constructor
    · rintro ⟨o, ho, hrest⟩
      cases o with
      | some reason =>
        obtain rfl : reason = r := by simpa using hrest
        exact ⟨[], a, l, rfl, by simp, ho⟩
      | none =>
        obtain ⟨before, b, after, rfl, hbefore, hb⟩ := ih.mp hrest
        refine ⟨a :: before, b, after, rfl, fun c hc => ?_, hb⟩
        rcases List.mem_cons.mp hc with rfl | hc
        · exact ho
        · exact hbefore c hc
    · rintro ⟨before, b, after, hsplit, hbefore, hb⟩
      cases before with
      | nil =>
        obtain ⟨rfl, rfl⟩ := List.cons.inj hsplit
        exact ⟨some r, hb, rfl⟩
      | cons c before =>
        obtain ⟨rfl, rfl⟩ := List.cons.inj hsplit
        exact ⟨none, hbefore a (by simp),
          ih.mpr ⟨before, b, after, rfl, fun d hd => hbefore d (by simp [hd]), hb⟩⟩

theorem first_eq_error {α : Type} {step : α → Except Exn (Option Value)} {l : List α} {e : Exn} :
    first step l = .error e ↔ ∃ before a after, l = before ++ a :: after ∧
      (∀ b ∈ before, step b = .ok none) ∧ step a = .error e := by
  induction l with
  | nil => simp [first]
  | cons a l ih =>
    rw [first, bind_eq_error]
    constructor
    · rintro (he | ⟨o, ho, hrest⟩)
      · exact ⟨[], a, l, rfl, by simp, he⟩
      · cases o with
        | some reason => simp at hrest
        | none =>
          obtain ⟨before, b, after, rfl, hbefore, hb⟩ := ih.mp hrest
          refine ⟨a :: before, b, after, rfl, fun c hc => ?_, hb⟩
          rcases List.mem_cons.mp hc with rfl | hc
          · exact ho
          · exact hbefore c hc
    · rintro ⟨before, b, after, hsplit, hbefore, hb⟩
      cases before with
      | nil =>
        obtain ⟨rfl, rfl⟩ := List.cons.inj hsplit
        exact Or.inl hb
      | cons c before =>
        obtain ⟨rfl, rfl⟩ := List.cons.inj hsplit
        exact Or.inr ⟨none, hbefore a (by simp),
          ih.mpr ⟨before, b, after, rfl, fun d hd => hbefore d (by simp [hd]), hb⟩⟩

/-- A validation that raises only typed failures passes, or it fails with a
reason. -/
theorem input_failure_cases {value : Value} {schema_id : Str}
    (h : Raises (schema.validate value schema_id REGISTRY)) :
    schema.validate value schema_id REGISTRY = .ok () ∧
        input_failure REGISTRY value schema_id = .ok none ∨
      ∃ f : Failure, Encodable f.message ∧
        schema.validate value schema_id REGISTRY = .error (.verify f) ∧
        input_failure REGISTRY value schema_id = .ok (some (failureReason f none)) := by
  cases hv : schema.validate value schema_id REGISTRY with
  | ok u => exact Or.inl ⟨rfl, input_failure_eq_none.mpr hv⟩
  | error e =>
    obtain ⟨f, rfl, hf⟩ := h e hv
    refine Or.inr ⟨f, hf, rfl, ?_⟩
    unfold input_failure
    rw [hv]
    rfl

/-- The order of an item of a valid snapshot. -/
theorem order_failure_eq {snapshot item : Value} {frozen id : Str} (hitem : IsItem item)
    (hfrozen : snapshot.get? "frozen_at" = some (.str frozen)) (hdate : is_date_time frozen = true)
    (hid : item.get? "id" = some (.str id)) :
    order_failure (.str frozen) item = .ok (if InOrder snapshot item then none else
      some (reason "evidence_order_invalid" "Evidence was acquired after the freeze." none
        (some id))) := by
  obtain ⟨acquired, hacquired, hadate⟩ := item_acquired_at hitem
  unfold order_failure
  rw [getItem_eq_ok.mpr hacquired, ok_bind, instantAt_eq hacquired hadate, ok_bind,
    instantAt_eq hfrozen hdate, ok_bind]
  by_cases h : InOrder snapshot item
  · rw [if_neg (by unfold InOrder at h; omega), if_pos h]
    rfl
  · rw [if_pos (by unfold InOrder at h; omega), if_neg h, getItem_eq_ok.mpr hid, ok_bind]
    rfl

/-- The static check of an expression passes, or it names the evidence. -/
theorem validate_expression_cases {P : rulebook.LoadedRulebook} {V : Value} (hV : ReadsBack P V)
    {source : Str} {e : Expr} {parsed : ParsedExpression} (h : Parsed source e parsed) :
    validate_expression parsed P = .ok () ∨
      ∃ f : Failure, Encodable f.message ∧ validate_expression parsed P = .error (.verify f) := by
  obtain ⟨items, hitems, hall⟩ := rulebook_evidence hV.valid
  obtain ⟨declared, hdeclared, -⟩ := lookup_byId fun item h =>
    declaration_id (hall item h)
  have hids : ∀ id ∈ parsed.evidence_ids, Encodable id := by
    intro id hid
    rw [h.evidence_ids] at hid
    exact encodable_evidenceIds e h.isCanonical id
      ((mem_foldl_appendNew.mp hid).resolve_left (by simp))
  have heq : validate_expression parsed P = forM parsed.evidence_ids fun identifier =>
      raiseIf (declared.lookup identifier).isNone (fail .undeclared_evidence_id (lit
        "An expression names an evidence id the rulebook does not declare: " ++ identifier)) := by
    unfold validate_expression
    rw [hV.value, ok_bind, getItem_eq_ok.mpr hitems, ok_bind, hdeclared, ok_bind]
  have hraises : Raises (validate_expression parsed P) := by
    rw [heq]
    refine raises_forM fun id hid => raises_raiseIf ⟨_, rfl, ?_⟩
    exact encodable_append.mpr ⟨encodable_lit _, hids id hid⟩
  cases hx : validate_expression parsed P with
  | ok u => exact Or.inl rfl
  | error x =>
    obtain ⟨f, rfl, hf⟩ := hraises x hx
    exact Or.inr ⟨f, hf, rfl⟩

/-! ## One rule -/

theorem rule_failure_of_passes {P : rulebook.LoadedRulebook} {rule : Value}
    (h : RulePasses P rule) : rule_failure P rule = .ok none := by
  obtain ⟨when_, parsed, hwhen, hparse, hvalid⟩ := h
  unfold rule_failure
  rw [getItem_eq_ok.mpr hwhen, ok_bind, hparse, ok_bind, hvalid]
  rfl

theorem rule_failure_of_fails {P : rulebook.LoadedRulebook} {rule : Value} {f : Failure} {id : Str}
    (h : RuleFails P rule f) (hid : rule.get? "id" = some (.str id)) :
    rule_failure P rule = .ok (some (failureReason f (some id))) := by
  obtain ⟨when_, hwhen, hfails⟩ := h
  unfold rule_failure
  rw [getItem_eq_ok.mpr hwhen, ok_bind]
  rcases hfails with hparse | ⟨parsed, hparse, hvalid⟩
  · rw [hparse, error_bind, getItem_eq_ok.mpr hid]
    rfl
  · rw [hparse, ok_bind, hvalid, getItem_eq_ok.mpr hid]
    rfl

theorem parse_expression_too_long {when_ : Str} :
    parse_expression (.str when_) = .error .value_error ↔ ¬ ShortIntegers (parsing when_) := by
  have hfree : (parsing when_).Sat Answers (· ≠ .value_error)
      fun parsed => ∃ e, Parsed when_ e parsed :=
    (parsing_sat when_).mono (fun _ ⟨_, hf, _⟩ => by simp [hf]) fun _ h => h
  exact outcome_value_error_iff hfree

theorem rule_failure_of_tooLong {P : rulebook.LoadedRulebook} {rule : Value}
    (h : RuleTooLong rule) : rule_failure P rule = .error .value_error := by
  obtain ⟨when_, hwhen, hlong⟩ := h
  unfold rule_failure
  rw [getItem_eq_ok.mpr hwhen, ok_bind, parse_expression_too_long.mpr hlong]
  rfl

/-- A rule passes, or it fails with a failure that can be reported, or its
parser meets an integer that is too long. -/
theorem rule_cases {P : rulebook.LoadedRulebook} {V : Value} (hV : ReadsBack P V) {rule : Value}
    (h : IsRule rule) :
    RulePasses P rule ∨ (∃ f, RuleFails P rule f ∧ Encodable f.message) ∨ RuleTooLong rule := by
  obtain ⟨r, hr⟩ := rule_of_isRule h
  rcases parse_expression_cases r.when_ with
    ⟨e, parsed, hparse, hparsed⟩ | ⟨x, hx, f, rfl, hf⟩ | ⟨-, hlong⟩
  · rcases validate_expression_cases hV hparsed with hvalid | ⟨f, hf, hinvalid⟩
    · exact Or.inl ⟨r.when_, parsed, hr.when_, hparse, hvalid⟩
    · exact Or.inr (Or.inl ⟨f, ⟨r.when_, hr.when_, Or.inr ⟨parsed, hparse, hinvalid⟩⟩, hf⟩)
  · exact Or.inr (Or.inl ⟨f, ⟨r.when_, hr.when_, Or.inl hx⟩, hf⟩)
  · exact Or.inr (Or.inr ⟨r.when_, hr.when_, hlong⟩)

/-- The rules of a rulebook: all pass, or there is a first one that fails or
that is too long. -/
theorem rules_cases {P : rulebook.LoadedRulebook} {V : Value} (hV : ReadsBack P V)
    {rules : List Value} (h : ∀ rule ∈ rules, IsRule rule) :
    (∀ rule ∈ rules, RulePasses P rule) ∨
      ∃ before rule after, rules = before ++ rule :: after ∧ (∀ b ∈ before, RulePasses P b) ∧
        ((∃ f, RuleFails P rule f ∧ Encodable f.message) ∨ RuleTooLong rule) := by
  induction rules with
  | nil => exact Or.inl (by simp)
  | cons rule rules ih =>
    rcases rule_cases hV (h rule (by simp)) with hpass | hbad
    · rcases ih fun r hr => h r (by simp [hr]) with hall | ⟨before, r, after, rfl, hbefore, hr⟩
      · exact Or.inl (List.forall_mem_cons.mpr ⟨hpass, hall⟩)
      · exact Or.inr ⟨rule :: before, r, after, rfl, List.forall_mem_cons.mpr ⟨hpass, hbefore⟩, hr⟩
    · exact Or.inr ⟨[], rule, rules, rfl, by simp, hbad⟩

/-! ## Preparation -/

theorem isItem_of_mem {snapshot item : Value}
    (hs : schema.validate snapshot SNAPSHOT_SCHEMA_ID REGISTRY = .ok ())
    (h : item ∈ membersOf snapshot "items") : IsItem item := by
  obtain ⟨items, hitems, hall⟩ := snapshot_items ((validate_snapshot_iff _).mp hs)
  rw [membersOf, hitems] at h
  exact hall item h

theorem canonical_of_mem {v item : Value} {key : Str} (hv : v.Canonical)
    (h : item ∈ membersOf v key) : item.Canonical := by
  unfold membersOf at h
  split at h
  · rename_i items hitems
    exact Value.canonical_list.mp (hv.get? hitems) item h
  · cases h

theorem isSound_failureReason {f : Failure} {rule_id : Option Str} (hf : Encodable f.message)
    (hid : ∀ id ∈ rule_id, Encodable id) : IsSound (failureReason f rule_id) :=
  isSound_reason (encodable_lit _) hf hid (by simp)

section Preparation

variable {P : rulebook.LoadedRulebook} {V candidate snapshot : Value}

/-- Preparation of valid inputs. -/
theorem prepare_valid (hV : ReadsBack P V)
    (hadopted : V.get? "adopted_at" = some (.str P.adopted_at))
    (hc : schema.validate candidate CANDIDATE_SCHEMA_ID REGISTRY = .ok ())
    (hs : schema.validate snapshot SNAPSHOT_SCHEMA_ID REGISTRY = .ok ()) :
    ∃ frozen, snapshot.get? "frozen_at" = some (.str frozen) ∧ is_date_time frozen = true ∧
      prepare P candidate snapshot REGISTRY =
        (first (order_failure (.str frozen)) (membersOf snapshot "items") >>= fun late =>
          match late with
          | some reason => .ok (some reason)
          | none => if Adopted V snapshot then first (rule_failure P) (membersOf V "rules") else
              .ok (some (reason "rulebook_not_adopted"
                "The rulebook was not adopted when this run started." none none))) := by
  have hsnap := (validate_snapshot_iff _).mp hs
  obtain ⟨items, hitems, -⟩ := snapshot_items hsnap
  obtain ⟨frozen, hfrozen, hdate⟩ := snapshot_frozen_at hsnap
  obtain ⟨rules, hrules, -⟩ := rulebook_rules hV.valid
  have hadate : is_date_time P.adopted_at = true := by
    obtain ⟨_, hw, s, rfl, hs⟩ := ClosedObject.require hV.valid
      (f := ("adopted_at", DATE, IsDate)) (by simp) (by simp [rulebookFields]) (by decide)
    rw [hadopted] at hw
    cases hw
    exact hs
  refine ⟨frozen, hfrozen, hdate, ?_⟩
  unfold prepare
  rw [input_failure_eq_none.mpr hc, ok_bind]
  dsimp only
  rw [input_failure_eq_none.mpr hs, ok_bind]
  dsimp only
  rw [getItem_eq_ok.mpr hfrozen, ok_bind, getItem_eq_ok.mpr hitems, ok_bind,
    show iterate (.list items) = .ok items from rfl, ok_bind, membersOf, hitems]
  dsimp only
  congr 1
  funext late
  cases late with
  | some r => rfl
  | none =>
    dsimp only
    unfold rulebook.rulebook_applies
    rw [instantAt_eq hfrozen hdate, ok_bind, instantAt_eq hadopted hadate, ok_bind, pure_bind]
    by_cases h : Adopted V snapshot
    · rw [if_pos h, if_pos (decide_eq_true (by exact h)), hV.value, ok_bind,
        getItem_eq_ok.mpr hrules, ok_bind, show iterate (.list rules) = .ok rules from rfl, ok_bind, membersOf, hrules]
    · rw [if_neg h, if_neg (by unfold Adopted at h; simpa using h)]
      rfl

theorem order_failure_of_inOrder {frozen : Str}
    (hs : schema.validate snapshot SNAPSHOT_SCHEMA_ID REGISTRY = .ok ())
    (hfrozen : snapshot.get? "frozen_at" = some (.str frozen)) (hdate : is_date_time frozen = true)
    {item : Value} (hitem : item ∈ membersOf snapshot "items") (h : InOrder snapshot item) :
    order_failure (.str frozen) item = .ok none := by
  have hvalid := isItem_of_mem hs hitem
  obtain ⟨id, hid⟩ := item_id hvalid
  rw [order_failure_eq hvalid hfrozen hdate hid, if_pos h]

/-- Preparation of admissible inputs checks the rules. -/
theorem prepare_admissible (hV : ReadsBack P V)
    (hadopted : V.get? "adopted_at" = some (.str P.adopted_at))
    (h : Admissible V candidate snapshot) :
    prepare P candidate snapshot REGISTRY = first (rule_failure P) (membersOf V "rules") := by
  obtain ⟨frozen, hfrozen, hdate, hprep⟩ :=
    prepare_valid hV hadopted h.valid_candidate h.valid_snapshot
  have hfirst : first (order_failure (.str frozen)) (membersOf snapshot "items") = .ok none :=
    first_eq_none.mpr fun item hitem =>
      order_failure_of_inOrder h.valid_snapshot hfrozen hdate hitem (h.order item hitem)
  rw [hprep, hfirst, ok_bind]
  exact if_pos h.adopted

theorem rulePasses_of_rule_failure {rule : Value} (hrule : IsRule rule)
    (h : rule_failure P rule = .ok none) : RulePasses P rule := by
  obtain ⟨r, hr⟩ := rule_of_isRule hrule
  unfold rule_failure at h
  rw [getItem_eq_ok.mpr hr.when_, ok_bind, bind_eq_ok] at h
  obtain ⟨o, ho, hrest⟩ := h
  cases o with
  | some f => simp [getItem_eq_ok.mpr hr.id, string] at hrest
  | none =>
    obtain ⟨parsed, hparse, hvalid⟩ := bind_eq_ok.mp (caught_eq_none.mp ho)
    exact ⟨r.when_, parsed, hr.when_, hparse, hvalid⟩

/-- Preparation finds nothing exactly when the inputs are admissible and every
rule passes. -/
theorem prepare_eq_none_iff (hV : ReadsBack P V)
    (hadopted : V.get? "adopted_at" = some (.str P.adopted_at)) :
    prepare P candidate snapshot REGISTRY = .ok none ↔
      Admissible V candidate snapshot ∧ ∀ rule ∈ membersOf V "rules", RulePasses P rule := by
  constructor
  · intro h
    obtain ⟨clauses, hready⟩ := ready_of_prepare hV h
    have hs := (validate_snapshot_iff _).mpr hready.snapshot
    obtain ⟨frozen, hfrozen, hdate, hprep⟩ := prepare_valid hV hadopted hready.candidate hs
    rw [hprep, bind_eq_ok] at h
    obtain ⟨late, hlate, hrest⟩ := h
    cases late with
    | some r => simp at hrest
    | none =>
      have horder : ∀ item ∈ membersOf snapshot "items", InOrder snapshot item := by
        intro item hitem
        have hvalid := isItem_of_mem hs hitem
        obtain ⟨id, hid⟩ := item_id hvalid
        have := first_eq_none.mp hlate item hitem
        rw [order_failure_eq hvalid hfrozen hdate hid] at this
        by_contra hnot
        simp [hnot] at this
      by_cases ha : Adopted V snapshot
      · simp only [if_pos ha] at hrest
        refine ⟨⟨hready.candidate, hs, horder, ha⟩, fun rule hrule => ?_⟩
        obtain ⟨rules, hrules, hall⟩ := rulebook_rules hV.valid
        have hmem : rule ∈ rules := by simpa [membersOf, hrules] using hrule
        exact rulePasses_of_rule_failure (hall rule hmem) (first_eq_none.mp hrest rule hrule)
      · simp [if_neg ha] at hrest
  · rintro ⟨ha, hpass⟩
    rw [prepare_admissible hV hadopted ha]
    exact first_eq_none.mpr fun rule hrule => rule_failure_of_passes (hpass rule hrule)

/-- The first failure of the inputs is what preparation returns. -/
theorem prepare_of_firstFailure (hV : ReadsBack P V)
    (hadopted : V.get? "adopted_at" = some (.str P.adopted_at)) {r : Value}
    (h : FirstFailure P V candidate snapshot r) :
    prepare P candidate snapshot REGISTRY = .ok (some r) := by
  cases h with
  | candidate f h =>
    unfold prepare input_failure
    rw [h]
    rfl
  | snapshot f hc h =>
    unfold prepare
    rw [input_failure_eq_none.mpr hc, ok_bind]
    unfold input_failure
    rw [h]
    rfl
  | order before item after id hc hs hsplit hbefore h hid =>
    obtain ⟨frozen, hfrozen, hdate, hprep⟩ := prepare_valid hV hadopted hc hs
    have hmem : ∀ i, i ∈ before ∨ i = item → i ∈ membersOf snapshot "items" := by
      intro i hi
      rw [hsplit]
      rcases hi with hi | rfl <;> simp [*]
    have hlate := order_failure_eq (isItem_of_mem hs (hmem item (Or.inr rfl))) hfrozen hdate hid
    rw [if_neg h] at hlate
    rw [hprep, first_eq_some.mpr ⟨before, item, after, hsplit, fun b hb =>
      order_failure_of_inOrder hs hfrozen hdate (hmem b (Or.inl hb)) (hbefore b hb), hlate⟩]
    rfl
  | adoption hc hs ho h =>
    obtain ⟨frozen, hfrozen, hdate, hprep⟩ := prepare_valid hV hadopted hc hs
    rw [hprep, first_eq_none.mpr fun item hitem =>
      order_failure_of_inOrder hs hfrozen hdate hitem (ho item hitem), ok_bind]
    exact if_neg h
  | rule before rule after f id ha hsplit hbefore h hid =>
    rw [prepare_admissible hV hadopted ha]
    exact first_eq_some.mpr ⟨before, rule, after, hsplit,
      fun b hb => rule_failure_of_passes (hbefore b hb), rule_failure_of_fails h hid⟩

theorem prepare_of_meetsLongInteger (hV : ReadsBack P V)
    (hadopted : V.get? "adopted_at" = some (.str P.adopted_at))
    (h : MeetsLongInteger P V candidate snapshot) :
    prepare P candidate snapshot REGISTRY = .error .value_error := by
  obtain ⟨ha, before, rule, after, hsplit, hbefore, hlong⟩ := h
  rw [prepare_admissible hV hadopted ha]
  exact first_eq_error.mpr ⟨before, rule, after, hsplit,
    fun b hb => rule_failure_of_passes (hbefore b hb), rule_failure_of_tooLong hlong⟩

theorem forall_or_first {α : Type} {p : α → Prop} (l : List α) :
    (∀ a ∈ l, p a) ∨ ∃ before a after, l = before ++ a :: after ∧ (∀ b ∈ before, p b) ∧ ¬ p a := by
  induction l with
  | nil => exact Or.inl (by simp)
  | cons a l ih =>
    by_cases h : p a
    · rcases ih with hall | ⟨before, b, after, rfl, hbefore, hb⟩
      · exact Or.inl (List.forall_mem_cons.mpr ⟨h, hall⟩)
      · exact Or.inr ⟨a :: before, b, after, rfl, List.forall_mem_cons.mpr ⟨h, hbefore⟩, hb⟩
    · exact Or.inr ⟨[], a, l, rfl, by simp, h⟩

/-- Every input either has a first failure, which can be reported, or is
admissible under rules that pass, or meets an integer that is too long. -/
theorem inputs_cases (hV : ReadsBack P V) (hs : snapshot.Canonical) :
    (∃ r, FirstFailure P V candidate snapshot r ∧ IsSound r) ∨
      (Admissible V candidate snapshot ∧ ∀ rule ∈ membersOf V "rules", RulePasses P rule) ∨
      MeetsLongInteger P V candidate snapshot := by
  rcases input_failure_cases (validate_candidate_raises candidate) with ⟨hc, -⟩ | ⟨f, hf, hc, -⟩
  swap
  · exact Or.inl ⟨_, .candidate f hc, isSound_failureReason hf (by simp)⟩
  rcases input_failure_cases (validate_snapshot_raises snapshot) with ⟨hsnap, -⟩ | ⟨f, hf, hsnap, -⟩
  swap
  · exact Or.inl ⟨_, .snapshot f hc hsnap, isSound_failureReason hf (by simp)⟩
  rcases forall_or_first (p := InOrder snapshot) (membersOf snapshot "items") with
    horder | ⟨before, item, after, hsplit, hbefore, hlate⟩
  swap
  · have hmem : item ∈ membersOf snapshot "items" := by simp [hsplit]
    obtain ⟨id, hid⟩ := item_id (isItem_of_mem hsnap hmem)
    refine Or.inl ⟨_, .order before item after id hc hsnap hsplit hbefore hlate hid, ?_⟩
    have hcan : item.Canonical := canonical_of_mem hs hmem
    exact isSound_reason (encodable_lit _) (encodable_lit _) (by simp)
      (by simpa using encodable_of_get? hcan hid)
  by_cases hadopted : Adopted V snapshot
  swap
  · exact Or.inl ⟨_, .adoption hc hsnap horder hadopted,
      isSound_reason (encodable_lit _) (encodable_lit _) (by simp) (by simp)⟩
  have ha : Admissible V candidate snapshot := ⟨hc, hsnap, horder, hadopted⟩
  obtain ⟨rules, hrules, hall⟩ := rulebook_rules hV.valid
  have hmembers : membersOf V "rules" = rules := by rw [membersOf, hrules]
  rcases rules_cases hV hall with hpass | ⟨before, rule, after, hsplit, hbefore, hbad⟩
  · exact Or.inr (Or.inl ⟨ha, hmembers.symm ▸ hpass⟩)
  · rcases hbad with ⟨f, hfails, hf⟩ | hlong
    · have hmem : rule ∈ rules := by simp [hsplit]
      obtain ⟨r, hr⟩ := rule_of_isRule (hall rule hmem)
      refine Or.inl ⟨_, .rule before rule after f r.id ha (hmembers.trans hsplit) hbefore hfails
        hr.id, isSound_failureReason hf ?_⟩
      have hcan : rule.Canonical := canonical_of_mem hV.canonical (hmembers.symm ▸ hmem)
      simpa using encodable_of_get? hcan hr.id
    · exact Or.inr (Or.inr ⟨ha, before, rule, after, hmembers.trans hsplit, hbefore, hlong⟩)

end Preparation

/-! ## Evaluation returns a result, but for long integers and objects of its own -/

/-- What evaluation owes for its inputs: a valid result, which is ERROR exactly
when preparation fails, with the first failure as the only reason. -/
def Delivers (objects : Objects) (P : rulebook.LoadedRulebook) (V candidate snapshot : Value) :
    Prop :=
  ∃ r d, evaluateWith objects P candidate snapshot REGISTRY = .ok r ∧ r.value = .ok d ∧
    schema.validate d OUTCOME_SCHEMA_ID REGISTRY = .ok () ∧
    d.get? "outcome" = some (.str r.outcome) ∧
    (r.outcome = lit "ERROR" ↔ ∃ reason, FirstFailure P V candidate snapshot reason) ∧
    (∀ reason, FirstFailure P V candidate snapshot reason →
      d.get? "reasons" = some (.list [reason.normalize])) ∧
    (r.outcome ≠ lit "ERROR" → r.outcome ∈ [lit "ALLOW", lit "BLOCK", lit "HOLD"] ∧
      ∃ reasons, d.get? "reasons" = some (.list reasons) ∧ reasons ≠ [])

theorem valid_document {o : String} (ho : o ∈ ["ALLOW", "BLOCK", "HOLD", "ERROR"])
    {reasons : List Value} (hne : reasons ≠ []) (hr : ∀ r ∈ reasons, IsSound r)
    {matched_rule : Option Str} (hm : ∀ id ∈ matched_rule, Encodable id)
    {trace : Option (List Str)} (ht : ∀ lines ∈ trace, ∀ l ∈ lines, Encodable l) :
    schema.validate (documentOf o reasons matched_rule trace).normalize OUTCOME_SCHEMA_ID REGISTRY =
      .ok () := by
  have hcan : (documentOf o reasons matched_rule trace).Canonical :=
    canonical_documentOf (encodable_lit _) (fun r hmem => (hr r hmem).2.1) hm ht
  rw [validate_normalize hcan.distinctKeys, OUTCOME_SCHEMA_ID, validate_outcome_iff]
  exact isOutcome_documentOf ho hne (fun r hmem => (hr r hmem).1) _ _

section Delivery

variable {P : rulebook.LoadedRulebook} {V snapshot : Value} {members : List (Str × Value)}
  (objects : Objects)

/-- A first failure is delivered as the only reason of an ERROR. -/
theorem delivers_failure (hV : ReadsBack P V)
    (hadopted : V.get? "adopted_at" = some (.str P.adopted_at)) {frozen : List (Str × Value)}
    (hsnap : snapshot = .dict frozen) {r : Value}
    (h : FirstFailure P V (.dict members) snapshot r) (hr : IsSound r) :
    Delivers objects P V (.dict members) snapshot := by
  subst hsnap
  have hprep := prepare_of_firstFailure hV hadopted h
  obtain ⟨result, hresult, houtcome, -, hvalue⟩ := @result_ok "ERROR" (by simp) [r] (by simp)
    (by simpa using hr) none (by simp) none (by simp)
  obtain ⟨h1, -, -, h4⟩ := documentOf_members "ERROR" [r] none none
  refine ⟨result, _, ?_, hvalue,
    valid_document (by simp) (by simp) (by simpa using hr) (by simp) (by simp),
    houtcome ▸ h1, ⟨fun _ => ⟨r, h⟩, fun _ => houtcome⟩, ?_, fun hne => absurd houtcome hne⟩
  · unfold evaluateWith
    dsimp only
    rw [hprep, ok_bind]
    exact hresult
  · intro other hother
    obtain rfl : r = other := by
      have := prepare_of_firstFailure hV hadopted hother
      rw [hprep] at this
      exact Option.some.inj (Except.ok.inj this)
    exact h4

theorem prepare_of_passes (hV : ReadsBack P V)
    (hadopted : V.get? "adopted_at" = some (.str P.adopted_at)) {candidate : Value}
    (ha : Admissible V candidate snapshot) (hrules : ∀ rule ∈ membersOf V "rules", RulePasses P rule) :
    prepare P candidate snapshot REGISTRY = .ok none := by
  rw [prepare_admissible hV hadopted ha]
  exact first_eq_none.mpr fun rule hrule => rule_failure_of_passes (hrules rule hrule)

/-- Rules that pass are walked, and the result has a reason. -/
theorem delivers_walk (hV : ReadsBack P V)
    (hadopted : V.get? "adopted_at" = some (.str P.adopted_at))
    (hc : (Value.dict members).DistinctKeys) (hs : snapshot.DistinctKeys)
    (ha : Admissible V (.dict members) snapshot)
    (hrules : ∀ rule ∈ membersOf V "rules", RulePasses P rule)
    (hobject : ¬ MeetsObject objects P V (.dict members) snapshot) :
    Delivers objects P V (.dict members) snapshot := by
  have hprep := prepare_of_passes hV hadopted ha hrules
  obtain ⟨clauses, hready⟩ := ready_of_prepare hV hprep
  obtain ⟨w, hw⟩ : ∃ w, World.ofObjects objects V (.dict members) snapshot = w := ⟨_, rfl⟩
  have hsees : w.Sees clauses := by
    by_contra hblind
    exact hobject ⟨ha, hrules, clauses, hready.rules, hw.symm ▸ hblind⟩
  obtain ⟨o, ho, hdefault⟩ := rulebook_default_outcome hV.valid
  have hmem : lit o ∈ [lit "BLOCK", lit "HOLD"] := by simpa using ho
  obtain ⟨r, hr, houtcome, hcanonical, hvalue⟩ :=
    evaluateWith_returns objects hV hc hs hprep hready hdefault hmem hw hsees
  obtain ⟨o', ho', houtcome'⟩ := @decision_outcome_mem w _ _ hready.rules _ hmem
  have hwritable := hready.writable hV
  obtain ⟨hne, hsound, hmatched⟩ := decision_sound hwritable hsees (lit o)
  have hro : r.outcome = lit o' := houtcome.trans houtcome'
  rw [hro] at hvalue
  have hnotError : r.outcome ≠ lit "ERROR" := by
    rw [hro]
    simp only [List.mem_cons, List.not_mem_nil, or_false] at ho'
    rcases ho' with rfl | rfl | rfl <;> simp
  obtain ⟨h1, -, -, h4⟩ := documentOf_members (lit o') ((w.decision clauses).reasons (lit o))
    (w.decision clauses).matched_rule (some (w.trace 0 clauses))
  have hnone : ∀ reason, ¬ FirstFailure P V (.dict members) snapshot reason := by
    intro reason hfail
    have := prepare_of_firstFailure hV hadopted hfail
    rw [hprep] at this
    cases this
  refine ⟨r, _, hr, hvalue, valid_document ?_ hne hsound hmatched ?_, hro ▸ h1, ?_,
    fun reason hfail => absurd hfail (hnone reason), fun _ => ⟨?_, _, h4, by simpa using hne⟩⟩
  · clear * - ho'
    simp only [List.mem_cons, List.not_mem_nil, or_false] at ho' ⊢
    tauto
  · simpa using @encodable_trace w _ hwritable 0
  · exact ⟨fun h => absurd h hnotError, fun ⟨reason, h⟩ => absurd h (hnone reason)⟩
  · rw [hro]
    simpa using ho'

/-- A rule that is unsettled by the object alone is not delivered. -/
theorem not_delivers_of_meetsObject (hV : ReadsBack P V)
    (hadopted : V.get? "adopted_at" = some (.str P.adopted_at))
    (hc : (Value.dict members).DistinctKeys) (hs : snapshot.DistinctKeys)
    (h : MeetsObject objects P V (.dict members) snapshot) :
    ¬ Delivers objects P V (.dict members) snapshot := by
  obtain ⟨ha, hrules, clauses, hclauses, hblind⟩ := h
  rintro ⟨r, d, hr, -⟩
  have hprep := prepare_of_passes hV hadopted ha hrules
  have hready : Ready V (.dict members) snapshot clauses :=
    ⟨ha.valid_candidate, (validate_snapshot_iff _).mp ha.valid_snapshot, hclauses⟩
  exact evaluate_overlooks objects hV hc hs hprep hready rfl hblind r hr

end Delivery

theorem adopted_at_of_pin {v : Value} (hv : v.DistinctKeys) {P : rulebook.LoadedRulebook}
    (hpin : rulebook.pin v REGISTRY = .ok P) :
    v.normalize.get? "adopted_at" = some (.str P.adopted_at) := by
  obtain ⟨-, -, -, -, hid⟩ := rulebook.pin_eq_ok.mp hpin
  have hget := getItem_normalize hv (lit "adopted_at")
  rw [getItem_eq_ok.mpr hid.adopted_at] at hget
  exact getItem_eq_ok.mp hget

/-- Evaluation returns the result that it owes for every candidate and every
snapshot, exactly when preparation meets no integer that is too long and the walk no
rule that only an object of the evaluator leaves unsettled. -/
theorem evaluate_delivers_iff {v : Value} (hv : v.DistinctKeys) {P : rulebook.LoadedRulebook}
    (hpin : rulebook.pin v REGISTRY = .ok P) {V : Value} (hV : P.value = .ok V) (objects : Objects)
    {candidate snapshot : List (Str × Value)} (hc : (Value.dict candidate).Canonical)
    (hs : (Value.dict snapshot).Canonical) :
    Delivers objects P V (.dict candidate) (.dict snapshot) ↔
      ¬ MeetsLongInteger P V (.dict candidate) (.dict snapshot) ∧
        ¬ MeetsObject objects P V (.dict candidate) (.dict snapshot) := by
  have hR := readsBack_of_pin hv hpin
  obtain rfl : v.normalize = V := Except.ok.inj (hR.value.symm.trans hV)
  have hadopted := adopted_at_of_pin hv hpin
  constructor
  · intro hdelivers
    refine ⟨fun hlong => ?_, fun hobject =>
      not_delivers_of_meetsObject objects hR hadopted hc.distinctKeys hs.distinctKeys hobject hdelivers⟩
    obtain ⟨r, d, hr, -⟩ := hdelivers
    unfold evaluateWith at hr
    dsimp only at hr
    rw [prepare_of_meetsLongInteger hR hadopted hlong] at hr
    cases hr
  · rintro ⟨hshort, hobject⟩
    rcases inputs_cases hR hs with ⟨r, hfail, hsound⟩ | ⟨ha, hrules⟩ | hlong
    · exact delivers_failure objects hR hadopted rfl hfail hsound
    · exact delivers_walk objects hR hadopted hc.distinctKeys hs.distinctKeys ha hrules hobject
    · exact absurd hlong hshort

theorem canonical_snapshotWith {items : List Value} (h : ∀ item ∈ items, item.Canonical) :
    (snapshotWith items).Canonical := by
  simpa [snapshotWith, Distinct] using h

theorem evaluate_delivers_presentReport :
    ∃ P V, rulebook.pin (rulebook.rulebookWith presentReport) REGISTRY = .ok P ∧
      Delivers .loaded P V (.dict smallCandidate) (snapshotWith []) := by
  obtain ⟨P, hP, -⟩ := rulebook.pin_rulebookWith encodable_presentReport
  have hv := (rulebook.canonical_rulebookWith encodable_presentReport).distinctKeys
  have hR := readsBack_of_pin hv hP
  refine ⟨P, _, hP, (evaluate_delivers_iff hv hP hR.value .loaded canonical_smallCandidate
    (canonical_snapshotWith (by simp))).mpr ⟨fun hlong => ?_, ?_⟩⟩
  swap
  · rintro ⟨-, -, clauses, -, hblind⟩
    exact hblind (sees_of _ _ _ clauses)
  have hprep := @prepare_presentReport P hP [] (by simp)
  have hraise := prepare_of_meetsLongInteger hR (adopted_at_of_pin hv hP) hlong
  cases hraise.symm.trans hprep

/-- A comparison with an integer of 4301 digits. -/
def longComparison : Str := List.replicate 4301 (.scalar '1') ++ lit " == candidate.count"

theorem encodable_longComparison : Encodable longComparison := by
  refine encodable_append.mpr ⟨fun c hc => ?_, encodable_lit _⟩
  exact ⟨_, List.eq_of_mem_replicate hc⟩

theorem parse_longComparison : parse_expression (.str longComparison) = .error .value_error := by
  rw [← errorOf_eq_some]
  decide +kernel

/-- A pinned rulebook with such a rule makes evaluation raise. -/
theorem evaluate_raises_on_long_integer :
    ∃ P V, rulebook.pin (rulebook.rulebookWith longComparison) REGISTRY = .ok P ∧
      P.value = .ok V ∧ (Value.dict smallCandidate).Canonical ∧ (snapshotWith []).Canonical ∧
      evaluate P (.dict smallCandidate) (snapshotWith []) REGISTRY = .error .value_error ∧
      ¬ Delivers .loaded P V (.dict smallCandidate) (snapshotWith []) := by
  obtain ⟨P, hP, -⟩ := rulebook.pin_rulebookWith encodable_longComparison
  have hv := (rulebook.canonical_rulebookWith encodable_longComparison).distinctKeys
  have hR := readsBack_of_pin hv hP
  have hadopted := adopted_at_of_pin hv hP
  rw [rulebook.normalize_rulebookWith] at hR hadopted
  have hsnapshot : IsSnapshot (snapshotWith []) := isSnapshot_snapshotWith (by simp)
  have ha : Admissible (rulebook.rulebookWith longComparison) (.dict smallCandidate)
      (snapshotWith []) :=
    ⟨validate_smallCandidate, (validate_snapshot_iff _).mpr hsnapshot, by
      simp [membersOf, snapshotWith], by
      simp only [Adopted, instantAt, rulebook.rulebookWith, snapshotWith]
      decide +kernel⟩
  have hlong : MeetsLongInteger P (rulebook.rulebookWith longComparison) (.dict smallCandidate)
      (snapshotWith []) := by
    refine ⟨ha, [], _, [], by simp [membersOf, rulebook.rulebookWith]; rfl, by simp,
      longComparison, by simp, parse_expression_too_long.mp parse_longComparison⟩
  have hraise : evaluate P (.dict smallCandidate) (snapshotWith []) REGISTRY =
      .error .value_error := by
    unfold evaluate evaluateWith
    rw [snapshotWith]
    dsimp only
    rw [← snapshotWith, prepare_of_meetsLongInteger hR hadopted hlong]
    rfl
  refine ⟨P, _, hP, hR.value, canonical_smallCandidate, canonical_snapshotWith (by simp), hraise,
    ?_⟩
  rintro ⟨r, d, hr, -⟩
  change evaluate P (.dict smallCandidate) (snapshotWith []) REGISTRY = .ok r at hr
  rw [hraise] at hr
  cases hr

end vfy.gate
