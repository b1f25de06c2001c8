-- The walk over the rules: the evaluator ends where the reference walk ends,
-- and a decision that was settled does not depend on what was not.
import VerifyRun.Worlds

namespace vfy.gate

open python keys outcomes expr schema

/-! ## Rules -/

/-- A rule of a rulebook. -/
structure Rule where
  id : Str
  when_ : Str
  outcome : Str
  reason : Str
  needs : List Str

/-- The value holds this rule. -/
structure Rule.Of (rule : Rule) (v : Value) : Prop where
  id : v.get? "id" = some (.str rule.id)
  when_ : v.get? "when" = some (.str rule.when_)
  outcome : v.get? "outcome" = some (.str rule.outcome)
  outcome_mem : rule.outcome ∈ [lit "ALLOW", lit "BLOCK", lit "HOLD"]
  reason : v.get? "reason" = some (.str rule.reason)
  needs : getOr v "requires_evidence" (.list []) = .ok (.list (rule.needs.map .str))

theorem rule_of_isRule {v : Value} (h : IsRule v) : ∃ rule : Rule, rule.Of v := by
  obtain ⟨_, hid, id, rfl⟩ := ClosedObject.require h (f := ("id", TEXT, IsText))
    (by simp) (by simp [ruleFields]) (by decide)
  obtain ⟨_, hwhen, when_, rfl⟩ := ClosedObject.require h (f := ("when", TEXT, IsText))
    (by simp) (by simp [ruleFields]) (by decide)
  obtain ⟨_, houtcome, o, ho, rfl⟩ := ClosedObject.require h
    (f := ("outcome", oneOf ["ALLOW", "BLOCK", "HOLD"], IsOneOf ["ALLOW", "BLOCK", "HOLD"]))
    (by simp) (by simp [ruleFields]) (by decide)
  obtain ⟨_, hreason, reason, rfl⟩ := ClosedObject.require h (f := ("reason", TEXT, IsText))
    (by simp) (by simp [ruleFields]) (by decide)
  have hmem : lit o ∈ [lit "ALLOW", lit "BLOCK", lit "HOLD"] := by
    simpa using ho
  obtain ⟨members, rfl, -, -⟩ := (show ClosedObject _ _ v from h)
  cases hneeds : members.lookup (lit "requires_evidence") with
  | none =>
    refine ⟨⟨id, when_, lit o, reason, []⟩, hid, hwhen, houtcome, hmem, hreason, ?_⟩
    simp [getOr, getMethod, hneeds, pure, Except.pure]
  | some w =>
    obtain ⟨items, rfl, hitems⟩ := ClosedObject.accepted h
      (f := ("requires_evidence", TEXTS, IsList IsText)) (by simp [ruleFields]) (by decide) hneeds
    obtain ⟨needs, rfl⟩ : ∃ needs : List Str, items = needs.map .str := by
      clear hneeds
      induction items with
      | nil => exact ⟨[], rfl⟩
      | cons item rest ih =>
        obtain ⟨s, rfl⟩ := hitems item (by simp)
        obtain ⟨needs, rfl⟩ := ih fun x hx => hitems x (by simp [hx])
        exact ⟨s :: needs, rfl⟩
    refine ⟨⟨id, when_, lit o, reason, needs⟩, hid, hwhen, houtcome, hmem, hreason, ?_⟩
    simp [getOr, getMethod, hneeds, pure, Except.pure]

/-- A rule and the tree of its `when`. -/
structure Clause where
  rule : Rule
  tree : Expr

/-- The value holds the rule, and its `when` parses to the tree. -/
structure Clause.Of (clause : Clause) (v : Value) : Prop where
  rule : clause.rule.Of v
  tree : ∃ parsed, parse_expression (.str clause.rule.when_) = .ok parsed ∧
    Parsed clause.rule.when_ clause.tree parsed

/-! ## The reference walk -/

/-- The state of a rule: unsettled where some required evidence is not ok, and
otherwise what its tree denotes. -/
def World.state (w : World) (clause : Clause) : State :=
  if clause.rule.needs.all w.ok then w.denote clause.tree else .unsettled

/-- The causes of a rule. -/
def World.stateCauses (w : World) (clause : Clause) : List Cause :=
  match clause.rule.needs.find? fun id => !w.ok id with
  | some id => [.evidence_unsettled id]
  | none => (w.causes clause.tree).foldl noted []

/-- How a walk ends: at a rule that is true, at one that is unsettled, or
after the last rule. -/
inductive Decision where
  | matched (rule : Rule)
  | held (rule : Rule) (causes : List Cause)
  | default

/-- The first rule that is not false decides. -/
def World.decision (w : World) : List Clause → Decision
  | [] => .default
  | clause :: rest =>
    match w.state clause with
    | .true => .matched clause.rule
    | .unsettled => .held clause.rule (w.stateCauses clause)
    | .false => w.decision rest

/-- The trace, from a rule on: it stops at the first rule that is not false. -/
def World.trace (w : World) : Nat → List Clause → List Str
  | _, [] => []
  | ordinal, clause :: rest =>
    trace_line ordinal clause.rule.id (w.state clause) ::
      if w.state clause = .false then w.trace (ordinal + 1) rest else []

def Decision.outcome (default_outcome : Str) : Decision → Str
  | .matched rule => rule.outcome
  | .held _ _ => "HOLD"
  | .default => default_outcome

def Decision.matched_rule : Decision → Option Str
  | .matched rule => some rule.id
  | _ => none

/-- The code of an outcome. -/
def codeIn (mapping : List (Str × Str)) (outcome : Str) : Str := (mapping.lookup outcome).getD []

def Decision.reasons (default_outcome : Str) : Decision → List Value
  | .matched rule => [gate.reason (codeIn RULE_CODES rule.outcome) rule.reason (some rule.id) none]
  | .held rule causes => causes.map fun cause =>
      gate.reason cause.code cause.message (some rule.id) cause.evidence_id
  | .default => [gate.reason (codeIn DEFAULT_CODES default_outcome) DEFAULT_MESSAGE none none]

/-! ## The walk is the reference walk -/

section Walk

variable {context : Context} {w : World}

theorem first_unsettled_eq (h : Models context w) (needs : List Str) :
    first_unsettled context (needs.map .str) = .ok (needs.find? fun id => !w.ok id) := by
  induction needs with
  | nil => rfl
  | cons id rest ih =>
    rw [List.map_cons, first_unsettled, List.find?_cons]
    simp only [string, ok_bind, h.ok id]
    cases w.ok id with
    | false => rfl
    | true => exact ih

theorem ast_eq {source : Str} {e : Expr} {parsed : ParsedExpression} (h : Parsed source e parsed) :
    parsed.ast = .ok e.node.normalize := by
  unfold ParsedExpression.ast
  rw [load.load_canonical_bytes h.isCanonical (canonical_bytes_of_canonicalize h.canonical),
    if_pos h.depth]

/-- The state and the causes of a rule. -/
theorem rule_state_eq (h : Models context w) {clause : Clause} {v : Value} (hv : clause.Of v) :
    rule_state context v = .ok (w.state clause, w.stateCauses clause) := by
  obtain ⟨parsed, hparse, hparsed⟩ := hv.tree
  unfold rule_state World.state World.stateCauses
  rw [hv.rule.needs, ok_bind, show iterate (.list (clause.rule.needs.map .str)) = .ok _ from rfl,
    ok_bind, first_unsettled_eq h, ok_bind]
  cases hfind : clause.rule.needs.find? fun id => !w.ok id with
  | some id =>
    have hnot : ¬ clause.rule.needs.all w.ok = true := by
      obtain ⟨hid, l, r, heq, -⟩ := List.find?_eq_some_iff_append.mp hfind
      rw [List.all_eq_true]
      intro hall
      have := hall id (by simp [heq])
      simp [this] at hid
    rw [if_neg hnot]
    rfl
  | none =>
    have hall : clause.rule.needs.all w.ok = true := by
      rw [List.all_eq_true]
      intro id hid
      simpa using List.find?_eq_none.mp hfind id hid
    rw [if_pos hall]
    dsimp only
    rw [getItem_eq_ok.mpr hv.rule.when_, ok_bind, hparse, ok_bind, ast_eq hparsed, ok_bind]
    exact evaluate_node_eq h clause.tree _ [] (hparsed.height.trans (by decide))

theorem codeOf_rule {outcome : Str} (h : outcome ∈ [lit "ALLOW", lit "BLOCK", lit "HOLD"]) :
    codeOf RULE_CODES outcome = .ok (codeIn RULE_CODES outcome) := by
  simp only [List.mem_cons, List.not_mem_nil, or_false] at h
  rcases h with rfl | rfl | rfl <;> simp [codeOf, codeIn, RULE_CODES]

theorem codeOf_default {outcome : Str} (h : outcome ∈ [lit "BLOCK", lit "HOLD"]) :
    codeOf DEFAULT_CODES outcome = .ok (codeIn DEFAULT_CODES outcome) := by
  simp only [List.mem_cons, List.not_mem_nil, or_false] at h
  rcases h with rfl | rfl <;> simp [codeOf, codeIn, DEFAULT_CODES]

/-- The walk gives the result of the decision and of the trace. -/
theorem walk_eq (h : Models context w) {registry : Registry} {default_outcome : Str}
    (hdefault : context.rulebook.get? "default_outcome" = some (.str default_outcome))
    (hmem : default_outcome ∈ [lit "BLOCK", lit "HOLD"]) {clauses : List Clause}
    {rules : List Value} (hr : List.Forall₂ Clause.Of clauses rules) (ordinal : Nat)
    (trace : List Str) :
    walk context registry rules ordinal trace =
      result registry ((w.decision clauses).outcome default_outcome)
        ((w.decision clauses).reasons default_outcome) (w.decision clauses).matched_rule
        (some (trace ++ w.trace ordinal clauses)) := by
  induction hr generalizing ordinal trace with
  | nil =>
    rw [walk, getItem_eq_ok.mpr hdefault]
    simp only [ok_bind, string, codeOf_default hmem, World.decision, World.trace, List.append_nil]
    rfl
  | @cons clause v clauses rules hv _ ih =>
    rw [walk, rule_state_eq h hv, ok_bind]
    simp only [getItem_eq_ok.mpr hv.rule.id, ok_bind, string, World.decision, World.trace]
    cases hstate : w.state clause with
    | true =>
      simp only [getItem_eq_ok.mpr hv.rule.outcome, getItem_eq_ok.mpr hv.rule.reason, ok_bind,
        codeOf_rule hv.rule.outcome_mem]
      rfl
    | unsettled => rfl
    | false =>
      simp only [ih, if_true, List.append_assoc, List.singleton_append]

end Walk

/-! ## The object that stands for unsettled -/

/-- The path of an operand, if it is one. -/
def pathsOf : Operand → List Path
  | .literal _ => []
  | .path p => [p]

mutual

/-- The paths that the operands of an expression follow. -/
def operandPaths : Expr → List Path
  | .or operands => allOperandPaths operands
  | .and operands => allOperandPaths operands
  | .not operand => operandPaths operand
  | .compare _ l r => pathsOf l ++ pathsOf r
  | .membership _ o _ => pathsOf o
  | .fresh _ => []
  | .present _ => []
  | .matchesGlob p _ => [p]

def allOperandPaths : List Expr → List Path
  | [] => []
  | e :: rest => operandPaths e ++ allOperandPaths rest

end

/-- A path leads to the very object `UNSETTLED`. -/
def World.Sentinel (w : World) (p : Path) : Prop :=
  w.same p = true ∧ w.found p = .value (.str UNSETTLED)

/-- An operand of the expression is that object. -/
def World.Meets (w : World) (e : Expr) : Prop := ∃ p ∈ operandPaths e, w.Sentinel p

theorem identified_false (r : Resolved) : identified false r = r := by
  cases r with
  | value v => cases v <;> simp [identified]
  | _ => rfl

theorem identified_eq_unsettled {same : Bool} {r : Resolved} :
    identified same r = .unsettled ↔ r = .unsettled ∨ same = true ∧ r = .value (.str UNSETTLED) := by
  cases r with
  | value v => cases v <;> simp [identified]
  | _ => simp [identified]

theorem identified_eq_self {same : Bool} {r : Resolved}
    (h : ¬ (same = true ∧ r = .value (.str UNSETTLED))) : identified same r = r := by
  cases r with
  | value v =>
    cases v with
    | str text =>
      rw [identified, if_neg]
      rintro ⟨hsame, rfl⟩
      exact h ⟨hsame, rfl⟩
    | _ => rfl
  | _ => rfl

theorem pathCauses_plain (w : World) (p : Path) : w.plain.pathCauses p = w.pathCauses p := rfl

theorem operandCauses_plain (w : World) (o : Operand) :
    w.plain.operandCauses o = w.operandCauses o := by
  cases o <;> rfl

/-! ## Unsettled rules have a cause -/

theorem foldl_noted_eq_nil {causes l : List Cause} :
    l.foldl noted causes = [] ↔ causes = [] ∧ l = [] := by
  induction l generalizing causes with
  | nil => simp
  | cons c l ih =>
    rw [List.foldl_cons, ih]
    unfold noted
    by_cases hc : c ∈ causes
    · rw [if_pos hc]
      have : causes ≠ [] := List.ne_nil_of_mem hc
      simp [this]
    · rw [if_neg hc]
      simp

theorem elim_ne_unsettled (o : Option Value) : o.elim .absent Resolved.value ≠ .unsettled := by
  cases o <;> simp

theorem foldl_select_ne_unsettled (segments : List Segment) {r : Resolved} (h : r ≠ .unsettled) :
    segments.foldl select r ≠ .unsettled := by
  induction segments generalizing r with
  | nil => exact h
  | cons segment rest ih =>
    refine ih ?_
    unfold select
    split
    · exact elim_ne_unsettled _
    · exact elim_ne_unsettled _
    · simp
    · exact h

/-- What is found at a path is unsettled exactly when the path notes a cause. -/
theorem found_unsettled_iff (w : World) (p : Path) :
    w.found p = .unsettled ↔ w.pathCauses p ≠ [] := by
  unfold World.found World.pathCauses
  cases hroot : p.root with
  | candidate => simpa using foldl_select_ne_unsettled _ (by simp)
  | identity => simpa using foldl_select_ne_unsettled _ (elim_ne_unsettled _)
  | evidence =>
    cases hv : w.value p.first with
    | none => simp
    | some v => simpa using foldl_select_ne_unsettled _ (by simp)

theorem path_unsettled_iff (w : World) (p : Path) :
    w.path p = .unsettled ↔ w.Sentinel p ∨ w.pathCauses p ≠ [] := by
  rw [← found_unsettled_iff, World.path, identified_eq_unsettled, or_comm]
  rfl

theorem operand_unsettled_iff (w : World) (o : Operand) :
    w.operand o = .unsettled ↔ (∃ p ∈ pathsOf o, w.Sentinel p) ∨ w.operandCauses o ≠ [] := by
  cases o with
  | literal l => simp [World.operand, World.operandCauses, pathsOf]
  | path p =>
    rw [World.operand, path_unsettled_iff]
    simp [pathsOf, World.operandCauses]

theorem comparison_unsettled_iff (o : Operator) (l r : Resolved) :
    comparison o l r = .unsettled ↔
      l = .unsettled ∨ r = .unsettled ∨ comparisonCauses o l r ≠ [] := by
  cases l <;> cases r <;> simp [comparison, comparisonCauses]

theorem globbed_unsettled_iff (pattern : Str) (r : Resolved) :
    globbed pattern r = .unsettled ↔ r = .unsettled ∨ globbedCauses r ≠ [] := by
  cases r with
  | unsettled => simp [globbed]
  | absent => simp [globbed, globbedCauses]
  | value v => cases v <;> simp [globbed, globbedCauses, settled_ne_unsettled]

theorem contained_unsettled_iff (negated : Bool) (members : List Literal) (r : Resolved) :
    contained negated members r = .unsettled ↔ r = .unsettled := by
  cases r <;> simp [contained, settled_ne_unsettled]

theorem unsettled_mem_denoteAll {w : World} {es : List Expr}
    (ih : ∀ e ∈ es, w.denote e = .unsettled ↔ w.Meets e ∨ w.causes e ≠ []) :
    .unsettled ∈ w.denoteAll es ↔
      (∃ p ∈ allOperandPaths es, w.Sentinel p) ∨ w.allCauses es ≠ [] := by
  induction es with
  | nil => simp [World.denoteAll, World.allCauses, allOperandPaths]
  | cons e rest ihr =>
    have he := ih e (by simp)
    have hrest := ihr fun f hf => ih f (by simp [hf])
    rw [World.denoteAll, List.mem_cons, eq_comm, he, hrest, World.allCauses, allOperandPaths]
    simp only [World.Meets, List.mem_append, ne_eq, List.append_eq_nil_iff, not_and_or, or_and_right,
      exists_or]
    exact or_or_or_comm

/-- An expression is unsettled exactly when a full traversal meets a cause, or the
object that stands for unsettled. -/
theorem denote_unsettled_iff (w : World) (e : Expr) :
    w.denote e = .unsettled ↔ w.Meets e ∨ w.causes e ≠ [] := by
  induction e with
  | or es ih =>
    rw [World.denote, World.causes, World.Meets, operandPaths, ← unsettled_mem_denoteAll ih,
      disjunction]
    by_cases hu : .unsettled ∈ w.denoteAll es <;> simp [hu, settled_ne_unsettled]
  | and es ih =>
    rw [World.denote, World.causes, World.Meets, operandPaths, ← unsettled_mem_denoteAll ih,
      conjunction]
    by_cases hu : .unsettled ∈ w.denoteAll es <;> simp [hu, settled_ne_unsettled]
  | not e ih =>
    rw [World.denote, World.causes, World.Meets, operandPaths, ← World.Meets, ← ih]
    cases w.denote e <;> simp [negation]
  | compare o l r =>
    rw [World.denote, World.causes, World.Meets, operandPaths, comparison_unsettled_iff,
      operand_unsettled_iff, operand_unsettled_iff]
    simp only [List.mem_append, ne_eq, List.append_eq_nil_iff, not_and_or, or_and_right, exists_or]
    rw [← or_assoc, or_or_or_comm, or_assoc]
  | membership negated o members =>
    rw [World.denote, World.causes, contained_unsettled_iff, operand_unsettled_iff]
    rfl
  | fresh id => simp [World.denote, World.causes, World.Meets, operandPaths, settled_ne_unsettled]
  | present id => simp [World.denote, World.causes, World.Meets, operandPaths, settled_ne_unsettled]
  | matchesGlob p pattern =>
    rw [World.denote, World.causes, World.Meets, operandPaths, globbed_unsettled_iff,
      path_unsettled_iff]
    simp only [List.mem_singleton, exists_eq_left, ne_eq, List.append_eq_nil_iff, not_and_or, or_assoc]

/-! ## The same world without that object -/

theorem path_plain {w : World} {p : Path} (h : ¬ w.Sentinel p) : w.path p = w.plain.path p := by
  show identified (w.same p) (w.found p) = identified false (w.found p)
  rw [identified_false]
  exact identified_eq_self h

theorem operand_plain {w : World} {o : Operand} (h : ∀ p ∈ pathsOf o, ¬ w.Sentinel p) :
    w.operand o = w.plain.operand o := by
  cases o with
  | literal l => rfl
  | path p => exact path_plain (h p (by simp [pathsOf]))

/-- An expression that does not meet the object means the same without it. -/
theorem denote_plain {w : World} (e : Expr) (h : ¬ w.Meets e) :
    w.denote e = w.plain.denote e ∧ w.causes e = w.plain.causes e := by
  have hall : ∀ es : List Expr, (∀ e ∈ es, ¬ w.Meets e → w.denote e = w.plain.denote e ∧
      w.causes e = w.plain.causes e) → (¬ ∃ p ∈ allOperandPaths es, w.Sentinel p) →
      w.denoteAll es = w.plain.denoteAll es ∧ w.allCauses es = w.plain.allCauses es := by
    intro es ih hes
    induction es with
    | nil => exact ⟨rfl, rfl⟩
    | cons e rest ihr =>
      obtain ⟨hd, hc⟩ := ih e (by simp) fun ⟨p, hp, hs⟩ =>
        hes ⟨p, by simp [allOperandPaths, hp], hs⟩
      obtain ⟨hds, hcs⟩ := ihr (fun f hf => ih f (by simp [hf])) fun ⟨p, hp, hs⟩ =>
        hes ⟨p, by simp [allOperandPaths, hp], hs⟩
      simp only [World.denoteAll, World.allCauses, hd, hc, hds, hcs, and_self]
  induction e with
  | or es ih =>
    obtain ⟨hd, hc⟩ := hall es ih h
    simp only [World.denote, World.causes, hd, hc, and_self]
  | and es ih =>
    obtain ⟨hd, hc⟩ := hall es ih h
    simp only [World.denote, World.causes, hd, hc, and_self]
  | not e ih =>
    obtain ⟨hd, hc⟩ := ih h
    simp only [World.denote, World.causes, hd, hc, and_self]
  | compare o l r =>
    have hl : w.operand l = w.plain.operand l :=
      operand_plain fun p hp hs => h ⟨p, by simp [operandPaths, hp], hs⟩
    have hr : w.operand r = w.plain.operand r :=
      operand_plain fun p hp hs => h ⟨p, by simp [operandPaths, hp], hs⟩
    simp only [World.denote, World.causes, hl, hr, operandCauses_plain, and_self]
  | membership negated o members =>
    have ho : w.operand o = w.plain.operand o := operand_plain fun p hp hs => h ⟨p, hp, hs⟩
    simp only [World.denote, World.causes, ho, operandCauses_plain, and_self]
  | fresh id => exact ⟨rfl, rfl⟩
  | present id => exact ⟨rfl, rfl⟩
  | matchesGlob p pattern =>
    have hp : w.path p = w.plain.path p :=
      path_plain fun hs => h ⟨p, by simp [operandPaths], hs⟩
    simp only [World.denote, World.causes, hp, pathCauses_plain, and_self]

/-- Without the object an expression has every cause that it has with it. -/
theorem causes_sublist_plain (w : World) (e : Expr) : (w.causes e).Sublist (w.plain.causes e) := by
  have hall : ∀ es : List Expr, (∀ e ∈ es, (w.causes e).Sublist (w.plain.causes e)) →
      (w.allCauses es).Sublist (w.plain.allCauses es) := by
    intro es ih
    induction es with
    | nil => exact .slnil
    | cons e rest ihr => exact (ih e (by simp)).append (ihr fun f hf => ih f (by simp [hf]))
  induction e with
  | or es ih => exact hall es ih
  | and es ih => exact hall es ih
  | not e ih => exact ih
  | compare o l r =>
    rw [World.causes, World.causes, operandCauses_plain, operandCauses_plain]
    refine List.Sublist.append_left ?_ _
    by_cases h : (∃ p ∈ pathsOf l, w.Sentinel p) ∨ ∃ p ∈ pathsOf r, w.Sentinel p
    · have hnil : comparisonCauses o (w.operand l) (w.operand r) = [] := by
        rcases h with h | h
        · rw [(operand_unsettled_iff w l).mpr (.inl h)]
          rfl
        · rw [(operand_unsettled_iff w r).mpr (.inl h)]
          cases w.operand l <;> rfl
      rw [hnil]
      exact List.nil_sublist _
    · rw [not_or] at h
      rw [operand_plain fun p hp hs => h.1 ⟨p, hp, hs⟩, operand_plain fun p hp hs => h.2 ⟨p, hp, hs⟩]
  | membership negated o members =>
    rw [World.causes, World.causes, operandCauses_plain]
  | fresh id => exact .slnil
  | present id => exact .slnil
  | matchesGlob p pattern =>
    rw [World.causes, World.causes, pathCauses_plain]
    refine List.Sublist.append_left ?_ _
    by_cases h : w.Sentinel p
    · rw [(path_unsettled_iff w p).mpr (.inl h)]
      exact List.nil_sublist _
    · rw [path_plain h]

/-! ## Rules that the object leaves without a cause -/

/-- The evidence that the rule requires is ok, and an operand of it is the object
that stands for unsettled. -/
def World.Touches (w : World) (clause : Clause) : Prop :=
  clause.rule.needs.all w.ok = true ∧ w.Meets clause.tree

/-- Nothing else of the rule is unsettled. -/
def World.Overlooks (w : World) (clause : Clause) : Prop :=
  w.Touches clause ∧ w.causes clause.tree = []

/-- Every rule before this one is false. -/
def World.Reaches (w : World) (clauses : List Clause) (c : Clause) : Prop :=
  ∃ before after, clauses = before ++ c :: after ∧ ∀ b ∈ before, w.state b = .false

/-- The walk reaches no rule that is unsettled without a cause. -/
def World.Sees (w : World) (clauses : List Clause) : Prop :=
  ∀ c, w.Reaches clauses c → ¬ w.Overlooks c

theorem reaches_head {w : World} (c : Clause) (rest : List Clause) : w.Reaches (c :: rest) c :=
  ⟨[], rest, rfl, by simp⟩

theorem World.Reaches.tail {w : World} {c d : Clause} {rest : List Clause} (h : w.Reaches rest d)
    (hc : w.state c = .false) : w.Reaches (c :: rest) d := by
  obtain ⟨before, after, rfl, hbefore⟩ := h
  exact ⟨c :: before, after, rfl, List.forall_mem_cons.mpr ⟨hc, hbefore⟩⟩

theorem World.Sees.tail {w : World} {c : Clause} {rest : List Clause} (h : w.Sees (c :: rest))
    (hc : w.state c = .false) : w.Sees rest := fun d hd => h d (hd.tail hc)

theorem state_of_touches {w : World} {clause : Clause} (h : w.Touches clause) :
    w.state clause = .unsettled := by
  rw [World.state, if_pos h.1, denote_unsettled_iff]
  exact .inl h.2

theorem stateCauses_of_ok {w : World} {clause : Clause} (h : clause.rule.needs.all w.ok = true) :
    w.stateCauses clause = (w.causes clause.tree).foldl noted [] := by
  have hfind : clause.rule.needs.find? (fun id => !w.ok id) = none := by
    rw [List.find?_eq_none]
    intro id hid
    simpa using List.all_eq_true.mp h id hid
  rw [World.stateCauses, hfind]

/-- A rule that the object does not touch is as it is without it. -/
theorem state_plain_of_not_touches {w : World} {clause : Clause} (h : ¬ w.Touches clause) :
    w.state clause = w.plain.state clause ∧ w.stateCauses clause = w.plain.stateCauses clause := by
  unfold World.state World.stateCauses
  by_cases hall : clause.rule.needs.all w.ok = true
  · obtain ⟨hd, hc⟩ := denote_plain clause.tree fun hm => h ⟨hall, hm⟩
    rw [hd, hc]
    exact ⟨rfl, rfl⟩
  · rw [if_neg hall]
    have hsome : ∃ id, clause.rule.needs.find? (fun id => !w.ok id) = some id := by
      rw [← Option.isSome_iff_exists, List.find?_isSome]
      simpa using hall
    obtain ⟨id, hid⟩ := hsome
    have hid' : clause.rule.needs.find? (fun id => !w.plain.ok id) = some id := hid
    rw [hid, hid']
    exact ⟨(if_neg hall).symm, rfl⟩

/-- A rule that has another cause is in the state that it is in without the object. -/
theorem state_plain {w : World} {clause : Clause} (h : ¬ w.Overlooks clause) :
    w.state clause = w.plain.state clause := by
  by_cases ht : w.Touches clause
  · have hne : w.causes clause.tree ≠ [] := fun hnil => h ⟨ht, hnil⟩
    have hplain : w.plain.causes clause.tree ≠ [] := by
      intro hnil
      have hsub := causes_sublist_plain w clause.tree
      rw [hnil] at hsub
      exact hne (List.sublist_nil.mp hsub)
    rw [state_of_touches ht]
    show _ = if clause.rule.needs.all w.ok = true then _ else _
    rw [if_pos ht.1, (denote_unsettled_iff w.plain clause.tree).mpr (.inr hplain)]
  · exact (state_plain_of_not_touches ht).1

/-- An unsettled rule notes a cause, unless it overlooks the object. -/
theorem stateCauses_ne_nil {w : World} {clause : Clause} (h : w.state clause = .unsettled)
    (hsees : ¬ w.Overlooks clause) : w.stateCauses clause ≠ [] := by
  by_cases hall : clause.rule.needs.all w.ok = true
  · rw [World.state, if_pos hall, denote_unsettled_iff] at h
    rw [stateCauses_of_ok hall, ne_eq, foldl_noted_eq_nil]
    rintro ⟨-, hnil⟩
    rcases h with hmeets | hne
    · exact hsees ⟨⟨hall, hmeets⟩, hnil⟩
    · exact hne hnil
  · have hsome : ∃ id, clause.rule.needs.find? (fun id => !w.ok id) = some id := by
      rw [← Option.isSome_iff_exists, List.find?_isSome]
      simpa using hall
    obtain ⟨id, hid⟩ := hsome
    rw [World.stateCauses, hid]
    simp

theorem stateCauses_of_overlooks {w : World} {clause : Clause} (h : w.Overlooks clause) :
    w.stateCauses clause = [] := by
  rw [stateCauses_of_ok h.1.1, h.2]
  rfl

/-- The walk ends at a rule that it reaches and that is unsettled. -/
theorem decision_of_reaches {w : World} {clauses : List Clause} {c : Clause}
    (h : w.Reaches clauses c) (hc : w.state c = .unsettled) :
    w.decision clauses = .held c.rule (w.stateCauses c) := by
  obtain ⟨before, after, rfl, hbefore⟩ := h
  induction before with
  | nil => rw [List.nil_append, World.decision, hc]
  | cons b before ih =>
    rw [List.cons_append, World.decision, hbefore b (by simp)]
    exact ih fun d hd => hbefore d (by simp [hd])

/-- Where every rule that is reached has a cause, the walk ends as it does without the object. -/
theorem decision_plain {w : World} {clauses : List Clause} (h : w.Sees clauses)
    (default_outcome : Str) (ordinal : Nat) :
    (w.decision clauses).outcome default_outcome = (w.plain.decision clauses).outcome default_outcome ∧
      (w.decision clauses).matched_rule = (w.plain.decision clauses).matched_rule ∧
      w.trace ordinal clauses = w.plain.trace ordinal clauses := by
  induction clauses generalizing ordinal with
  | nil => exact ⟨rfl, rfl, rfl⟩
  | cons c rest ih =>
    have hstate := state_plain (h c (reaches_head c rest))
    rw [World.decision, World.decision, World.trace, World.trace, ← hstate]
    cases hs : w.state c with
    | true => exact ⟨rfl, rfl, rfl⟩
    | unsettled => exact ⟨rfl, rfl, rfl⟩
    | false =>
      obtain ⟨ho, hm, ht⟩ := ih (h.tail hs) (ordinal + 1)
      exact ⟨ho, hm, by rw [if_pos rfl, if_pos rfl, ht]⟩

/-- Where no rule that is reached is touched, the walk is the walk without the object. -/
theorem decision_untouched {w : World} {clauses : List Clause}
    (h : ∀ c, w.Reaches clauses c → ¬ w.Touches c) : w.decision clauses = w.plain.decision clauses := by
  induction clauses with
  | nil => rfl
  | cons c rest ih =>
    obtain ⟨hstate, hcauses⟩ := state_plain_of_not_touches (h c (reaches_head c rest))
    rw [World.decision, World.decision, ← hstate, ← hcauses]
    cases hs : w.state c with
    | true => rfl
    | unsettled => rfl
    | false => exact ih fun d hd => h d (hd.tail hs)

/-! ## Results are documents of the outcome schema -/

/-- The document of a result. -/
def documentOf (outcome : Str) (reasons : List Value) (matched_rule : Option Str)
    (trace : Option (List Str)) : Value := .dict
  ([(lit "outcome", .str outcome), (lit "reasons", .list reasons)] ++
    (matched_rule.map fun id => (lit "matched_rule", .str id)).toList ++
    (trace.map fun lines => (lit "trace", .list (lines.map .str))).toList)

theorem isReason_reason (code message : Str) (rule_id evidence_id : Option Str) :
    IsReason (reason code message rule_id evidence_id) := by
  refine ⟨_, rfl, ?_, ?_⟩
  · simp
  · simp only [List.mem_append, List.mem_cons, List.not_mem_nil, or_false, Option.mem_toList,
      Option.map_eq_some_iff]
    rintro m (((rfl | rfl) | ⟨id, -, rfl⟩) | ⟨id, -, rfl⟩) <;> simp [reasonFields, IsText]

theorem isOutcome_documentOf {outcome : String} (h : outcome ∈ ["ALLOW", "BLOCK", "HOLD", "ERROR"])
    {reasons : List Value} (hne : reasons ≠ []) (hr : ∀ r ∈ reasons, IsReason r)
    (matched_rule : Option Str) (trace : Option (List Str)) :
    IsOutcome (documentOf outcome reasons matched_rule trace) := by
  refine ⟨_, rfl, ?_, ?_⟩
  · simp
  · have hlen : 1 ≤ reasons.length := List.length_pos_iff.mpr hne
    have hreasons : IsLongList 1 IsReason (.list reasons) := ⟨reasons, rfl, by omega, hr⟩
    have houtcome : IsOneOf ["ALLOW", "BLOCK", "HOLD", "ERROR"] (.str (lit outcome)) :=
      ⟨outcome, h, rfl⟩
    have htrace : ∀ lines : List Str, IsList IsText (.list (lines.map .str)) := fun lines =>
      ⟨_, rfl, fun v hv => by
        obtain ⟨s, -, rfl⟩ := List.mem_map.mp hv
        exact ⟨s, rfl⟩⟩
    simp only [List.mem_append, List.mem_cons, List.not_mem_nil, or_false, Option.mem_toList,
      Option.map_eq_some_iff]
    rintro m (((rfl | rfl) | ⟨id, -, rfl⟩) | ⟨lines, -, rfl⟩)
    · simp [outcomeFields, houtcome]
    · simp [outcomeFields, hreasons]
    · simp [outcomeFields, IsText]
    · simp [outcomeFields, htrace]

theorem canonical_reason {code message : Str} {rule_id evidence_id : Option Str}
    (hc : Encodable code) (hm : Encodable message) (hr : ∀ id ∈ rule_id, Encodable id)
    (he : ∀ id ∈ evidence_id, Encodable id) :
    (reason code message rule_id evidence_id).Canonical := by
  cases rule_id <;> cases evidence_id <;> simp_all [reason, Distinct]

theorem canonical_documentOf {outcome : Str} {reasons : List Value} {matched_rule : Option Str}
    {trace : Option (List Str)} (ho : Encodable outcome) (hr : ∀ r ∈ reasons, r.Canonical)
    (hm : ∀ id ∈ matched_rule, Encodable id) (ht : ∀ lines ∈ trace, ∀ l ∈ lines, Encodable l) :
    (documentOf outcome reasons matched_rule trace).Canonical := by
  cases matched_rule <;> cases trace <;> simp_all [documentOf, Distinct]

theorem depth_documentOf (outcome : Str) {reasons : List Value} (matched_rule : Option Str)
    (trace : Option (List Str)) (hr : ∀ r ∈ reasons, r.depth ≤ 1) :
    (documentOf outcome reasons matched_rule trace).depth ≤ 3 := by
  unfold documentOf
  rw [Value.depth_dict_le]
  simp only [List.mem_append, List.mem_cons, List.not_mem_nil, or_false, Option.mem_toList,
    Option.map_eq_some_iff]
  rintro m (((rfl | rfl) | ⟨id, -, rfl⟩) | ⟨lines, -, rfl⟩)
  · exact Nat.zero_le _
  · rw [Value.depth_list_le]
    exact hr
  · exact Nat.zero_le _
  · rw [Value.depth_list_le]
    intro v hv
    obtain ⟨s, -, rfl⟩ := List.mem_map.mp hv
    exact Nat.zero_le _

theorem depth_reason (code message : Str) (rule_id evidence_id : Option Str) :
    (reason code message rule_id evidence_id).depth ≤ 1 := by
  unfold reason
  rw [Value.depth_dict_le]
  simp only [List.mem_append, List.mem_cons, List.not_mem_nil, or_false, Option.mem_toList,
    Option.map_eq_some_iff]
  rintro m (((rfl | rfl) | ⟨id, -, rfl⟩) | ⟨id, -, rfl⟩) <;> exact Nat.zero_le _

/-- A reason of a result: its texts can be written. -/
def IsSound (r : Value) : Prop := IsReason r ∧ r.Canonical ∧ r.depth ≤ 1

theorem isSound_reason {code message : Str} {rule_id evidence_id : Option Str}
    (hc : Encodable code) (hm : Encodable message) (hr : ∀ id ∈ rule_id, Encodable id)
    (he : ∀ id ∈ evidence_id, Encodable id) : IsSound (reason code message rule_id evidence_id) :=
  ⟨isReason_reason _ _ _ _, canonical_reason hc hm hr he, depth_reason _ _ _ _⟩

/-- A result is built, and it reads back as its document. -/
theorem result_ok {outcome : String} (h : outcome ∈ ["ALLOW", "BLOCK", "HOLD", "ERROR"])
    {reasons : List Value} (hne : reasons ≠ []) (hr : ∀ r ∈ reasons, IsSound r)
    {matched_rule : Option Str} (hm : ∀ id ∈ matched_rule, Encodable id)
    {trace : Option (List Str)} (ht : ∀ lines ∈ trace, ∀ l ∈ lines, Encodable l) :
    ∃ r, result REGISTRY outcome reasons matched_rule trace = .ok r ∧ r.outcome = lit outcome ∧
      canon.canonicalize (documentOf outcome reasons matched_rule trace) = .ok r.canonical ∧
      r.value = .ok (documentOf outcome reasons matched_rule trace).normalize := by
  have hcan : (documentOf outcome reasons matched_rule trace).Canonical :=
    canonical_documentOf (encodable_lit _) (fun r hmem => (hr r hmem).2.1) hm ht
  obtain ⟨t, ht'⟩ := canon.encode_of_canonical hcan
  rw [← canon.canonicalize_eq_encode] at ht'
  refine ⟨⟨t, lit outcome⟩, ?_, rfl, ht', ?_⟩
  · unfold result
    have hvalid := (validate_outcome_iff _).mpr (isOutcome_documentOf h hne
      (fun r hmem => (hr r hmem).1) matched_rule trace)
    unfold documentOf at hvalid ht'
    show (schema.validate _ OUTCOME_SCHEMA_ID REGISTRY >>= _) = _
    rw [OUTCOME_SCHEMA_ID, hvalid, ok_bind, ht']
    rfl
  · unfold EvaluationResult.value EvaluationResult.canonical_bytes
    rw [load.load_canonical_bytes hcan (canonical_bytes_of_canonicalize ht'), if_pos]
    exact (depth_documentOf _ _ _ fun r hmem => (hr r hmem).2.2).trans (by omega)

/-! ## The texts of a decision can be written -/

/-- The texts of a clause have no surrogate. -/
structure Clause.Writable (clause : Clause) : Prop where
  id : Encodable clause.rule.id
  reason : Encodable clause.rule.reason
  needs : ∀ id ∈ clause.rule.needs, Encodable id
  ids : ∀ id ∈ clause.tree.evidenceIds, Encodable id

theorem encodable_of_get? {v : Value} {k s : Str} (h : v.Canonical) (hs : v.get? k = some (.str s)) :
    Encodable s := by
  simpa using h.get? hs

theorem encodable_pathIds {p : Path} (h : p.node.Canonical) : ∀ id ∈ p.evidenceIds, Encodable id := by
  intro id hid
  unfold Path.evidenceIds at hid
  split at hid
  · rw [List.mem_singleton.mp hid]
    simp [Path.node, Path.segments, Segment.node, Distinct] at h
    exact h.2.1
  · cases hid

theorem encodable_operandIds {o : Operand} (h : o.node.Canonical) :
    ∀ id ∈ o.evidenceIds, Encodable id := by
  cases o with
  | literal l => simp [Operand.evidenceIds]
  | path p => exact encodable_pathIds h

theorem mem_allEvidenceIds {es : List Expr} {id : Str} :
    id ∈ Expr.allEvidenceIds es ↔ ∃ e ∈ es, id ∈ e.evidenceIds := by
  induction es with
  | nil => simp [Expr.allEvidenceIds]
  | cons e rest ih => simp [Expr.allEvidenceIds, ih]

theorem encodable_evidenceIds (e : Expr) (h : e.node.Canonical) :
    ∀ id ∈ e.evidenceIds, Encodable id := by
  induction e with
  | or es ih =>
    intro id hid
    obtain ⟨e, he, hid⟩ := mem_allEvidenceIds.mp hid
    simp [Expr.node, Expr.nodes_eq] at h
    exact ih e he (h.2 e he) id hid
  | and es ih =>
    intro id hid
    obtain ⟨e, he, hid⟩ := mem_allEvidenceIds.mp hid
    simp [Expr.node, Expr.nodes_eq] at h
    exact ih e he (h.2 e he) id hid
  | not e ih =>
    simp [Expr.node] at h
    exact ih h.2
  | compare o l r =>
    simp [Expr.node] at h
    intro id hid
    rcases List.mem_append.mp hid with hid | hid
    · exact encodable_operandIds h.2.2.1 id hid
    · exact encodable_operandIds h.2.2.2 id hid
  | membership negated o members =>
    simp [Expr.node] at h
    exact encodable_operandIds h.2.2.1
  | fresh id =>
    simp [Expr.node] at h
    simpa [Expr.evidenceIds] using h.2
  | present id =>
    simp [Expr.node] at h
    simpa [Expr.evidenceIds] using h.2
  | matchesGlob p pattern =>
    simp [Expr.node] at h
    exact encodable_pathIds h.2.1

theorem mem_pathCauses {w : World} {p : Path} {id : Str}
    (h : .evidence_unsettled id ∈ w.pathCauses p) : id ∈ p.evidenceIds := by
  unfold World.pathCauses at h
  unfold Path.evidenceIds
  split at h
  · rename_i hroot
    rw [if_pos hroot.1]
    simpa using h
  · cases h

theorem mem_operandCauses {w : World} {o : Operand} {id : Str}
    (h : .evidence_unsettled id ∈ w.operandCauses o) : id ∈ o.evidenceIds := by
  cases o with
  | literal l => cases h
  | path p => exact mem_pathCauses h

theorem mem_allCauses {w : World} {es : List Expr} {c : Cause} :
    c ∈ w.allCauses es ↔ ∃ e ∈ es, c ∈ w.causes e := by
  induction es with
  | nil => simp [World.allCauses]
  | cons e rest ih => simp [World.allCauses, ih]

/-- A cause names evidence that the expression names. -/
theorem mem_causes {w : World} (e : Expr) {id : Str} (h : .evidence_unsettled id ∈ w.causes e) :
    id ∈ e.evidenceIds := by
  induction e with
  | or es ih =>
    obtain ⟨e, he, hc⟩ := mem_allCauses.mp h
    exact mem_allEvidenceIds.mpr ⟨e, he, ih e he hc⟩
  | and es ih =>
    obtain ⟨e, he, hc⟩ := mem_allCauses.mp h
    exact mem_allEvidenceIds.mpr ⟨e, he, ih e he hc⟩
  | not e ih => exact ih h
  | compare o l r =>
    simp only [World.causes, List.mem_append] at h
    refine List.mem_append.mpr ?_
    rcases h with (h | h) | h
    · exact Or.inl (mem_operandCauses h)
    · exact Or.inr (mem_operandCauses h)
    · unfold comparisonCauses at h
      split at h <;> first | cases h | (split at h <;> simp at h)
  | membership negated o members => exact mem_operandCauses h
  | fresh id => cases h
  | present id => cases h
  | matchesGlob p pattern =>
    simp only [World.causes, List.mem_append] at h
    rcases h with h | h
    · exact mem_pathCauses h
    · unfold globbedCauses at h
      split at h <;> simp at h

theorem mem_foldl_noted {l causes : List Cause} {c : Cause} :
    c ∈ l.foldl noted causes ↔ c ∈ causes ∨ c ∈ l := by
  induction l generalizing causes with
  | nil => simp
  | cons d l ih =>
    rw [List.foldl_cons, ih, List.mem_cons, ← or_assoc]
    refine or_congr_left ?_
    unfold noted
    by_cases hd : d ∈ causes
    · rw [if_pos hd]
      constructor
      · exact Or.inl
      · rintro (h | rfl)
        · exact h
        · exact hd
    · rw [if_neg hd, List.mem_append, List.mem_singleton]

theorem Clause.Of.writable {clause : Clause} {v : Value} (h : clause.Of v) (hv : v.Canonical) :
    clause.Writable := by
  obtain ⟨parsed, -, hparsed⟩ := h.tree
  refine ⟨encodable_of_get? hv h.rule.id, encodable_of_get? hv h.rule.reason, ?_,
    encodable_evidenceIds _ hparsed.isCanonical⟩
  have hneeds := h.rule.needs
  cases v with
  | dict members =>
    simp only [getOr, getMethod, ok_bind, pure_eq_ok] at hneeds
    cases hl : members.lookup (lit "requires_evidence") with
    | none =>
      rw [hl] at hneeds
      simp only [Option.getD_none, Value.list.injEq] at hneeds
      rw [List.map_eq_nil_iff.mp hneeds.symm]
      simp
    | some w =>
      rw [hl, Option.getD_some] at hneeds
      subst hneeds
      have hw : (Value.list (clause.rule.needs.map .str)).Canonical :=
        hv.get? (k := lit "requires_evidence") hl
      simpa using hw
  | _ => cases hneeds

theorem encodable_stateCauses {w : World} {clause : Clause} (h : clause.Writable) {c : Cause}
    (hc : c ∈ w.stateCauses clause) : ∀ id ∈ c.evidence_id, Encodable id := by
  intro id hid
  cases c with
  | operand_unsettled => cases hid
  | evidence_unsettled i =>
    cases hid
    unfold World.stateCauses at hc
    split at hc
    · rename_i hfind
      simp only [List.mem_singleton, Cause.evidence_unsettled.injEq] at hc
      exact hc ▸ h.needs _ (List.mem_of_find?_eq_some hfind)
    · have := (mem_foldl_noted.mp hc).resolve_left (by simp)
      exact h.ids _ (mem_causes _ this)

theorem encodable_trace_line {ordinal : Nat} {id : Str} (h : Encodable id) (state : State) :
    Encodable (trace_line ordinal id state) := by
  cases state <;> simp [trace_line, h, State.text]

theorem encodable_trace {w : World} {clauses : List Clause} (h : ∀ c ∈ clauses, c.Writable)
    (ordinal : Nat) : ∀ l ∈ w.trace ordinal clauses, Encodable l := by
  induction clauses generalizing ordinal with
  | nil => simp [World.trace]
  | cons c rest ih =>
    intro l hl
    rw [World.trace] at hl
    rcases List.mem_cons.mp hl with rfl | hl
    · exact encodable_trace_line (h c (by simp)).id _
    · split at hl
      · exact ih (fun d hd => h d (by simp [hd])) _ l hl
      · cases hl

/-- What a decision says can be written, where every rule that is reached has a cause. -/
theorem decision_sound {w : World} {clauses : List Clause} (h : ∀ c ∈ clauses, c.Writable)
    (hsees : w.Sees clauses) (default_outcome : Str) :
    (w.decision clauses).reasons default_outcome ≠ [] ∧
      (∀ r ∈ (w.decision clauses).reasons default_outcome, IsSound r) ∧
      ∀ id ∈ (w.decision clauses).matched_rule, Encodable id := by
  induction clauses with
  | nil =>
    have hcode : Encodable (codeIn DEFAULT_CODES default_outcome) := by
      unfold codeIn DEFAULT_CODES
      simp only [List.lookup_cons, List.lookup_nil]
      split
      · exact encodable_lit _
      · split
        · exact encodable_lit _
        · exact fun c hc => by cases hc
    refine ⟨by simp [World.decision, Decision.reasons], ?_, by
      simp [World.decision, Decision.matched_rule]⟩
    simp only [World.decision, Decision.reasons, List.mem_singleton, forall_eq]
    exact isSound_reason hcode (encodable_lit _) (by simp) (by simp)
  | cons c rest ih =>
    have hc := h c (by simp)
    rw [World.decision]
    cases hstate : w.state c with
    | false => exact ih (fun d hd => h d (by simp [hd])) (hsees.tail hstate)
    | true =>
      have hcode : Encodable (codeIn RULE_CODES c.rule.outcome) := by
        unfold codeIn RULE_CODES
        simp only [List.lookup_cons, List.lookup_nil]
        split
        · exact encodable_lit _
        · split
          · exact encodable_lit _
          · split
            · exact encodable_lit _
            · exact fun c hc => by cases hc
      refine ⟨by simp [Decision.reasons], ?_, by simp [Decision.matched_rule, hc.id]⟩
      simp only [Decision.reasons, List.mem_singleton, forall_eq]
      exact isSound_reason hcode hc.reason (by simp [hc.id]) (by simp)
    | unsettled =>
      refine ⟨by simp [Decision.reasons, stateCauses_ne_nil hstate (hsees c (reaches_head c rest))], ?_, by
        simp [Decision.matched_rule]⟩
      intro r hr
      obtain ⟨cause, hcause, rfl⟩ := List.mem_map.mp hr
      refine isSound_reason ?_ ?_ (by simp [hc.id]) (encodable_stateCauses hc hcause)
      · cases cause <;> exact encodable_lit _
      · cases cause <;> exact encodable_lit _

theorem decision_outcome_mem {w : World} {clauses : List Clause} {rules : List Value}
    (hr : List.Forall₂ Clause.Of clauses rules) {default_outcome : Str}
    (hd : default_outcome ∈ [lit "BLOCK", lit "HOLD"]) :
    ∃ o ∈ ["ALLOW", "BLOCK", "HOLD"], (w.decision clauses).outcome default_outcome = lit o := by
  induction hr with
  | nil =>
    simp only [List.mem_cons, List.not_mem_nil, or_false] at hd
    rcases hd with rfl | rfl
    · exact ⟨"BLOCK", by simp, rfl⟩
    · exact ⟨"HOLD", by simp, rfl⟩
  | @cons c v _ _ hc _ ih =>
    rw [World.decision]
    cases w.state c with
    | false => exact ih
    | unsettled => exact ⟨"HOLD", by simp, rfl⟩
    | true =>
      have hmem := hc.rule.outcome_mem
      simp only [List.mem_cons, List.not_mem_nil, or_false] at hmem
      rcases hmem with h | h | h
      · exact ⟨"ALLOW", by simp, h⟩
      · exact ⟨"BLOCK", by simp, h⟩
      · exact ⟨"HOLD", by simp, h⟩

end vfy.gate
