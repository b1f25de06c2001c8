-- What evidence an evaluation consults: the evaluator once more, where every
-- look at the items or at the declarations is recorded. It computes the same,
-- and it looks only at the evidence that the text of the expression names.
import VerifyRun.HoldReasons
import VerifyRun.SourceIds
import VerifyRun.Preparation

namespace vfy.gate

open python keys outcomes expr schema firstmet

/-! ## The evaluator, recorded -/

/-- A computation that records the evidence ids that it consults. -/
abbrev Recording (α : Type) := StateT (List Str) (Except Exn) α

/-- A recorded step of the evaluation of a rule. -/
abbrev RecordedEvaluation (α : Type) := StateT (List Cause) (StateT (List Str) (Except Exn)) α

namespace recorded

/-- A look at an item or at a declaration. -/
def consult (identifier : Str) : Recording Unit := modify (· ++ [identifier])

/-- `context.note`. -/
def note (cause : Cause) : RecordedEvaluation Unit := modify fun causes => noted causes cause

/-- `_item_ok`. -/
def item_ok (context : Context) (identifier : Str) : Recording Bool := do
  consult identifier
  gate.item_ok context identifier

/-- `_is_fresh`. -/
def is_fresh (context : Context) (identifier : Str) : Recording Bool := do
  if ¬ (← item_ok context identifier) then pure false
  else do
    consult identifier
    let declaration := (context.declarations.lookup identifier).getD (.dict [])
    match declaration.get? "max_age_seconds" with
    | none => pure true
    | some bound => do
      consult identifier
      let acquired ← rulebook.instant (← getItem (← itemAt context identifier) "acquired_at")
      let age_nanoseconds := context.frozen_at - acquired
      pure (decide (age_nanoseconds ≤ (← number bound) * 1000000000))

/-- `_resolve`. -/
def resolve (context : Context) (node : Value) : RecordedEvaluation Resolved := do
  if isStr (← getItem node "type") "literal" then do
    let value ← getItem node "value"
    pure (.value value)
  else do
    let root ← getItem node "root"
    let segments ← iterate (← getItem node "segments")
    if isStr root "evidence" then
      match segments with
      | [] => throw .index_error
      | first :: rest => do
        let identifier ← string (← getItem first "member")
        consult identifier
        let item := context.items.lookup identifier
        if ← status_ok item then
          match (item.getD .null).get? "value" with
          | some value => do
            let found ← descend (.value value) rest
            pure (identified (context.objects.evidence identifier rest) found)
          | none => do
            note (.evidence_unsettled identifier)
            pure .unsettled
        else do
          note (.evidence_unsettled identifier)
          pure .unsettled
    else if isStr root "identity" then do
      let found ← descend ((context.candidate.get? "identity").elim .absent .value) segments
      let place := .dict [("member", .str "identity")] :: segments
      pure (identified (context.objects.candidate place) found)
    else do
      let found ← descend (.value context.candidate) segments
      pure (identified (context.objects.candidate segments) found)

/-- `_evaluate_compare`. -/
def evaluate_compare (context : Context) (node : Value) : RecordedEvaluation State := do
  let left ← resolve context (← getItem node "left")
  let right ← resolve context (← getItem node "right")
  match left, right with
  | .unsettled, _ => pure .unsettled
  | _, .unsettled => pure .unsettled
  | left, right => do
    let operator ← string (← getItem node "operator")
    if operator = lit "==" then pure (settled (equal left right))
    else if operator = lit "!=" then pure (settled (!equal left right))
    else
      let order :=
        match left, right with
        | .value v, .value w => compare_numeric v w
        | _, _ => none
      match order with
      | none => do
        note .operand_unsettled
        pure .unsettled
      | some order =>
        if operator = lit "<" then pure (settled (order < 0))
        else if operator = lit "<=" then pure (settled (order ≤ 0))
        else if operator = lit ">" then pure (settled (order > 0))
        else pure (settled (order ≥ 0))

/-- `_evaluate_membership`. -/
def evaluate_membership (context : Context) (node : Value) : RecordedEvaluation State := do
  let operand ← resolve context (← getItem node "operand")
  match operand with
  | .unsettled => pure .unsettled
  | operand => do
    let members ← iterate (← getItem (← getItem node "list") "value")
    let found := members.any fun member => equal operand (.value member)
    if isStr (← getItem node "operator") "in" then pure (settled found)
    else pure (settled (!found))

/-- `_evaluate_matches`. -/
def evaluate_matches (context : Context) (node : Value) : RecordedEvaluation State := do
  let value ← resolve context (← getItem node "path")
  match value with
  | .unsettled => pure .unsettled
  | .absent => pure .false
  | .value (.str text) => do
    let pattern ← string (← getItem node "pattern")
    pure (settled (glob pattern text))
  | .value _ => do
    note .operand_unsettled
    pure .unsettled

/-- `_combine`, where `child` evaluates an operand. -/
def combine (child : Value → RecordedEvaluation State) (operands : Value) (all_true : Bool) :
    RecordedEvaluation State := do
  let operands ← iterate operands
  let states ← operands.mapM child
  if .unsettled ∈ states then pure .unsettled
  else if all_true then pure (settled (states.all (· = .true)))
  else pure (settled (states.any (· = .true)))

/-- `_evaluate_node`, on a stack of so many frames. -/
def evaluate_node (context : Context) : Nat → Value → RecordedEvaluation State
  | 0, _ => throw .recursion_error
  | frames + 1, node => do
    let kind ← getItem node "type"
    if isStr kind "and" then
      combine (evaluate_node context frames) (← getItem node "operands") true
    else if isStr kind "or" then
      combine (evaluate_node context frames) (← getItem node "operands") false
    else if isStr kind "not" then do
      match ← evaluate_node context frames (← getItem node "operand") with
      | .unsettled => pure .unsettled
      | .true => pure .false
      | .false => pure .true
    else if isStr kind "present" then do
      let identifier ← string (← getItem node "evidence_id")
      let found ← (item_ok context identifier : Recording Bool)
      pure (settled found)
    else if isStr kind "fresh" then do
      let identifier ← string (← getItem node "evidence_id")
      let found ← (is_fresh context identifier : Recording Bool)
      pure (settled found)
    else if isStr kind "matches" then evaluate_matches context node
    else if isStr kind "membership" then evaluate_membership context node
    else if isStr kind "compare" then evaluate_compare context node
    else throw .assertion_error

/-- The loop of `_rule_state` over the required evidence. -/
def first_unsettled (context : Context) : List Value → Recording (Option Str)
  | [] => pure none
  | identifier :: rest => do
    let identifier ← string identifier
    if ← item_ok context identifier then first_unsettled context rest
    else pure (some identifier)

/-- `_rule_state`. -/
def rule_state (context : Context) (rule : Value) : Recording (State × List Cause) := do
  let needs ← iterate (← getOr rule "requires_evidence" (.list []))
  match ← first_unsettled context needs with
  | some identifier => pure (.unsettled, [.evidence_unsettled identifier])
  | none => do
    let parsed ← expr.parse_expression (← getItem rule "when")
    let ast ← parsed.ast
    evaluate_node context schema.FRAMES ast []

/-- `_walk`, from a rule on. -/
def walk (context : Context) (registry : schema.Registry) :
    List Value → Nat → List Str → Recording EvaluationResult
  | [], _, trace => do
    let outcome ← string (← getItem context.rulebook "default_outcome")
    let code ← codeOf DEFAULT_CODES outcome
    result registry outcome [reason code DEFAULT_MESSAGE none none] none (some trace)
  | rule :: rest, ordinal, trace => do
    let (state, causes) ← rule_state context rule
    let rule_id ← string (← getItem rule "id")
    let trace := trace ++ [trace_line ordinal rule_id state]
    match state with
    | .true => do
      let outcome ← string (← getItem rule "outcome")
      let code ← codeOf RULE_CODES outcome
      let message ← string (← getItem rule "reason")
      result registry outcome [reason code message (some rule_id) none] (some rule_id) (some trace)
    | .unsettled =>
      result registry "HOLD"
        (causes.map fun cause => reason cause.code cause.message (some rule_id) cause.evidence_id)
        none (some trace)
    | .false => walk context registry rest (ordinal + 1) trace

end recorded

/-! ## What a recorded computation consults -/

/-- The recorded computation computes the same, and consults only these ids. -/
def Consults (ids : List Str) {α : Type} (x : Recording α) (y : Except Exn α) : Prop :=
  ∀ log, ∃ l, (∀ id ∈ l, id ∈ ids) ∧ x log = y.map fun a => (a, log ++ l)

section Rules

variable {ids : List Str} {α β : Type}

theorem Consults.pure (a : α) : Consults ids (pure a) (pure a) :=
  fun log => ⟨[], by simp, by rw [List.append_nil]; rfl⟩

theorem Consults.lift (y : Except Exn α) : Consults ids (liftM y) y := by
  intro log
  refine ⟨[], by simp, ?_⟩
  cases y with
  | error e => rfl
  | ok a =>
    rw [List.append_nil]
    rfl

theorem Consults.bind {x : Recording α} {y : Except Exn α} {f : α → Recording β}
    {g : α → Except Exn β} (hx : Consults ids x y) (hf : ∀ a, y = .ok a → Consults ids (f a) (g a)) :
    Consults ids (x >>= f) (y >>= g) := by
  intro log
  obtain ⟨l, hl, hrun⟩ := hx log
  cases y with
  | error e =>
    refine ⟨[], by simp, ?_⟩
    show (x log >>= fun r => f r.1 r.2) = _
    rw [hrun]
    rfl
  | ok a =>
    obtain ⟨m, hm, hrest⟩ := hf a rfl (log ++ l)
    refine ⟨l ++ m, ?_, ?_⟩
    · intro id hid
      rcases List.mem_append.mp hid with hid | hid
      · exact hl id hid
      · exact hm id hid
    · show (x log >>= fun r => f r.1 r.2) = _
      rw [hrun, ← List.append_assoc]
      exact hrest

theorem Consults.of_lift {y : Except Exn α} {a : α} (h : y = .ok a) {f : α → Recording β}
    {g : α → Except Exn β} (hf : Consults ids (f a) (g a)) :
    Consults ids (liftM y >>= f) (y >>= g) := by
  refine Consults.bind (Consults.lift y) fun b hb => ?_
  rw [h] at hb
  exact Except.ok.inj hb ▸ hf

theorem Consults.of_consult {identifier : Str} (h : identifier ∈ ids) {f : Unit → Recording β}
    {y : Except Exn β} (hf : Consults ids (f ()) y) :
    Consults ids (recorded.consult identifier >>= f) y := by
  intro log
  obtain ⟨l, hl, hrun⟩ := hf (log ++ [identifier])
  refine ⟨identifier :: l, ?_, ?_⟩
  · intro id hid
    rcases List.mem_cons.mp hid with rfl | hid
    · exact h
    · exact hl id hid
  · rw [List.append_assoc, List.singleton_append] at hrun
    exact hrun

/-- The same of a step that notes causes. -/
def ConsultsNoting (ids : List Str) {α : Type} (x : RecordedEvaluation α) (y : Evaluation α) :
    Prop :=
  ∀ causes, Consults ids (x causes) (y causes)

theorem ConsultsNoting.pure (a : α) : ConsultsNoting ids (pure a) (pure a) :=
  fun causes => Consults.pure (a, causes)

theorem ConsultsNoting.throw (e : Exn) :
    ConsultsNoting ids (throw e : RecordedEvaluation α) (throw e : Evaluation α) :=
  fun _ _ => ⟨[], by simp, rfl⟩

theorem ConsultsNoting.bind {x : RecordedEvaluation α} {y : Evaluation α}
    {f : α → RecordedEvaluation β} {g : α → Evaluation β} (hx : ConsultsNoting ids x y)
    (hf : ∀ a, ConsultsNoting ids (f a) (g a)) : ConsultsNoting ids (x >>= f) (y >>= g) :=
  fun causes => Consults.bind (hx causes) fun r _ => hf r.1 r.2

theorem ConsultsNoting.lift (y : Except Exn α) :
    ConsultsNoting ids (liftM y : RecordedEvaluation α) (liftM y : Evaluation α) := by
  intro causes log
  refine ⟨[], by simp, ?_⟩
  cases y with
  | error e => rfl
  | ok a =>
    rw [List.append_nil]
    rfl

theorem ConsultsNoting.of_lift {y : Except Exn α} {a : α} (h : y = .ok a)
    {f : α → RecordedEvaluation β} {g : α → Evaluation β} (hf : ConsultsNoting ids (f a) (g a)) :
    ConsultsNoting ids (liftM y >>= f) (liftM y >>= g) := by
  subst h
  exact hf

theorem ConsultsNoting.of_recording {x : Recording α} {y : Except Exn α} (h : Consults ids x y) :
    ConsultsNoting ids (liftM x : RecordedEvaluation α) (liftM y : Evaluation α) :=
  fun causes => Consults.bind h fun a _ => Consults.pure (a, causes)

theorem ConsultsNoting.of_consult {identifier : Str} (h : identifier ∈ ids)
    {f : Unit → RecordedEvaluation β} {y : Evaluation β} (hf : ConsultsNoting ids (f ()) y) :
    ConsultsNoting ids (liftM (recorded.consult identifier) >>= f) y := by
  intro causes
  have hone := Consults.of_consult (f := fun _ => f () causes) h (hf causes)
  exact hone

theorem ConsultsNoting.note (cause : Cause) :
    ConsultsNoting ids (recorded.note cause) (gate.note cause) :=
  fun _ => Consults.pure _

end Rules

/-! ## One node -/

section Nodes

variable {context : Context} {ids : List Str}

theorem consults_item_ok {identifier : Str} (h : identifier ∈ ids) :
    Consults ids (recorded.item_ok context identifier) (item_ok context identifier) :=
  Consults.of_consult h (Consults.lift _)

theorem consults_is_fresh {identifier : Str} (h : identifier ∈ ids) :
    Consults ids (recorded.is_fresh context identifier) (is_fresh context identifier) := by
  unfold recorded.is_fresh is_fresh
  refine Consults.bind (consults_item_ok h) fun ok _ => ?_
  cases ok with
  | false => exact Consults.pure _
  | true =>
    rw [if_neg (by simp), if_neg (by simp)]
    refine Consults.of_consult h ?_
    dsimp only
    cases ((context.declarations.lookup identifier).getD (.dict [])).get? (lit "max_age_seconds") with
    | none => exact Consults.pure _
    | some bound =>
      refine Consults.of_consult h ?_
      refine Consults.bind (Consults.lift _) fun item _ => ?_
      refine Consults.bind (Consults.lift _) fun text _ => ?_
      refine Consults.bind (Consults.lift _) fun acquired _ => ?_
      exact Consults.bind (Consults.lift _) fun seconds _ => Consults.pure _

/-- Resolving a path consults the id that it names, if it names one. -/
theorem consults_path {p : Path} (h : ∀ id ∈ p.evidenceIds, id ∈ ids) :
    ConsultsNoting ids (recorded.resolve context p.node.normalize)
      (resolve context p.node.normalize) := by
  unfold recorded.resolve resolve
  refine ConsultsNoting.of_lift (type_of_path p) ?_
  rw [if_neg (by simp), if_neg (by simp)]
  refine ConsultsNoting.of_lift (root_eq p) (ConsultsNoting.of_lift (segments_eq p) ?_)
  refine ConsultsNoting.of_lift (y := iterate (.list (p.segments.map Segment.node))) rfl ?_
  cases hroot : p.root with
  | candidate =>
    simp only [Root.text, isStr_str]
    exact ConsultsNoting.bind (ConsultsNoting.lift _) fun _ => ConsultsNoting.pure _
  | identity =>
    simp only [Root.text, isStr_str]
    exact ConsultsNoting.bind (ConsultsNoting.lift _) fun _ => ConsultsNoting.pure _
  | evidence =>
    have hmem : p.first ∈ ids := h _ (by simp [Path.evidenceIds, hroot])
    have hfirst : getItem (Segment.member p.first).node "member" = .ok (.str p.first) := by
      simp [Segment.node]
    simp only [Root.text, isStr_str, decide_true, Path.segments, List.map_cons]
    refine ConsultsNoting.of_lift hfirst ?_
    refine ConsultsNoting.of_lift (y := string (.str p.first)) rfl ?_
    refine ConsultsNoting.of_consult hmem ?_
    refine ConsultsNoting.bind (ConsultsNoting.lift _) fun ok => ?_
    have hunsettled : ConsultsNoting ids (do
        recorded.note (.evidence_unsettled p.first)
        pure Resolved.unsettled) (do
        note (.evidence_unsettled p.first)
        pure Resolved.unsettled) :=
      ConsultsNoting.bind (ConsultsNoting.note _) fun _ => ConsultsNoting.pure _
    cases ok with
    | false => exact hunsettled
    | true =>
      rw [if_pos rfl, if_pos rfl]
      cases ((context.items.lookup p.first).getD .null).get? (lit "value") with
      | none => exact hunsettled
      | some v => exact ConsultsNoting.bind (ConsultsNoting.lift _) fun _ => ConsultsNoting.pure _

theorem consults_operand {o : Operand} (h : ∀ id ∈ o.evidenceIds, id ∈ ids) :
    ConsultsNoting ids (recorded.resolve context o.node.normalize)
      (resolve context o.node.normalize) := by
  cases o with
  | path p => exact consults_path h
  | literal l =>
    have hnode := distinctKeys_literal_node (distinctKeys_literal l).1
    have htype := getItem_text (k := "type") (s := "literal") hnode (by simp [literal_node])
    unfold recorded.resolve resolve Operand.node
    refine ConsultsNoting.of_lift htype ?_
    rw [if_pos (by simp), if_pos (by simp)]
    exact ConsultsNoting.bind (ConsultsNoting.lift _) fun _ => ConsultsNoting.pure _

theorem consults_compare {o : Operator} {l r : Operand} (hl : ∀ id ∈ l.evidenceIds, id ∈ ids)
    (hr : ∀ id ∈ r.evidenceIds, id ∈ ids) :
    ConsultsNoting ids (recorded.evaluate_compare context (Expr.compare o l r).node.normalize)
      (evaluate_compare context (Expr.compare o l r).node.normalize) := by
  have hnode := distinctKeys_node (.compare o l r)
  have hleft := getItem_node (k := "left") (v := l.node) hnode (by simp [Expr.node])
  have hright := getItem_node (k := "right") (v := r.node) hnode (by simp [Expr.node])
  unfold recorded.evaluate_compare evaluate_compare
  refine ConsultsNoting.of_lift hleft (ConsultsNoting.bind (consults_operand hl) fun a => ?_)
  refine ConsultsNoting.of_lift hright (ConsultsNoting.bind (consults_operand hr) fun b => ?_)
  -- both operands are known: what remains consults nothing
  have hrest : ∀ (a b : Resolved) (order : Option Int), ConsultsNoting ids (do
      let operator ← string (← getItem (Expr.compare o l r).node.normalize "operator")
      if operator = lit "==" then pure (settled (equal a b))
      else if operator = lit "!=" then pure (settled (!equal a b))
      else
        match order with
        | none => do
          recorded.note .operand_unsettled
          pure State.unsettled
        | some order =>
          if operator = lit "<" then pure (settled (order < 0))
          else if operator = lit "<=" then pure (settled (order ≤ 0))
          else if operator = lit ">" then pure (settled (order > 0))
          else pure (settled (order ≥ 0))) (do
      let operator ← string (← getItem (Expr.compare o l r).node.normalize "operator")
      if operator = lit "==" then pure (settled (equal a b))
      else if operator = lit "!=" then pure (settled (!equal a b))
      else
        match order with
        | none => do
          note .operand_unsettled
          pure State.unsettled
        | some order =>
          if operator = lit "<" then pure (settled (order < 0))
          else if operator = lit "<=" then pure (settled (order ≤ 0))
          else if operator = lit ">" then pure (settled (order > 0))
          else pure (settled (order ≥ 0))) := by
    intro a b order
    refine ConsultsNoting.bind (ConsultsNoting.lift _) fun v => ?_
    refine ConsultsNoting.bind (ConsultsNoting.lift _) fun operator => ?_
    by_cases h₁ : operator = lit "=="
    · rw [if_pos h₁, if_pos h₁]
      exact ConsultsNoting.pure _
    · rw [if_neg h₁, if_neg h₁]
      by_cases h₂ : operator = lit "!="
      · rw [if_pos h₂, if_pos h₂]
        exact ConsultsNoting.pure _
      · rw [if_neg h₂, if_neg h₂]
        cases order with
        | none => exact ConsultsNoting.bind (ConsultsNoting.note _) fun _ => ConsultsNoting.pure _
        | some i => split_ifs <;> exact ConsultsNoting.pure _
  cases a with
  | unsettled => exact ConsultsNoting.pure _
  | absent =>
    cases b with
    | unsettled => exact ConsultsNoting.pure _
    | absent => exact hrest _ _ none
    | value w => exact hrest _ _ none
  | value v =>
    cases b with
    | unsettled => exact ConsultsNoting.pure _
    | absent => exact hrest _ _ none
    | value w => exact hrest _ _ (compare_numeric v w)

theorem consults_membership {negated : Bool} {o : Operand} {members : List Literal}
    (h : ∀ id ∈ o.evidenceIds, id ∈ ids) :
    ConsultsNoting ids
      (recorded.evaluate_membership context (Expr.membership negated o members).node.normalize)
      (evaluate_membership context (Expr.membership negated o members).node.normalize) := by
  have hnode := distinctKeys_node (.membership negated o members)
  have hoperand := getItem_node (k := "operand") (v := o.node) hnode (by simp [Expr.node])
  have hrest : ∀ r : Resolved, ConsultsNoting ids (do
      let values ← iterate (← getItem
        (← getItem (Expr.membership negated o members).node.normalize "list") "value")
      let found := values.any fun member => equal r (.value member)
      if isStr (← getItem (Expr.membership negated o members).node.normalize "operator") "in" then
        pure (settled found)
      else pure (settled (!found))) (do
      let values ← iterate (← getItem
        (← getItem (Expr.membership negated o members).node.normalize "list") "value")
      let found := values.any fun member => equal r (.value member)
      if isStr (← getItem (Expr.membership negated o members).node.normalize "operator") "in" then
        pure (settled found)
      else pure (settled (!found))) := by
    intro r
    refine ConsultsNoting.bind (ConsultsNoting.lift _) fun list => ?_
    refine ConsultsNoting.bind (ConsultsNoting.lift _) fun value => ?_
    refine ConsultsNoting.bind (ConsultsNoting.lift _) fun values => ?_
    refine ConsultsNoting.bind (ConsultsNoting.lift _) fun operator => ?_
    split_ifs <;> exact ConsultsNoting.pure _
  unfold recorded.evaluate_membership evaluate_membership
  refine ConsultsNoting.of_lift hoperand (ConsultsNoting.bind (consults_operand h) fun r => ?_)
  cases r with
  | unsettled => exact ConsultsNoting.pure _
  | absent => exact hrest _
  | value v => exact hrest _

theorem consults_matches {p : Path} {pattern : Str} (h : ∀ id ∈ p.evidenceIds, id ∈ ids) :
    ConsultsNoting ids
      (recorded.evaluate_matches context (Expr.matchesGlob p pattern).node.normalize)
      (evaluate_matches context (Expr.matchesGlob p pattern).node.normalize) := by
  have hnode := distinctKeys_node (.matchesGlob p pattern)
  have hpath := getItem_node (k := "path") (v := p.node) hnode (by simp [Expr.node])
  have hunsettled : ConsultsNoting ids (do
      recorded.note .operand_unsettled
      pure State.unsettled) (do
      note .operand_unsettled
      pure State.unsettled) :=
    ConsultsNoting.bind (ConsultsNoting.note _) fun _ => ConsultsNoting.pure _
  unfold recorded.evaluate_matches evaluate_matches
  refine ConsultsNoting.of_lift hpath (ConsultsNoting.bind (consults_path h) fun r => ?_)
  cases r with
  | unsettled => exact ConsultsNoting.pure _
  | absent => exact ConsultsNoting.pure _
  | value v =>
    cases v with
    | str text =>
      refine ConsultsNoting.bind (ConsultsNoting.lift _) fun value => ?_
      exact ConsultsNoting.bind (ConsultsNoting.lift _) fun pattern => ConsultsNoting.pure _
    | _ => exact hunsettled

/-! ## Every tree -/

theorem consults_mapM {child : Value → RecordedEvaluation State} {child' : Value → Evaluation State}
    {es : List Expr} (h : ∀ e ∈ es, ConsultsNoting ids (child e.node.normalize)
      (child' e.node.normalize)) :
    ConsultsNoting ids (((Expr.nodes es).map Value.normalize).mapM child)
      (((Expr.nodes es).map Value.normalize).mapM child') := by
  induction es with
  | nil => exact ConsultsNoting.pure _
  | cons e rest ih =>
    rw [Expr.nodes, List.map_cons, List.mapM_cons, List.mapM_cons]
    refine ConsultsNoting.bind (h e (by simp)) fun state => ?_
    refine ConsultsNoting.bind (ih fun f hf => h f (by simp [hf])) fun states => ?_
    exact ConsultsNoting.pure _

theorem consults_combine {child : Value → RecordedEvaluation State}
    {child' : Value → Evaluation State} {es : List Expr} {all_true : Bool}
    (h : ∀ e ∈ es, ConsultsNoting ids (child e.node.normalize) (child' e.node.normalize)) :
    ConsultsNoting ids
      (recorded.combine child (.list ((Expr.nodes es).map Value.normalize)) all_true)
      (combine child' (.list ((Expr.nodes es).map Value.normalize)) all_true) := by
  unfold recorded.combine combine
  refine ConsultsNoting.of_lift
    (y := iterate (.list ((Expr.nodes es).map Value.normalize))) rfl ?_
  refine ConsultsNoting.bind (consults_mapM h) fun states => ?_
  split_ifs <;> exact ConsultsNoting.pure _

/-- The evaluation of a tree consults only the ids of the tree. -/
theorem consults_node (e : Expr) : ∀ frames : Nat, (∀ id ∈ e.evidenceIds, id ∈ ids) →
    ConsultsNoting ids (recorded.evaluate_node context frames e.node.normalize)
      (evaluate_node context frames e.node.normalize) := by
  have htype : ∀ (e : Expr) (kind : Str), getItem e.node "type" = .ok (.str kind) →
      getItem e.node.normalize "type" = .ok (.str kind) := fun e kind hk =>
    getItem_text (distinctKeys_node e) hk
  have hoperands : ∀ (e : Expr) (es : List Expr),
      getItem e.node "operands" = .ok (.list (Expr.nodes es)) →
      getItem e.node.normalize "operands" = .ok (.list ((Expr.nodes es).map Value.normalize)) := by
    intro e es he
    have := getItem_node (distinctKeys_node e) he
    rwa [Value.normalize_list] at this
  have hall : ∀ es : List Expr, (∀ id ∈ Expr.allEvidenceIds es, id ∈ ids) →
      ∀ e ∈ es, ∀ id ∈ e.evidenceIds, id ∈ ids := fun es h e he id hid =>
    h id (mem_allEvidenceIds.mpr ⟨e, he, hid⟩)
  induction e with
  | or es ih =>
    intro frames h
    cases frames with
    | zero => exact ConsultsNoting.throw _
    | succ n =>
      unfold recorded.evaluate_node evaluate_node
      refine ConsultsNoting.of_lift (htype (.or es) "or" (by simp [Expr.node])) ?_
      simp only [isStr_str, lit_inj, String.reduceEq, decide_true, decide_false, if_true,
        Bool.false_eq_true, if_false]
      refine ConsultsNoting.of_lift (hoperands (.or es) es (by simp [Expr.node])) ?_
      exact consults_combine fun e he => ih e he n (hall es h e he)
  | and es ih =>
    intro frames h
    cases frames with
    | zero => exact ConsultsNoting.throw _
    | succ n =>
      unfold recorded.evaluate_node evaluate_node
      refine ConsultsNoting.of_lift (htype (.and es) "and" (by simp [Expr.node])) ?_
      simp only [isStr_str, lit_inj, String.reduceEq, decide_true, decide_false, if_true,
        Bool.false_eq_true, if_false]
      refine ConsultsNoting.of_lift (hoperands (.and es) es (by simp [Expr.node])) ?_
      exact consults_combine fun e he => ih e he n (hall es h e he)
  | not e ih =>
    intro frames h
    cases frames with
    | zero => exact ConsultsNoting.throw _
    | succ n =>
      have hoperand := getItem_node (k := "operand") (v := e.node) (distinctKeys_node (.not e))
        (by simp [Expr.node])
      unfold recorded.evaluate_node evaluate_node
      refine ConsultsNoting.of_lift (htype (.not e) "not" (by simp [Expr.node])) ?_
      simp only [isStr_str, lit_inj, String.reduceEq, decide_true, decide_false, if_true,
        Bool.false_eq_true, if_false]
      refine ConsultsNoting.of_lift hoperand (ConsultsNoting.bind (ih n h) fun state => ?_)
      cases state <;> exact ConsultsNoting.pure _
  | compare o l r =>
    intro frames h
    cases frames with
    | zero => exact ConsultsNoting.throw _
    | succ n =>
      unfold recorded.evaluate_node evaluate_node
      refine ConsultsNoting.of_lift (htype (.compare o l r) "compare" (by simp [Expr.node])) ?_
      simp only [isStr_str, lit_inj, String.reduceEq, decide_true, decide_false, if_true,
        Bool.false_eq_true, if_false]
      exact consults_compare (fun id hid => h id (List.mem_append_left _ hid))
        fun id hid => h id (List.mem_append_right _ hid)
  | membership negated o members =>
    intro frames h
    cases frames with
    | zero => exact ConsultsNoting.throw _
    | succ n =>
      unfold recorded.evaluate_node evaluate_node
      refine ConsultsNoting.of_lift
        (htype (.membership negated o members) "membership" (by simp [Expr.node])) ?_
      simp only [isStr_str, lit_inj, String.reduceEq, decide_true, decide_false, if_true,
        Bool.false_eq_true, if_false]
      exact consults_membership h
  | fresh id =>
    intro frames h
    cases frames with
    | zero => exact ConsultsNoting.throw _
    | succ n =>
      have hid : getItem (Expr.fresh id).node.normalize "evidence_id" = .ok (.str id) :=
        getItem_text (distinctKeys_node (.fresh id)) (by simp [Expr.node])
      unfold recorded.evaluate_node evaluate_node
      refine ConsultsNoting.of_lift (htype (.fresh id) "fresh" (by simp [Expr.node])) ?_
      simp only [isStr_str, lit_inj, String.reduceEq, decide_true, decide_false, if_true,
        Bool.false_eq_true, if_false]
      refine ConsultsNoting.of_lift hid (ConsultsNoting.of_lift (y := string (.str id)) rfl ?_)
      refine ConsultsNoting.bind (ConsultsNoting.of_recording (consults_is_fresh ?_)) fun found =>
        ConsultsNoting.pure _
      exact h id (by simp [Expr.evidenceIds])
  | present id =>
    intro frames h
    cases frames with
    | zero => exact ConsultsNoting.throw _
    | succ n =>
      have hid : getItem (Expr.present id).node.normalize "evidence_id" = .ok (.str id) :=
        getItem_text (distinctKeys_node (.present id)) (by simp [Expr.node])
      unfold recorded.evaluate_node evaluate_node
      refine ConsultsNoting.of_lift (htype (.present id) "present" (by simp [Expr.node])) ?_
      simp only [isStr_str, lit_inj, String.reduceEq, decide_true, decide_false, if_true,
        Bool.false_eq_true, if_false]
      refine ConsultsNoting.of_lift hid (ConsultsNoting.of_lift (y := string (.str id)) rfl ?_)
      refine ConsultsNoting.bind (ConsultsNoting.of_recording (consults_item_ok ?_)) fun found =>
        ConsultsNoting.pure _
      exact h id (by simp [Expr.evidenceIds])
  | matchesGlob p pattern =>
    intro frames h
    cases frames with
    | zero => exact ConsultsNoting.throw _
    | succ n =>
      unfold recorded.evaluate_node evaluate_node
      refine ConsultsNoting.of_lift
        (htype (.matchesGlob p pattern) "matches" (by simp [Expr.node])) ?_
      simp only [isStr_str, lit_inj, String.reduceEq, decide_true, decide_false, if_true,
        Bool.false_eq_true, if_false]
      exact consults_matches h

end Nodes

/-! ## Rules -/

section Rules

variable {context : Context} {ids : List Str}

theorem consults_first_unsettled {needs : List Str} (h : ∀ id ∈ needs, id ∈ ids) :
    Consults ids (recorded.first_unsettled context (needs.map .str))
      (first_unsettled context (needs.map .str)) := by
  induction needs with
  | nil => exact Consults.pure _
  | cons id rest ih =>
    rw [List.map_cons, recorded.first_unsettled, first_unsettled]
    refine Consults.of_lift (y := string (.str id)) rfl ?_
    refine Consults.bind (consults_item_ok (h id (by simp))) fun ok _ => ?_
    cases ok with
    | false => exact Consults.pure _
    | true => exact ih fun id hid => h id (by simp [hid])

/-- A rule consults the evidence that it requires and that its text names. -/
theorem consults_rule_state {clause : Clause} {v : Value} (hv : clause.Of v)
    (hneeds : ∀ id ∈ clause.rule.needs, id ∈ ids)
    (htree : ∀ id ∈ clause.tree.evidenceIds, id ∈ ids) :
    Consults ids (recorded.rule_state context v) (rule_state context v) := by
  obtain ⟨parsed, hparse, hparsed⟩ := hv.tree
  unfold recorded.rule_state rule_state
  refine Consults.of_lift hv.rule.needs ?_
  refine Consults.of_lift (y := iterate (.list (clause.rule.needs.map .str))) rfl ?_
  refine Consults.bind (consults_first_unsettled hneeds) fun found _ => ?_
  cases found with
  | some id => exact Consults.pure _
  | none =>
    refine Consults.of_lift (getItem_eq_ok.mpr hv.rule.when_) (Consults.of_lift hparse ?_)
    exact Consults.of_lift (ast_eq hparsed) (consults_node clause.tree _ htree [])

theorem consults_walk {registry : Registry} {clauses : List Clause} {rules : List Value}
    (hr : List.Forall₂ Clause.Of clauses rules)
    (h : ∀ c ∈ clauses, ∀ id, id ∈ c.rule.needs ∨ id ∈ c.tree.evidenceIds → id ∈ ids)
    (ordinal : Nat) (trace : List Str) :
    Consults ids (recorded.walk context registry rules ordinal trace)
      (walk context registry rules ordinal trace) := by
  induction hr generalizing ordinal trace with
  | nil =>
    rw [recorded.walk, walk]
    refine Consults.bind (Consults.lift _) fun _ _ => Consults.bind (Consults.lift _) fun _ _ => ?_
    exact Consults.bind (Consults.lift _) fun _ _ => Consults.lift _
  | @cons clause v clauses rules hv _ ih =>
    have hclause := h clause (by simp)
    rw [recorded.walk, walk]
    refine Consults.bind (consults_rule_state hv (fun id hid => hclause id (.inl hid))
      fun id hid => hclause id (.inr hid)) ?_
    rintro ⟨state, causes⟩ -
    refine Consults.bind (Consults.lift _) fun id _ => Consults.bind (Consults.lift _) fun _ _ => ?_
    cases state with
    | true =>
      refine Consults.bind (Consults.lift _) fun _ _ => Consults.bind (Consults.lift _) fun _ _ => ?_
      refine Consults.bind (Consults.lift _) fun _ _ => Consults.bind (Consults.lift _) fun _ _ => ?_
      exact Consults.bind (Consults.lift _) fun _ _ => Consults.lift _
    | unsettled => exact Consults.lift _
    | false => exact ih (fun c hc => h c (by simp [hc])) _ _

end Rules

/-! ## Declarations -/

theorem firstMet_appendNew (ids : List Str) : FirstMet ids (ids.foldl appendNew []) := by
  have hkeep : appendNew = keep := by
    funext out id
    unfold appendNew keep
    by_cases h : id ∈ out
    · rw [if_pos h, if_pos h]
    · rw [if_neg h, if_neg h]
  rw [hkeep]
  exact firstMet_foldl ids

/-- The rulebook declares evidence with this id. -/
def Declares (V : Value) (id : Str) : Prop :=
  ∃ declaration ∈ membersOf V "evidence", declaration.get? "id" = some (.str id)

theorem membersOf_normalize {v : Value} (h : v.DistinctKeys) (key : Str) :
    membersOf v.normalize key = (membersOf v key).map Value.normalize := by
  unfold membersOf
  rw [Value.get?_normalize h]
  cases v.get? key with
  | none => rfl
  | some w => cases w <;> simp

theorem getOr_normalize {v : Value} (h : v.DistinctKeys) (key : Str) :
    getOr v.normalize key (.list []) = (getOr v key (.list [])).map Value.normalize := by
  cases h with
  | @dict members hd hm =>
    have hget := Value.get?_normalize (.dict hd hm) key
    rw [Value.get?_dict] at hget
    rw [Value.normalize_dict] at hget ⊢
    rw [Value.get?_dict] at hget
    simp only [getOr, getMethod, hget, ok_bind]
    cases members.lookup key <;> simp [Except.map, pure, Except.pure]
  | _ => simp [getOr, getMethod, bind, Except.bind, Except.map]

/-- The required evidence of a rule is declared. -/
theorem declares_needs {v : Value} (hv : v.DistinctKeys) {P : rulebook.LoadedRulebook}
    (hpin : rulebook.pin v REGISTRY = .ok P) {rule : Value}
    (hrule : rule ∈ membersOf v.normalize "rules") {r : Rule} (hr : r.Of rule) :
    ∀ id ∈ r.needs, Declares v.normalize id := by
  intro id hid
  have hvalid := (validate_rulebook_iff v).mp (rulebook.pin_eq_ok.mp hpin).1
  obtain ⟨rules, hrules, hall⟩ := rulebook_rules hvalid
  obtain ⟨evidence, hevidence, -⟩ := rulebook_evidence hvalid
  rw [membersOf_normalize hv, membersOf, hrules] at hrule
  obtain ⟨source, hsource, rfl⟩ := List.mem_map.mp hrule
  have hlist := hv.get? hrules
  cases hlist with
  | list hl =>
    obtain ⟨written, hwritten⟩ := rule_of_isRule (hall source hsource)
    have hneeds := getOr_normalize (hl source hsource) (lit "requires_evidence")
    rw [hr.needs, hwritten.needs] at hneeds
    have hmem : Value.str id ∈ written.needs.map .str := by
      have : r.needs.map Value.str = written.needs.map .str := by
        simpa [Except.map, List.map_map, Function.comp_def] using hneeds
      rw [← this]
      exact List.mem_map_of_mem hid
    obtain ⟨found, hfound, declaration, hdeclaration, hdid⟩ := rulebook.needs_of_pin hpin
      hevidence hrules hsource hwritten.needs _ hmem
    cases hfound
    refine ⟨declaration.normalize, ?_, ?_⟩
    · rw [membersOf_normalize hv, membersOf, hevidence]
      exact List.mem_map_of_mem hdeclaration
    · have hevidences := hv.get? hevidence
      cases hevidences with
      | list he =>
        rw [Value.get?_normalize (he declaration hdeclaration), hdid]
        simp

/-- What the text of a rule that passes names is declared. -/
theorem declares_parsed {P : rulebook.LoadedRulebook} {V : Value} (hV : ReadsBack P V)
    {parsed : ParsedExpression} (h : validate_expression parsed P = .ok ()) :
    ∀ id ∈ parsed.evidence_ids, Declares V id := by
  obtain ⟨items, hitems, hall⟩ := rulebook_evidence hV.valid
  obtain ⟨declared, hdeclared, hlookup⟩ := lookup_byId fun item h => declaration_id (hall item h)
  unfold validate_expression at h
  rw [hV.value, ok_bind, getItem_eq_ok.mpr hitems, ok_bind, hdeclared, ok_bind, forM_eq_ok] at h
  intro id hid
  have hsome := h id hid
  rw [raiseIf_eq_ok, hlookup, Option.isNone_iff_eq_none, ← ne_eq, Option.ne_none_iff_exists'] at hsome
  obtain ⟨declaration, hfound⟩ := hsome
  refine ⟨declaration, ?_, id_of_withId hfound⟩
  rw [membersOf, hitems]
  exact mem_of_withId hfound

/-- A prepared evaluation is the walk over the rules. -/
theorem evaluate_eq_walk {P : rulebook.LoadedRulebook} {V snapshot : Value} (hV : ReadsBack P V)
    {members : List (Str × Value)} {context : Context}
    (hcontext : context_of V (.dict members) snapshot = .ok context)
    (hrulebook : context.rulebook = V) (hs : IsSnapshot snapshot)
    (hprep : prepare P (.dict members) snapshot REGISTRY = .ok none) :
    evaluate P (.dict members) snapshot REGISTRY =
      walk context REGISTRY (membersOf V "rules") 0 [] := by
  obtain ⟨rules, hrules, -⟩ := rulebook_rules hV.valid
  obtain ⟨ms, rfl, -, -⟩ := (show ClosedObject _ _ snapshot from hs)
  change contextWith .loaded V _ _ = .ok context at hcontext
  unfold evaluate evaluateWith
  dsimp only
  rw [hprep, ok_bind]
  dsimp only
  rw [hV.value, ok_bind, hcontext, ok_bind, hrulebook, getItem_eq_ok.mpr hrules, ok_bind,
    show iterate (.list rules) = .ok rules from rfl, ok_bind, membersOf, hrules]

/-- The static check covers the evaluator: with prepared inputs, the evaluation
of every expression that the parser accepts consults only ids of the expression,
which are those that its text names, in source order; and the walk returns, and
consults declared evidence only. -/
theorem evidence_consulted_is_declared {v : Value} (hv : v.DistinctKeys)
    {P : rulebook.LoadedRulebook} (hpin : rulebook.pin v REGISTRY = .ok P)
    {members : List (Str × Value)} {snapshot : Value} (hc : (Value.dict members).DistinctKeys)
    (hs : snapshot.DistinctKeys)
    (hprep : prepare P (.dict members) snapshot REGISTRY = .ok none) :
    ∃ V context, P.value = .ok V ∧ context_of V (.dict members) snapshot = .ok context ∧
      (∀ source parsed, parse_expression (.str source) = .ok parsed →
        FirstMet (namedIn source) parsed.evidence_ids ∧
        ∃ ast state causes log, parsed.ast = .ok ast ∧
          evaluate_node context FRAMES ast [] = .ok (state, causes) ∧
          recorded.evaluate_node context FRAMES ast [] [] = .ok ((state, causes), log) ∧
          ∀ id ∈ log, id ∈ parsed.evidence_ids) ∧
      ∃ r log, evaluate P (.dict members) snapshot REGISTRY = .ok r ∧
        recorded.walk context REGISTRY (membersOf V "rules") 0 [] [] = .ok (r, log) ∧
        ∀ id ∈ log, Declares V id := by
  have hV := readsBack_of_pin hv hpin
  obtain ⟨clauses, hready⟩ := ready_of_prepare hV hprep
  obtain ⟨context, hcontext, hrulebook, hmodels⟩ := context_models .loaded hV.valid hc hready.snapshot hs
  refine ⟨v.normalize, context, hV.value, hcontext, ?_, ?_⟩
  · intro source parsed hparse
    have hids := evidence_ids_of_text hparse
    refine ⟨hids ▸ firstMet_appendNew _, ?_⟩
    obtain ⟨e, hparsed⟩ : ∃ e, Parsed source e parsed := by
      rcases parse_expression_cases source with ⟨e, q, hq, he⟩ | ⟨x, hx, -⟩ | ⟨hx, -⟩
      · exact ⟨e, (Except.ok.inj (hq.symm.trans hparse)) ▸ he⟩
      · exact absurd (hx.symm.trans hparse) (by simp)
      · exact absurd (hx.symm.trans hparse) (by simp)
    have hheight : e.height ≤ FRAMES := hparsed.height.trans (by decide)
    have hrun := evaluate_node_eq hmodels e FRAMES [] hheight
    have hids' : ∀ id ∈ e.evidenceIds, id ∈ parsed.evidence_ids := by
      intro id hid
      rw [hparsed.evidence_ids]
      exact mem_foldl_appendNew.mpr (.inr hid)
    have hconsults : ConsultsNoting parsed.evidence_ids
        (recorded.evaluate_node context FRAMES e.node.normalize)
        (evaluate_node context FRAMES e.node.normalize) := consults_node e FRAMES hids'
    obtain ⟨l, hl, hrecorded⟩ := hconsults [] []
    rw [hrun] at hrecorded
    exact ⟨_, _, _, l, ast_eq hparsed, hrun, hrecorded, hl⟩
  · obtain ⟨o, ho, hdefault⟩ := rulebook_default_outcome hV.valid
    obtain ⟨r, hr, -⟩ := evaluate_returns hV hc hs hprep hready hdefault (by simpa using ho) rfl
    have hwalk := evaluate_eq_walk hV hcontext hrulebook hready.snapshot hprep
    have hpass := ((prepare_eq_none_iff hV (adopted_at_of_pin hv hpin)).mp hprep).2
    have hdeclared : ∀ c ∈ clauses, ∀ id, id ∈ c.rule.needs ∨ id ∈ c.tree.evidenceIds →
        Declares v.normalize id := by
      intro c hmem id hid
      obtain ⟨rule, hrule, hof⟩ := forall₂_mem hready.rules hmem
      rcases hid with hid | hid
      · exact declares_needs hv hpin hrule hof.rule id hid
      · obtain ⟨when_, parsed, hwhen, hparse, hvalid⟩ := hpass rule hrule
        obtain ⟨parsed', hparse', hparsed⟩ := hof.tree
        cases Value.str.inj (Option.some.inj (hwhen.symm.trans hof.rule.when_))
        cases Except.ok.inj (hparse.symm.trans hparse')
        refine declares_parsed hV hvalid id ?_
        rw [hparsed.evidence_ids]
        exact mem_foldl_appendNew.mpr (.inr hid)
    -- the ids that the clauses may consult, in one list
    have hids : ∀ c ∈ clauses, ∀ id, id ∈ c.rule.needs ∨ id ∈ c.tree.evidenceIds →
        id ∈ clauses.flatMap fun c => c.rule.needs ++ c.tree.evidenceIds :=
      fun c hmem id hid => List.mem_flatMap.mpr ⟨c, hmem, List.mem_append.mpr hid⟩
    have hconsults : Consults (clauses.flatMap fun c => c.rule.needs ++ c.tree.evidenceIds)
        (recorded.walk context REGISTRY (membersOf v.normalize "rules") 0 [])
        (walk context REGISTRY (membersOf v.normalize "rules") 0 []) :=
      consults_walk hready.rules hids 0 []
    obtain ⟨l, hl, hrecorded⟩ := hconsults []
    rw [← hwalk, hr] at hrecorded
    refine ⟨r, l, hr, hrecorded, fun id hid => ?_⟩
    obtain ⟨c, hmem, hin⟩ := List.mem_flatMap.mp (hl id hid)
    exact hdeclared c hmem id (List.mem_append.mp hin)

/-- A rulebook that asks for one piece of evidence. -/
theorem evidence_consulted_presentReport : ∃ P V context r log,
    rulebook.pin (rulebook.rulebookWith presentReport) REGISTRY = .ok P ∧ P.value = .ok V ∧
      context_of V (.dict smallCandidate) (snapshotWith [itemWith "report" "ok"]) = .ok context ∧
      recorded.walk context REGISTRY (membersOf V "rules") 0 [] [] = .ok (r, log) ∧
      ∀ id ∈ log, Declares V id := by
  obtain ⟨P, hP, -⟩ := rulebook.pin_rulebookWith encodable_presentReport
  have hprep := @prepare_presentReport P hP [("report", "ok")] (by simp)
  obtain ⟨V, context, hV, hcontext, -, r, log, -, hlog, hdeclared⟩ := evidence_consulted_is_declared
    (rulebook.canonical_rulebookWith encodable_presentReport).distinctKeys hP
    (by simp [smallCandidate, Distinct])
    (distinctKeys_snapshotWith (by simp [itemWith, Distinct])) hprep
  exact ⟨P, V, context, r, log, hP, hV, hcontext, hlog, hdeclared⟩

end vfy.gate
