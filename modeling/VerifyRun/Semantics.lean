-- What an expression means: a three-valued denotation in a world of settled
-- and unsettled evidence. The evaluator computes it, on every tree that the
-- parser builds, and notes the causes that a full traversal meets.
import VerifyRun.Gate
import VerifyRun.Tree

namespace vfy.gate

open python keys outcomes expr

/-! ## Worlds -/

/-- What the recorded inputs say. A value is there only for evidence that is
ok, and every value is in its normal order. The string at some paths is the very
object `UNSETTLED`. -/
structure World where
  candidate : Value
  ok : Str → Bool
  fresh : Str → Bool
  value : Str → Option Value
  same : Path → Bool

/-- The world with no such object in it. -/
def World.plain (w : World) : World := { w with same := fun _ => false }

/-- One segment of a path, from what the path before it is. -/
def select : Resolved → Segment → Resolved
  | .value (.dict members), .member name => (members.lookup name).elim .absent .value
  | .value (.list items), .index i => items[i]?.elim .absent .value
  | .value _, _ => .absent
  | r, _ => r

/-- What a path leads to. -/
def World.found (w : World) (p : Path) : Resolved :=
  match p.root with
  | .candidate => p.segments.foldl select (.value w.candidate)
  | .identity => p.segments.foldl select ((w.candidate.get? "identity").elim .absent .value)
  | .evidence =>
    match w.value p.first with
    | some v => p.rest.foldl select (.value v)
    | none => .unsettled

def World.path (w : World) (p : Path) : Resolved := identified (w.same p) (w.found p)

def World.operand (w : World) : Operand → Resolved
  | .literal l => .value l.value
  | .path p => w.path p

/-! ## The denotation -/

/-- Unsettled absorbs; otherwise all of them. -/
def conjunction (states : List State) : State :=
  if .unsettled ∈ states then .unsettled else settled (states.all (· = .true))

/-- Unsettled absorbs; otherwise one of them. -/
def disjunction (states : List State) : State :=
  if .unsettled ∈ states then .unsettled else settled (states.any (· = .true))

def negation : State → State
  | .unsettled => .unsettled
  | .true => .false
  | .false => .true

/-- The order of two operands, where both are numeric. -/
def order : Resolved → Resolved → Option Int
  | .value v, .value w => compare_numeric v w
  | _, _ => none

/-- What an operator says of two settled operands. -/
def relation (o : Operator) (l r : Resolved) : State :=
  match o with
  | .eq => settled (equal l r)
  | .ne => settled (!equal l r)
  | .lt => (order l r).elim .unsettled fun i => settled (i < 0)
  | .le => (order l r).elim .unsettled fun i => settled (i ≤ 0)
  | .gt => (order l r).elim .unsettled fun i => settled (i > 0)
  | .ge => (order l r).elim .unsettled fun i => settled (i ≥ 0)

def comparison (o : Operator) : Resolved → Resolved → State
  | .unsettled, _ => .unsettled
  | _, .unsettled => .unsettled
  | l, r => relation o l r

def contained (negated : Bool) (members : List Literal) : Resolved → State
  | .unsettled => .unsettled
  | r => settled (negated != members.any fun l => equal r (.value l.value))

def globbed (pattern : Str) : Resolved → State
  | .unsettled => .unsettled
  | .absent => .false
  | .value (.str text) => settled (glob pattern text)
  | .value _ => .unsettled

mutual

/-- The state of an expression in a world. -/
def World.denote (w : World) : Expr → State
  | .or operands => disjunction (w.denoteAll operands)
  | .and operands => conjunction (w.denoteAll operands)
  | .not operand => negation (w.denote operand)
  | .compare o l r => comparison o (w.operand l) (w.operand r)
  | .membership negated o members => contained negated members (w.operand o)
  | .fresh evidence_id => settled (w.fresh evidence_id)
  | .present evidence_id => settled (w.ok evidence_id)
  | .matchesGlob p pattern => globbed pattern (w.path p)

def World.denoteAll (w : World) : List Expr → List State
  | [] => []
  | e :: rest => w.denote e :: w.denoteAll rest

end

/-! ## The causes -/

def World.pathCauses (w : World) (p : Path) : List Cause :=
  if p.root = .evidence ∧ w.value p.first = none then [.evidence_unsettled p.first] else []

def World.operandCauses (w : World) : Operand → List Cause
  | .literal _ => []
  | .path p => w.pathCauses p

/-- A settled comparison that is unsettled all the same is one of operands that
have no order. -/
def comparisonCauses (o : Operator) : Resolved → Resolved → List Cause
  | .unsettled, _ => []
  | _, .unsettled => []
  | l, r => if relation o l r = .unsettled then [.operand_unsettled] else []

def globbedCauses : Resolved → List Cause
  | .value (.str _) => []
  | .value _ => [.operand_unsettled]
  | _ => []

mutual

/-- The causes that a traversal from left to right meets. -/
def World.causes (w : World) : Expr → List Cause
  | .or operands => w.allCauses operands
  | .and operands => w.allCauses operands
  | .not operand => w.causes operand
  | .compare o l r => w.operandCauses l ++ w.operandCauses r ++
      comparisonCauses o (w.operand l) (w.operand r)
  | .membership _ o _ => w.operandCauses o
  | .fresh _ => []
  | .present _ => []
  | .matchesGlob p _ => w.pathCauses p ++ globbedCauses (w.path p)

def World.allCauses (w : World) : List Expr → List Cause
  | [] => []
  | e :: rest => w.causes e ++ w.allCauses rest

end

/-! ## Contexts and their worlds -/

/-- The string at a path is the very object `UNSETTLED`. -/
def Objects.at (objects : Objects) (p : Path) : Bool :=
  match p.root with
  | .candidate => objects.candidate (p.segments.map Segment.node)
  | .identity =>
    objects.candidate ((Segment.member "identity").node :: p.segments.map Segment.node)
  | .evidence => objects.evidence p.first (p.rest.map Segment.node)

/-- The context holds the inputs that the world describes. -/
structure Models (context : Context) (w : World) : Prop where
  same : ∀ p, w.same p = context.objects.at p
  distinct : context.candidate.DistinctKeys
  candidate : w.candidate = context.candidate.normalize
  ok : ∀ id, item_ok context id = .ok (w.ok id)
  fresh : ∀ id, is_fresh context id = .ok (w.fresh id)
  value_of_ok : ∀ id, w.ok id = true →
    w.value id = (((context.items.lookup id).getD .null).get? "value").map Value.normalize
  value_distinct : ∀ id v, ((context.items.lookup id).getD .null).get? "value" = some v →
    v.DistinctKeys
  value_of_not_ok : ∀ id, w.ok id = false → w.value id = none

/-- What the evaluator resolves to, and what it resolves to in the world. -/
inductive Agrees : Resolved → Resolved → Prop where
  | unsettled : Agrees .unsettled .unsettled
  | absent : Agrees .absent .absent
  | value {v : Value} (h : v.DistinctKeys) : Agrees (.value v) (.value v.normalize)

theorem Agrees.identified {r r' : Resolved} (h : Agrees r r') (same : Bool) :
    Agrees (identified same r) (identified same r') := by
  cases h with
  | unsettled => exact .unsettled
  | absent => exact .absent
  | @value v hv =>
    cases v with
    | str text =>
      rw [Value.normalize_str, gate.identified]
      by_cases hsame : same = true ∧ text = UNSETTLED
      · rw [if_pos hsame]
        exact .unsettled
      · rw [if_neg hsame]
        simpa using Agrees.value hv
    | _ => simpa [gate.identified] using Agrees.value hv

theorem agrees_elim {o : Option Value} (h : ∀ v, o = some v → v.DistinctKeys) :
    Agrees (o.elim .absent .value) ((o.map Value.normalize).elim .absent .value) := by
  cases o with
  | none => exact .absent
  | some v => exact .value (h v rfl)

theorem normalize_segment (segment : Segment) : segment.node.normalize = segment.node := by
  cases segment <;> simp [Segment.node, sortByKey]

theorem descend_step_agrees {r r' : Resolved} (h : Agrees r r') (segment : Segment) :
    ∃ s, descend_step r segment.node = .ok s ∧ Agrees s (select r' segment) := by
  cases h with
  | unsettled => cases segment <;> exact ⟨_, rfl, .unsettled⟩
  | absent => cases segment <;> exact ⟨_, rfl, .absent⟩
  | @value v hv =>
    cases segment with
    | member name =>
      cases hv with
      | @dict members hd hm =>
        refine ⟨_, rfl, ?_⟩
        rw [Value.normalize_dict]
        simp only [select]
        rw [lookup_sortByKey (hd.map_snd _), lookup_map_snd]
        exact agrees_elim fun w hw => hm _ (mem_of_lookup hw)
      | list _ => exact ⟨_, rfl, by rw [Value.normalize_list]; exact .absent⟩
      | null => exact ⟨_, rfl, by rw [Value.normalize_null]; exact .absent⟩
      | bool b => exact ⟨_, rfl, by rw [Value.normalize_bool]; exact .absent⟩
      | int i => exact ⟨_, rfl, by rw [Value.normalize_int]; exact .absent⟩
      | str s => exact ⟨_, rfl, by rw [Value.normalize_str]; exact .absent⟩
    | index i =>
      cases hv with
      | @list items hi =>
        rw [Value.normalize_list]
        simp only [select, List.getElem?_map]
        have hstep : descend_step (.value (.list items)) (Segment.index i).node =
            .ok (items[i]?.elim .absent .value) := by
          unfold descend_step Segment.node
          by_cases hlt : i < items.length
          · have hge : ¬ (i : Int) ≥ items.length := by omega
            have hpos : ¬ (i : Int) < 0 := by omega
            simp [number, listItem, hge, hpos, List.getElem?_eq_getElem hlt]
          · have hge : (i : Int) ≥ items.length := by omega
            simp [number, hge, List.getElem?_eq_none (Nat.le_of_not_lt hlt)]
        exact ⟨_, hstep, agrees_elim fun w hw => hi _ (List.mem_of_getElem? hw)⟩
      | dict _ _ => exact ⟨_, rfl, by rw [Value.normalize_dict]; exact .absent⟩
      | null => exact ⟨_, rfl, by rw [Value.normalize_null]; exact .absent⟩
      | bool b => exact ⟨_, rfl, by rw [Value.normalize_bool]; exact .absent⟩
      | int i => exact ⟨_, rfl, by rw [Value.normalize_int]; exact .absent⟩
      | str s => exact ⟨_, rfl, by rw [Value.normalize_str]; exact .absent⟩

theorem descend_agrees {r r' : Resolved} (h : Agrees r r') (segments : List Segment) :
    ∃ s, descend r (segments.map Segment.node) = .ok s ∧ Agrees s (segments.foldl select r') := by
  induction segments generalizing r r' with
  | nil => exact ⟨r, rfl, h⟩
  | cons segment rest ih =>
    obtain ⟨s, hs, has⟩ := descend_step_agrees h segment
    obtain ⟨t, ht, hat⟩ := ih has
    refine ⟨t, ?_, hat⟩
    unfold descend at ht ⊢
    rw [List.map_cons, List.foldlM_cons, hs, ok_bind, ht]

theorem segments_eq (p : Path) : getItem p.node.normalize "segments" =
    .ok (.list (p.segments.map Segment.node)) := by
  rw [getItem_normalize (distinctKeys_path p)]
  have hmap : (p.segments.map Segment.node).map Value.normalize = p.segments.map Segment.node := by
    rw [List.map_map]
    exact List.map_congr_left fun segment _ => normalize_segment segment
  simp [Path.node, Except.map, hmap]

theorem root_eq (p : Path) : getItem p.node.normalize "root" = .ok (.str p.root.text) := by
  rw [getItem_normalize (distinctKeys_path p)]
  simp [Path.node, Except.map]

theorem type_of_path (p : Path) : getItem p.node.normalize "type" = .ok (.str "path") := by
  rw [getItem_normalize (distinctKeys_path p)]
  simp [Path.node, Except.map]

section Evaluation

variable {context : Context} {w : World}

theorem lift_ok {α β : Type} {x : Except Exn α} {a : α} (h : x = .ok a) (f : α → Evaluation β) :
    (liftM x >>= f) = f a := by
  rw [h]
  rfl

/-- A path in the evaluator is a path in the world, and notes its cause. -/
theorem resolve_path (h : Models context w) (p : Path) (causes : List Cause) :
    ∃ r, resolve context p.node.normalize causes =
      .ok (r, (w.pathCauses p).foldl noted causes) ∧ Agrees r (w.path p) := by
  unfold resolve
  rw [lift_ok (type_of_path p), if_neg (by simp), lift_ok (root_eq p), lift_ok (segments_eq p),
    lift_ok (x := iterate (.list (p.segments.map Segment.node))) rfl]
  have hsame := h.same p
  unfold Objects.at at hsame
  unfold World.path World.found World.pathCauses
  cases hroot : p.root with
  | candidate =>
    obtain ⟨r, hr, ha⟩ := descend_agrees (.value h.distinct) p.segments
    rw [hroot] at hsame
    rw [h.candidate, hsame]
    refine ⟨_, ?_, ha.identified _⟩
    simp [Root.text, hr]
    rfl
  | identity =>
    have hget := Value.get?_normalize h.distinct "identity"
    obtain ⟨r, hr, ha⟩ := descend_agrees
      (agrees_elim fun v hv => h.distinct.get? (k := "identity") hv) p.segments
    rw [hroot] at hsame
    rw [h.candidate, hget, hsame]
    refine ⟨_, ?_, ha.identified _⟩
    simp [Root.text, hr]
    rfl
  | evidence =>
    have hok := h.ok p.first
    unfold item_ok at hok
    have hfirst : getItem (Segment.member p.first).node "member" = .ok (.str p.first) := by
      simp [Segment.node]
    simp only [Root.text, isStr_str, decide_true, Path.segments, List.map_cons]
    rw [lift_ok hfirst, lift_ok (x := string (.str p.first)) rfl, lift_ok hok]
    cases hb : w.ok p.first with
    | false =>
      rw [h.value_of_not_ok _ hb]
      refine ⟨.unsettled, ?_, .unsettled⟩
      simp [note]
      rfl
    | true =>
      rw [if_pos rfl, h.value_of_ok _ hb]
      cases hv : ((context.items.lookup p.first).getD .null).get? "value" with
      | none =>
        refine ⟨.unsettled, ?_, .unsettled⟩
        simp [note]
        rfl
      | some v =>
        obtain ⟨r, hr, ha⟩ := descend_agrees (.value (h.value_distinct _ v hv)) p.rest
        rw [hroot] at hsame
        rw [hsame]
        refine ⟨_, ?_, ha.identified _⟩
        simp [hr]
        rfl

theorem run_bind {α β : Type} {x : Evaluation α} {a : α} {causes noted : List Cause}
    (h : x causes = .ok (a, noted)) (f : α → Evaluation β) : (x >>= f) causes = f a noted := by
  show (x causes >>= fun r => f r.1 r.2) = _
  rw [h]
  rfl

/-- A member of a node of the tree, as the evaluator reads it. -/
theorem getItem_node {node : Value} {k : Str} {v : Value} (h : node.DistinctKeys)
    (hv : getItem node k = .ok v) : getItem node.normalize k = .ok v.normalize := by
  rw [getItem_normalize h, hv]
  rfl

theorem getItem_text {node : Value} {k s : Str} (h : node.DistinctKeys)
    (hv : getItem node k = .ok (.str s)) : getItem node.normalize k = .ok (.str s) := by
  have := getItem_node h hv
  rwa [Value.normalize_str] at this

theorem resolve_operand (h : Models context w) (o : Operand) (causes : List Cause) :
    ∃ r, resolve context o.node.normalize causes =
      .ok (r, (w.operandCauses o).foldl noted causes) ∧ Agrees r (w.operand o) := by
  cases o with
  | path p => exact resolve_path h p causes
  | literal l =>
    obtain ⟨hd, hn⟩ := distinctKeys_literal l
    have hnode := distinctKeys_literal_node hd
    have htype := getItem_text (k := "type") (s := "literal") hnode (by simp [literal_node])
    have hvalue := getItem_node (k := "value") (v := l.value) hnode (by simp [literal_node])
    unfold resolve Operand.node
    rw [lift_ok htype, if_pos (by simp), lift_ok hvalue, hn]
    refine ⟨.value l.value, rfl, ?_⟩
    have := Agrees.value hd
    rwa [hn] at this

theorem equal_agrees {r r' s s' : Resolved} (hr : Agrees r r') (hs : Agrees s s') :
    equal r s = equal r' s' := by
  cases hr with
  | unsettled => cases hs <;> rfl
  | absent => cases hs <;> rfl
  | value hv =>
    cases hs with
    | unsettled => rfl
    | absent => rfl
    | value hw =>
      simp only [equal, equal_values_normalize_left, equal_values_normalize_right _ hw]

theorem order_agrees {r r' s s' : Resolved} (hr : Agrees r r') (hs : Agrees s s') :
    order r s = order r' s' := by
  cases hr with
  | unsettled => cases hs <;> rfl
  | absent => cases hs <;> rfl
  | value hv =>
    cases hs with
    | unsettled => rfl
    | absent => rfl
    | value hw => simp only [order, compare_numeric_normalize]

theorem comparison_agrees (o : Operator) {r r' s s' : Resolved} (hr : Agrees r r')
    (hs : Agrees s s') : comparison o r s = comparison o r' s' ∧
      comparisonCauses o r s = comparisonCauses o r' s' := by
  have hrel : relation o r s = relation o r' s' := by
    unfold relation
    rw [equal_agrees hr hs, order_agrees hr hs]
  cases hr <;> cases hs <;>
    first
      | exact ⟨rfl, rfl⟩
      | exact ⟨hrel, by simp only [comparisonCauses, hrel]⟩

/-- The comparison of two operands in the evaluator. -/
def compareResolved (operator : Str) (left right : Resolved) : Evaluation State :=
  match left, right with
  | .unsettled, _ => pure .unsettled
  | _, .unsettled => pure .unsettled
  | left, right =>
    if operator = lit "==" then pure (settled (equal left right))
    else if operator = lit "!=" then pure (settled (!equal left right))
    else
      match order left right with
      | none => do
        note .operand_unsettled
        pure .unsettled
      | some order =>
        if operator = lit "<" then pure (settled (order < 0))
        else if operator = lit "<=" then pure (settled (order ≤ 0))
        else if operator = lit ">" then pure (settled (order > 0))
        else pure (settled (order ≥ 0))

theorem operator_text_eq (o : Operator) :
    (o.text = lit "==" ↔ o = .eq) ∧ (o.text = lit "!=" ↔ o = .ne) ∧
      (o.text = lit "<" ↔ o = .lt) ∧ (o.text = lit "<=" ↔ o = .le) ∧
      (o.text = lit ">" ↔ o = .gt) := by
  cases o <;> simp [Operator.text]

theorem settled_ne_unsettled (b : Bool) : settled b ≠ .unsettled := by
  cases b <;> simp [settled]

theorem compareResolved_eq (o : Operator) (r s : Resolved) (causes : List Cause) :
    compareResolved o.text r s causes =
      .ok (comparison o r s, (comparisonCauses o r s).foldl noted causes) := by
  have hrel : ∀ r s : Resolved, r ≠ .unsettled → s ≠ .unsettled →
      compareResolved o.text r s causes = .ok (relation o r s,
        (if relation o r s = .unsettled then [Cause.operand_unsettled] else []).foldl noted
          causes) := by
    intro r s hr hs
    obtain ⟨heq, hne, hlt, hle, hgt⟩ := operator_text_eq o
    have hsettled : ∀ b : Bool, relation o r s = settled b → .ok (settled b, causes) =
        (.ok (relation o r s, (if relation o r s = .unsettled then [Cause.operand_unsettled]
          else []).foldl noted causes) : Except Exn (State × List Cause)) := by
      intro b hb
      rw [hb, if_neg (settled_ne_unsettled b)]
      rfl
    have hunfold : compareResolved o.text r s causes = (
        if o.text = lit "==" then pure (settled (equal r s))
        else if o.text = lit "!=" then pure (settled (!equal r s))
        else
          match order r s with
          | none => do
            note .operand_unsettled
            pure .unsettled
          | some order =>
            if o.text = lit "<" then pure (settled (order < 0))
            else if o.text = lit "<=" then pure (settled (order ≤ 0))
            else if o.text = lit ">" then pure (settled (order > 0))
            else pure (settled (order ≥ 0)) : Evaluation State) causes := by
      cases r with
      | unsettled => exact absurd rfl hr
      | _ => cases s <;> first | rfl | exact absurd rfl hs
    rw [hunfold]
    simp only [heq, hne, hlt, hle, hgt]
    cases ho : order r s with
    | none => cases o <;> first | exact hsettled _ rfl | simp [relation, ho, note]; rfl
    | some i => cases o <;> exact hsettled _ (by simp [relation, ho])
  cases r with
  | unsettled => rfl
  | absent =>
    cases s with
    | unsettled => rfl
    | absent => exact hrel _ _ (by simp) (by simp)
    | value v => exact hrel _ _ (by simp) (by simp)
  | value u =>
    cases s with
    | unsettled => rfl
    | absent => exact hrel _ _ (by simp) (by simp)
    | value v => exact hrel _ _ (by simp) (by simp)

/-- A comparison in the evaluator is the comparison in the world. -/
theorem evaluate_compare_eq (h : Models context w) (o : Operator) (l r : Operand)
    (causes : List Cause) : evaluate_compare context (Expr.compare o l r).node.normalize causes =
      .ok (w.denote (.compare o l r), (w.causes (.compare o l r)).foldl noted causes) := by
  have hnode := distinctKeys_node (.compare o l r)
  have hleft := getItem_node (k := "left") (v := l.node) hnode (by simp [Expr.node])
  have hright := getItem_node (k := "right") (v := r.node) hnode (by simp [Expr.node])
  obtain ⟨a, ha, hal⟩ := resolve_operand h l causes
  obtain ⟨b, hb, hbr⟩ := resolve_operand h r ((w.operandCauses l).foldl noted causes)
  obtain ⟨hstate, hcauses⟩ := comparison_agrees o hal hbr
  have hrest : evaluate_compare context (Expr.compare o l r).node.normalize causes =
      compareResolved o.text a b ((w.operandCauses r).foldl noted
        ((w.operandCauses l).foldl noted causes)) := by
    unfold evaluate_compare
    rw [lift_ok hleft, run_bind ha, lift_ok hright, run_bind hb]
    cases a <;> cases b <;> rfl
  rw [hrest, compareResolved_eq, hstate, hcauses]
  simp only [World.denote, World.causes, List.foldl_append]

theorem members_eq (negated : Bool) (o : Operand) (members : List Literal) :
    ∃ node, getItem (Expr.membership negated o members).node.normalize "list" = .ok node ∧
      getItem node "value" = .ok (.list (Literal.values members)) := by
  have hnode := distinctKeys_node (.membership negated o members)
  obtain ⟨hd, hn⟩ := distinctKeys_literal (.list members)
  rw [Literal.value] at hd hn
  refine ⟨_, getItem_node hnode (v := literal_node (.list (Literal.values members)))
    (by simp [Expr.node]), ?_⟩
  rw [getItem_node (distinctKeys_literal_node hd) (v := .list (Literal.values members))
    (by simp [literal_node]), hn]

theorem contained_agrees (negated : Bool) (members : List Literal) {r r' : Resolved}
    (h : Agrees r r') : contained negated members r = contained negated members r' := by
  have hany : members.any (fun l => equal r (.value l.value)) =
      members.any fun l => equal r' (.value l.value) := by
    refine congrArg _ (funext fun l => ?_)
    obtain ⟨hd, hn⟩ := distinctKeys_literal l
    have := equal_agrees h (.value hd)
    rwa [hn] at this
  cases h with
  | unsettled => rfl
  | absent => rfl
  | value hv => simp only [contained, hany]

theorem evaluate_membership_eq (h : Models context w) (negated : Bool) (o : Operand)
    (members : List Literal) (causes : List Cause) :
    evaluate_membership context (Expr.membership negated o members).node.normalize causes =
      .ok (w.denote (.membership negated o members),
        (w.causes (.membership negated o members)).foldl noted causes) := by
  have hnode := distinctKeys_node (.membership negated o members)
  have hoperand := getItem_node (k := "operand") (v := o.node) hnode (by simp [Expr.node])
  have hoperator : getItem (Expr.membership negated o members).node.normalize "operator" =
      .ok (.str (membershipText negated)) := getItem_text hnode (by simp [Expr.node])
  obtain ⟨node, hlist, hvalue⟩ := members_eq negated o members
  obtain ⟨a, ha, hagrees⟩ := resolve_operand h o causes
  simp only [World.denote, World.causes]
  rw [← contained_agrees negated members hagrees]
  have hany : ∀ r : Resolved, ((Literal.values members).any fun m => equal r (.value m)) =
      members.any fun l => equal r (.value l.value) := by
    intro r
    rw [Literal.values_eq, List.any_map]
    rfl
  have hrest : ∀ (r : Resolved) (cs : List Cause), (do
      let values ← iterate (← getItem
        (← getItem (Expr.membership negated o members).node.normalize "list") "value")
      let found := values.any fun member => equal r (.value member)
      if isStr (← getItem (Expr.membership negated o members).node.normalize "operator") "in" then
        pure (settled found)
      else pure (settled (!found)) : Evaluation State) cs =
        .ok (settled (negated != members.any fun l => equal r (.value l.value)), cs) := by
    intro r cs
    rw [lift_ok hlist, lift_ok hvalue,
      lift_ok (x := iterate (.list (Literal.values members))) rfl]
    simp only [hany]
    rw [lift_ok hoperator]
    cases negated with
    | false =>
      rw [if_pos (by simp [membershipText]), Bool.false_bne]
      rfl
    | true =>
      rw [if_neg (by simp [membershipText]), Bool.true_bne]
      rfl
  unfold evaluate_membership
  rw [lift_ok hoperand, run_bind ha]
  cases a with
  | unsettled => rfl
  | absent => exact hrest _ _
  | value v => exact hrest _ _

theorem globbed_agrees (pattern : Str) {r r' : Resolved} (h : Agrees r r') :
    globbed pattern r = globbed pattern r' ∧ globbedCauses r = globbedCauses r' := by
  cases h with
  | unsettled => exact ⟨rfl, rfl⟩
  | absent => exact ⟨rfl, rfl⟩
  | @value v hv => cases v <;> simp [globbed, globbedCauses]

theorem evaluate_matches_eq (h : Models context w) (p : Path) (pattern : Str)
    (causes : List Cause) :
    evaluate_matches context (Expr.matchesGlob p pattern).node.normalize causes =
      .ok (w.denote (.matchesGlob p pattern),
        (w.causes (.matchesGlob p pattern)).foldl noted causes) := by
  have hnode := distinctKeys_node (.matchesGlob p pattern)
  have hpath := getItem_node (k := "path") (v := p.node) hnode (by simp [Expr.node])
  obtain ⟨a, ha, hagrees⟩ := resolve_path h p causes
  obtain ⟨hstate, hcauses⟩ := globbed_agrees pattern hagrees
  simp only [World.denote, World.causes, List.foldl_append]
  rw [← hstate, ← hcauses]
  unfold evaluate_matches
  rw [lift_ok hpath, run_bind ha]
  cases a with
  | unsettled => rfl
  | absent => rfl
  | value v => cases v <;> rfl

/-! ## Every tree -/

theorem mapM_states {child : Value → Evaluation State} {es : List Expr}
    (ih : ∀ e ∈ es, ∀ causes, child e.node.normalize causes =
      .ok (w.denote e, (w.causes e).foldl noted causes)) (causes : List Cause) :
    ((Expr.nodes es).map Value.normalize).mapM child causes =
      .ok (w.denoteAll es, (w.allCauses es).foldl noted causes) := by
  induction es generalizing causes with
  | nil => rfl
  | cons e rest ihr =>
    rw [Expr.nodes, List.map_cons, List.mapM_cons, run_bind (ih e (by simp) causes),
      run_bind (ihr (fun f hf => ih f (by simp [hf])) _), World.denoteAll, World.allCauses,
      List.foldl_append]
    rfl

theorem combine_eq {child : Value → Evaluation State} {es : List Expr}
    (ih : ∀ e ∈ es, ∀ causes, child e.node.normalize causes =
      .ok (w.denote e, (w.causes e).foldl noted causes)) (all_true : Bool) (causes : List Cause) :
    combine child (.list ((Expr.nodes es).map Value.normalize)) all_true causes =
      .ok (if all_true then conjunction (w.denoteAll es) else disjunction (w.denoteAll es),
        (w.allCauses es).foldl noted causes) := by
  unfold combine
  rw [lift_ok (x := iterate (.list ((Expr.nodes es).map Value.normalize))) rfl,
    run_bind (mapM_states ih causes)]
  unfold conjunction disjunction
  by_cases hu : .unsettled ∈ w.denoteAll es
  · simp only [if_pos hu]
    cases all_true <;> rfl
  · simp only [if_neg hu]
    cases all_true <;> rfl

/-- The evaluator gives the denotation of the tree and notes the causes of a
full traversal. -/
theorem evaluate_node_eq (h : Models context w) (e : Expr) : ∀ (frames : Nat)
    (causes : List Cause), e.height ≤ frames →
    evaluate_node context frames e.node.normalize causes =
      .ok (w.denote e, (w.causes e).foldl noted causes) := by
  have hframes : ∀ (e : Expr) (frames : Nat), e.height ≤ frames → ∃ n, frames = n + 1 := by
    intro e frames h
    refine Nat.exists_eq_succ_of_ne_zero ?_
    cases e <;> simp only [Expr.height] at h <;> omega
  have htype : ∀ (e : Expr) (kind : Str), getItem e.node "type" = .ok (.str kind) →
      getItem e.node.normalize "type" = .ok (.str kind) := fun e kind hk =>
    getItem_text (distinctKeys_node e) hk
  have hoperands : ∀ (e : Expr) (es : List Expr),
      getItem e.node "operands" = .ok (.list (Expr.nodes es)) →
      getItem e.node.normalize "operands" = .ok (.list ((Expr.nodes es).map Value.normalize)) := by
    intro e es he
    have := getItem_node (distinctKeys_node e) he
    rwa [Value.normalize_list] at this
  induction e with
  | or es ih =>
    intro frames causes hh
    obtain ⟨n, rfl⟩ := hframes _ _ hh
    rw [Expr.height, Nat.add_le_add_iff_right, Expr.heights_le] at hh
    unfold evaluate_node
    rw [lift_ok (htype (.or es) "or" (by simp [Expr.node])), if_neg (by simp), if_pos (by simp),
      lift_ok (hoperands (.or es) es (by simp [Expr.node])),
      combine_eq (fun e he causes => ih e he n causes (hh e he))]
    rfl
  | and es ih =>
    intro frames causes hh
    obtain ⟨n, rfl⟩ := hframes _ _ hh
    rw [Expr.height, Nat.add_le_add_iff_right, Expr.heights_le] at hh
    unfold evaluate_node
    rw [lift_ok (htype (.and es) "and" (by simp [Expr.node])), if_pos (by simp),
      lift_ok (hoperands (.and es) es (by simp [Expr.node])),
      combine_eq (fun e he causes => ih e he n causes (hh e he))]
    rfl
  | not e ih =>
    intro frames causes hh
    obtain ⟨n, rfl⟩ := hframes _ _ hh
    rw [Expr.height, Nat.add_le_add_iff_right] at hh
    have hoperand := getItem_node (k := "operand") (v := e.node) (distinctKeys_node (.not e))
      (by simp [Expr.node])
    unfold evaluate_node
    rw [lift_ok (htype (.not e) "not" (by simp [Expr.node])), if_neg (by simp), if_neg (by simp),
      if_pos (by simp), lift_ok hoperand, run_bind (ih n causes hh)]
    simp only [World.denote, World.causes]
    cases w.denote e <;> rfl
  | compare o l r =>
    intro frames causes hh
    obtain ⟨n, rfl⟩ := hframes _ _ hh
    unfold evaluate_node
    rw [lift_ok (htype (.compare o l r) "compare" (by simp [Expr.node])), if_neg (by simp),
      if_neg (by simp), if_neg (by simp), if_neg (by simp), if_neg (by simp), if_neg (by simp),
      if_neg (by simp), if_pos (by simp), evaluate_compare_eq h]
  | membership negated o members =>
    intro frames causes hh
    obtain ⟨n, rfl⟩ := hframes _ _ hh
    unfold evaluate_node
    rw [lift_ok (htype (.membership negated o members) "membership" (by simp [Expr.node])),
      if_neg (by simp), if_neg (by simp), if_neg (by simp), if_neg (by simp), if_neg (by simp),
      if_neg (by simp), if_pos (by simp), evaluate_membership_eq h]
  | fresh id =>
    intro frames causes hh
    obtain ⟨n, rfl⟩ := hframes _ _ hh
    have hid : getItem (Expr.fresh id).node.normalize "evidence_id" = .ok (.str id) :=
      getItem_text (distinctKeys_node (.fresh id)) (by simp [Expr.node])
    unfold evaluate_node
    rw [lift_ok (htype (.fresh id) "fresh" (by simp [Expr.node])), if_neg (by simp),
      if_neg (by simp), if_neg (by simp), if_neg (by simp), if_pos (by simp), lift_ok hid,
      lift_ok (x := string (.str id)) rfl, lift_ok (h.fresh id)]
    rfl
  | present id =>
    intro frames causes hh
    obtain ⟨n, rfl⟩ := hframes _ _ hh
    have hid : getItem (Expr.present id).node.normalize "evidence_id" = .ok (.str id) :=
      getItem_text (distinctKeys_node (.present id)) (by simp [Expr.node])
    unfold evaluate_node
    rw [lift_ok (htype (.present id) "present" (by simp [Expr.node])), if_neg (by simp),
      if_neg (by simp), if_neg (by simp), if_pos (by simp), lift_ok hid,
      lift_ok (x := string (.str id)) rfl, lift_ok (h.ok id)]
    rfl
  | matchesGlob p pattern =>
    intro frames causes hh
    obtain ⟨n, rfl⟩ := hframes _ _ hh
    unfold evaluate_node
    rw [lift_ok (htype (.matchesGlob p pattern) "matches" (by simp [Expr.node])),
      if_neg (by simp), if_neg (by simp), if_neg (by simp), if_neg (by simp), if_neg (by simp),
      if_pos (by simp), evaluate_matches_eq h]

end Evaluation

end vfy.gate
