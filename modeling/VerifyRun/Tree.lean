-- The trees of parsed expressions, as a type in which no malformed tree can be
-- written, and the value that the parser builds for each of them.
import VerifyRun.Expr

namespace vfy.expr

open python keys outcomes

/-! ## Trees -/

/-- A literal of the language. -/
inductive Literal where
  | bool (b : Bool)
  | int (i : Int)
  | str (s : Str)
  | list (members : List Literal)

inductive Root where
  | candidate
  | evidence
  | identity
deriving DecidableEq

inductive Segment where
  | member (name : Str)
  | index (i : Nat)
deriving DecidableEq

/-- A path: a root, the member after it, and more segments. -/
structure Path where
  root : Root
  first : Str
  rest : List Segment
deriving DecidableEq

inductive Operand where
  | literal (l : Literal)
  | path (p : Path)

inductive Operator where
  | eq
  | ne
  | le
  | ge
  | lt
  | gt
deriving DecidableEq

inductive Expr where
  | or (operands : List Expr)
  | and (operands : List Expr)
  | not (operand : Expr)
  | compare (operator : Operator) (left right : Operand)
  | membership (negated : Bool) (operand : Operand) (members : List Literal)
  | fresh (evidence_id : Str)
  | present (evidence_id : Str)
  | matchesGlob (path : Path) (pattern : Str)

/-! ## Their values -/

mutual

def Literal.value : Literal → Value
  | .bool b => .bool b
  | .int i => .int i
  | .str s => .str s
  | .list members => .list (Literal.values members)

def Literal.values : List Literal → List Value
  | [] => []
  | l :: rest => l.value :: Literal.values rest

end

def Root.text : Root → Str
  | .candidate => "candidate"
  | .evidence => "evidence"
  | .identity => "identity"

def Segment.node : Segment → Value
  | .member name => .dict [("member", .str name)]
  | .index i => .dict [("index", .int i)]

def Path.segments (p : Path) : List Segment := .member p.first :: p.rest

def Path.node (p : Path) : Value :=
  .dict [("type", .str "path"), ("root", .str p.root.text),
    ("segments", .list (p.segments.map Segment.node))]

def Operand.node : Operand → Value
  | .literal l => literal_node l.value
  | .path p => p.node

def Operator.text : Operator → Str
  | .eq => "=="
  | .ne => "!="
  | .le => "<="
  | .ge => ">="
  | .lt => "<"
  | .gt => ">"

/-- The operator of a membership test. -/
def membershipText (negated : Bool) : Str := if negated then "not in" else "in"

mutual

/-- The value that the parser builds. -/
def Expr.node : Expr → Value
  | .or operands => .dict [("type", .str "or"), ("operands", .list (Expr.nodes operands))]
  | .and operands => .dict [("type", .str "and"), ("operands", .list (Expr.nodes operands))]
  | .not operand => .dict [("type", .str "not"), ("operand", operand.node)]
  | .compare operator left right => .dict [("type", .str "compare"),
      ("operator", .str operator.text), ("left", left.node), ("right", right.node)]
  | .membership negated operand members => .dict [("type", .str "membership"),
      ("operator", .str (membershipText negated)), ("operand", operand.node),
      ("list", literal_node (.list (Literal.values members)))]
  | .fresh evidence_id => .dict [("type", .str "fresh"), ("evidence_id", .str evidence_id)]
  | .present evidence_id => .dict [("type", .str "present"), ("evidence_id", .str evidence_id)]
  | .matchesGlob path pattern => .dict [("type", .str "matches"), ("path", path.node),
      ("pattern", .str pattern)]

def Expr.nodes : List Expr → List Value
  | [] => []
  | e :: rest => e.node :: Expr.nodes rest

end

theorem Literal.values_eq (ls : List Literal) : Literal.values ls = ls.map Literal.value := by
  induction ls with
  | nil => rfl
  | cons l rest ih => simp [Literal.values, ih]

theorem Expr.nodes_eq (es : List Expr) : Expr.nodes es = es.map Expr.node := by
  induction es with
  | nil => rfl
  | cons e rest ih => simp [Expr.nodes, ih]

/-- Induction over the nesting of an expression. -/
@[induction_eliminator, elab_as_elim]
theorem Expr.nested {P : Expr → Prop} (or : ∀ es, (∀ e ∈ es, P e) → P (or es))
    (and : ∀ es, (∀ e ∈ es, P e) → P (and es)) (not : ∀ e, P e → P (not e))
    (compare : ∀ o l r, P (compare o l r)) (membership : ∀ n o ms, P (membership n o ms))
    (fresh : ∀ id, P (fresh id)) (present : ∀ id, P (present id))
    (matchesGlob : ∀ p pattern, P (matchesGlob p pattern)) : ∀ e, P e := by
  intro e
  refine @Expr.rec P (fun l => ∀ e ∈ l, P e) or and not compare membership fresh present matchesGlob
    ?_ ?_ e
  · simp
  · intro e l he hl f hf
    rcases List.mem_cons.mp hf with rfl | hf
    · exact he
    · exact hl f hf

/-! ## Height -/

mutual

/-- The number of open calls at the deepest point of a walk over the tree. -/
def Expr.height : Expr → Nat
  | .or operands => Expr.heights operands + 1
  | .and operands => Expr.heights operands + 1
  | .not operand => operand.height + 1
  | .compare _ _ _ => 2
  | .membership _ _ _ => 2
  | .fresh _ => 1
  | .present _ => 1
  | .matchesGlob _ _ => 2

def Expr.heights : List Expr → Nat
  | [] => 0
  | e :: rest => max e.height (Expr.heights rest)

end

theorem Expr.heights_le {es : List Expr} {h : Nat} :
    Expr.heights es ≤ h ↔ ∀ e ∈ es, e.height ≤ h := by
  induction es with
  | nil => simp [Expr.heights]
  | cons e rest ih => simp [Expr.heights, ih]

/-! ## The evidence ids of a tree -/

def Path.evidenceIds (p : Path) : List Str := if p.root = .evidence then [p.first] else []

def Operand.evidenceIds : Operand → List Str
  | .literal _ => []
  | .path p => p.evidenceIds

mutual

/-- The evidence ids in source order. -/
def Expr.evidenceIds : Expr → List Str
  | .or operands => Expr.allEvidenceIds operands
  | .and operands => Expr.allEvidenceIds operands
  | .not operand => operand.evidenceIds
  | .compare _ left right => left.evidenceIds ++ right.evidenceIds
  | .membership _ operand _ => operand.evidenceIds
  | .fresh evidence_id => [evidence_id]
  | .present evidence_id => [evidence_id]
  | .matchesGlob path _ => path.evidenceIds

def Expr.allEvidenceIds : List Expr → List Str
  | [] => []
  | e :: rest => e.evidenceIds ++ Expr.allEvidenceIds rest

end

/-- `identifier not in out` before it is appended. -/
def appendNew (out : List Str) (identifier : Str) : List Str :=
  if identifier ∈ out then out else out ++ [identifier]

theorem mem_foldl_appendNew {ids out : List Str} {id : Str} :
    id ∈ ids.foldl appendNew out ↔ id ∈ out ∨ id ∈ ids := by
  induction ids generalizing out with
  | nil => simp
  | cons i ids ih =>
    rw [List.foldl_cons, ih, List.mem_cons, ← or_assoc]
    refine or_congr_left ?_
    unfold appendNew
    by_cases h : i ∈ out
    · rw [if_pos h]
      constructor
      · exact Or.inl
      · rintro (h' | rfl)
        · exact h'
        · exact h
    · rw [if_neg h, List.mem_append, List.mem_singleton]

theorem append_once_str (out : List Str) (identifier : Str) :
    append_once out (.str identifier) = .ok (appendNew out identifier) := rfl

theorem collect_path (p : Path) (frames : Nat) (out : List Str) :
    collect_evidence_ids (frames + 1) out p.node =
      .ok (p.evidenceIds.foldl appendNew out) := by
  unfold collect_evidence_ids Path.node Path.evidenceIds
  cases hr : p.root <;> simp [Root.text, iterate, Path.segments, Segment.node, append_once_str]

theorem collect_operand (o : Operand) (frames : Nat) (out : List Str) :
    collect_evidence_ids (frames + 1) out o.node =
      .ok (o.evidenceIds.foldl appendNew out) := by
  cases o with
  | literal l =>
    unfold collect_evidence_ids Operand.node literal_node Operand.evidenceIds
    simp
  | path p => exact collect_path p frames out

theorem collect_all {es : List Expr} {frames : Nat}
    (ih : ∀ e ∈ es, ∀ out, collect_evidence_ids frames out e.node =
      .ok (e.evidenceIds.foldl appendNew out)) (out : List Str) :
    (Expr.nodes es).foldlM (collect_evidence_ids frames) out =
      .ok ((Expr.allEvidenceIds es).foldl appendNew out) := by
  induction es generalizing out with
  | nil => rfl
  | cons e rest ihr =>
    rw [Expr.nodes, Expr.allEvidenceIds, List.foldlM_cons, ih e (by simp), ok_bind,
      ihr (fun f hf => ih f (by simp [hf])), List.foldl_append]

/-- The walk over a tree collects the evidence ids of the tree. -/
theorem collect_node (e : Expr) : ∀ (frames : Nat) (out : List Str), e.height ≤ frames →
    collect_evidence_ids frames out e.node = .ok (e.evidenceIds.foldl appendNew out) := by
  have hpos : ∀ (e : Expr) (frames : Nat), e.height ≤ frames → ∃ n, frames = n + 1 := by
    intro e frames h
    refine Nat.exists_eq_succ_of_ne_zero ?_
    cases e <;> simp only [Expr.height] at h <;> omega
  induction e with
  | or es ih =>
    intro frames out h
    obtain ⟨n, rfl⟩ := hpos _ _ h
    rw [Expr.height, Nat.add_le_add_iff_right, Expr.heights_le] at h
    have := collect_all (fun e he out => ih e he n out (h e he)) out
    unfold collect_evidence_ids
    simpa [Expr.node, iterate, Expr.evidenceIds] using this
  | and es ih =>
    intro frames out h
    obtain ⟨n, rfl⟩ := hpos _ _ h
    rw [Expr.height, Nat.add_le_add_iff_right, Expr.heights_le] at h
    have := collect_all (fun e he out => ih e he n out (h e he)) out
    unfold collect_evidence_ids
    simpa [Expr.node, iterate, Expr.evidenceIds] using this
  | not e ih =>
    intro frames out h
    obtain ⟨n, rfl⟩ := hpos _ _ h
    rw [Expr.height, Nat.add_le_add_iff_right] at h
    unfold collect_evidence_ids
    simp [Expr.node, Expr.evidenceIds, ih n out h]
  | compare operator l r =>
    intro frames out h
    obtain ⟨n, rfl⟩ : ∃ n, frames = n + 2 := Nat.exists_eq_add_of_le' h
    unfold collect_evidence_ids
    simp [Expr.node, Expr.evidenceIds, collect_operand]
  | membership negated o members =>
    intro frames out h
    obtain ⟨n, rfl⟩ : ∃ n, frames = n + 2 := Nat.exists_eq_add_of_le' h
    unfold collect_evidence_ids
    simp [Expr.node, Expr.evidenceIds, collect_operand]
  | fresh id =>
    intro frames out h
    obtain ⟨n, rfl⟩ := hpos _ _ h
    unfold collect_evidence_ids
    simp [Expr.node, Expr.evidenceIds, append_once_str]
  | present id =>
    intro frames out h
    obtain ⟨n, rfl⟩ := hpos _ _ h
    unfold collect_evidence_ids
    simp [Expr.node, Expr.evidenceIds, append_once_str]
  | matchesGlob p pattern =>
    intro frames out h
    obtain ⟨n, rfl⟩ : ∃ n, frames = n + 2 := Nat.exists_eq_add_of_le' h
    unfold collect_evidence_ids
    simp [Expr.node, Expr.evidenceIds, collect_path]

/-! ## Distinct keys -/

theorem distinctKeys_literal (l : Literal) : l.value.DistinctKeys ∧ l.value.normalize = l.value := by
  refine @Literal.rec (fun l => l.value.DistinctKeys ∧ l.value.normalize = l.value)
    (fun ls => ∀ v ∈ Literal.values ls, v.DistinctKeys ∧ v.normalize = v) ?_ ?_ ?_ ?_ ?_ ?_ l
  · exact fun b => ⟨.bool b, Value.normalize_bool b⟩
  · exact fun i => ⟨.int i, Value.normalize_int i⟩
  · exact fun s => ⟨.str s, Value.normalize_str s⟩
  · intro ls ih
    refine ⟨.list fun v hv => (ih v hv).1, ?_⟩
    rw [Literal.value, Value.normalize_list]
    exact congrArg Value.list ((List.map_congr_left fun v hv => (ih v hv).2).trans (List.map_id _))
  · simp [Literal.values]
  · intro l ls hl hls v hv
    rcases List.mem_cons.mp hv with rfl | hv
    · exact hl
    · exact hls v hv

theorem distinctKeys_path (p : Path) : p.node.DistinctKeys := by
  have hsegment : ∀ segment : Segment, segment.node.DistinctKeys := by
    intro segment
    cases segment <;> simp [Segment.node, Distinct]
  simp [Path.node, Distinct, hsegment]

theorem distinctKeys_literal_node {v : Value} (h : v.DistinctKeys) :
    (literal_node v).DistinctKeys := by
  simp [literal_node, Distinct, h]

theorem distinctKeys_operand (o : Operand) : o.node.DistinctKeys := by
  cases o with
  | literal l => exact distinctKeys_literal_node (distinctKeys_literal l).1
  | path p => exact distinctKeys_path p

theorem distinctKeys_node (e : Expr) : e.node.DistinctKeys := by
  induction e with
  | or es ih => simpa [Expr.node, Expr.nodes_eq, Distinct] using ih
  | and es ih => simpa [Expr.node, Expr.nodes_eq, Distinct] using ih
  | not e ih => simpa [Expr.node, Distinct] using ih
  | compare operator l r => simp [Expr.node, Distinct, distinctKeys_operand]
  | membership negated o members =>
    have hmembers := distinctKeys_literal_node (distinctKeys_literal (.list members)).1
    rw [Literal.value] at hmembers
    simp [Expr.node, Distinct, distinctKeys_operand, hmembers]
  | fresh id => simp [Expr.node, Distinct]
  | present id => simp [Expr.node, Distinct]
  | matchesGlob p pattern => simp [Expr.node, Distinct, distinctKeys_path]

end vfy.expr
