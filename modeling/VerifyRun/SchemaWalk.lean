-- The walk of validation: which calls of `_validate_node` a call makes, which
-- nodes of a registry they reach, and when the recursion comes to an end. The
-- depth counter grows with the value only; a reference leaves it as it is.
import VerifyRun.SchemaRegistry
import VerifyRun.Schemas

namespace vfy.schema

open python keys outcomes

/-! ## Calls -/

/-- A call of `_validate_node`, but for the path of the schema. -/
structure Call where
  value : Value
  node : Value
  identifier : Str
  instance_path : Str
  depth : Nat

/-- The call for a child of the value. -/
def Call.child (c : Call) (value node : Value) (instance_path : Str) : Call :=
  { c with value, node, instance_path, depth := c.depth + 1 }

/-- The calls that a call can make itself. -/
inductive Calls (registry : Registry) (c : Call) : Call → Prop where
  | reference {reference target : Value} {id : Str} (hd : c.depth ≤ MAX_DEPTH)
      (href : refOf c.node = .ok (some reference))
      (hr : resolve reference c.identifier registry = .ok (target, id)) :
      Calls registry c { c with node := target, identifier := id }
  | declared {members properties : List (Str × Value)} {m : Str × Value} {schema : Value}
      (hd : c.depth ≤ MAX_DEPTH) (href : refOf c.node = .ok none) (hv : c.value = .dict members)
      (hp : propertiesOf c.node = some properties) (hm : m ∈ members)
      (hs : properties.lookup m.1 = some schema) :
      Calls registry c (c.child m.2 schema (member c.instance_path m.1))
  | undeclared {members additional : List (Str × Value)} {m : Str × Value}
      (hd : c.depth ≤ MAX_DEPTH) (href : refOf c.node = .ok none) (hv : c.value = .dict members)
      (hm : m ∈ members) (hs : isDeclared c.node m.1 = .ok false)
      (ha : c.node.get? "additionalProperties" = some (.dict additional)) :
      Calls registry c (c.child m.2 (.dict additional) (member c.instance_path m.1))
  | item {items : List Value} {item : Value × Nat} {schema : List (Str × Value)}
      (hd : c.depth ≤ MAX_DEPTH) (href : refOf c.node = .ok none) (hv : c.value = .list items)
      (hm : item ∈ items.zipIdx) (hs : c.node.get? "items" = some (.dict schema)) :
      Calls registry c (c.child item.1 (.dict schema) (indexed c.instance_path item.2))

/-- The calls that a call can make itself, in a list. -/
def Call.callees (registry : Registry) (c : Call) : List Call :=
  match refOf c.node with
  | .ok (some reference) =>
    match resolve reference c.identifier registry with
    | .ok (target, id) => [{ c with node := target, identifier := id }]
    | .error _ => []
  | .ok none =>
    match c.value with
    | .dict members => members.filterMap fun m =>
      match isDeclared c.node m.1, c.node.get? "additionalProperties" with
      | .ok true, _ => ((propertiesOf c.node).bind fun properties => properties.lookup m.1).map
          fun schema => c.child m.2 schema (member c.instance_path m.1)
      | .ok false, some (.dict additional) =>
        some (c.child m.2 (.dict additional) (member c.instance_path m.1))
      | _, _ => none
    | .list items =>
      match c.node.get? "items" with
      | some (.dict schema) => items.zipIdx.map fun item =>
        c.child item.1 (.dict schema) (indexed c.instance_path item.2)
      | _ => []
    | _ => []
  | .error _ => []

theorem Calls.mem_callees {registry : Registry} {c d : Call} (h : Calls registry c d) :
    d ∈ c.callees registry := by
  cases h with
  | reference _ href hr => simp [Call.callees, href, hr]
  | @declared _ _ m _ _ href hv hp hm hs =>
    simp only [Call.callees, href, hv, List.mem_filterMap]
    exact ⟨m, hm, by simp [isDeclared_eq hp, hp, hs]⟩
  | @undeclared _ _ m _ href hv hm hs ha =>
    simp only [Call.callees, href, hv, List.mem_filterMap]
    exact ⟨m, hm, by rw [hs, ha]⟩
  | @item _ item _ _ href hv hm hs =>
    simp only [Call.callees, href, hv, hs, List.mem_map]
    exact ⟨item, hm, rfl⟩

/-- The recursion from a call is well founded. -/
def Founded (registry : Registry) (c : Call) : Prop := Acc (fun d c => Calls registry c d) c

/-- On every stack that is deep enough the call returns, or raises something
else than that the stack is full. -/
def Terminates [re.Engine] (registry : Registry) (code : Code) (c : Call) : Prop :=
  ∃ n, ∀ frames ≥ n, ∀ schema_path,
    validate_node registry code c.identifier frames c.value c.node c.instance_path schema_path
      c.depth ≠ .error .recursion_error

/-! ## A full stack is only raised by a call -/

/-- The check does not find the stack full. -/
def Fits (check : Except Exn Unit) : Prop := check ≠ .error .recursion_error

theorem fits_pure : Fits (pure ()) := fun h => by cases h

theorem fits_error {e : Exn} (h : e ≠ .recursion_error) : Fits (.error e) := fun he => by
  cases he
  exact h rfl

theorem fits_raiseIf {p : Prop} [Decidable p] {e : Exn} (h : e ≠ .recursion_error) :
    Fits (raiseIf p e) := fun he => h (raiseIf_eq_error.mp he).2

theorem fits_seq {α : Type} {x : Except Exn α} {f : α → Except Exn Unit}
    (hx : x ≠ .error .recursion_error) (hf : ∀ a, x = .ok a → Fits (f a)) : Fits (x >>= f) := by
  intro h
  rcases bind_eq_error.mp h with h | ⟨a, ha, h⟩
  · exact hx h
  · exact hf a ha h

theorem fits_forM {α : Type} {f : α → Except Exn Unit} {l : List α} (h : ∀ a ∈ l, Fits (f a)) :
    Fits (forM l f) := by
  induction l with
  | nil => exact fits_pure
  | cons a l ih =>
    rw [List.forM_cons]
    exact fits_seq (h a (by simp)) fun _ _ => ih fun b hb => h b (by simp [hb])

theorem iterate_ne {v : Value} : iterate v ≠ .error .recursion_error := by
  cases v <;> simp [iterate]

theorem string_ne {v : Value} : string v ≠ .error .recursion_error := by
  cases v <;> simp [string]

theorem number_ne {v : Value} : number v ≠ .error .recursion_error := by
  cases v <;> simp [number]

theorem isDeclared_ne {v : Value} {name : Str} : isDeclared v name ≠ .error .recursion_error := by
  unfold isDeclared
  split <;> simp

theorem getItem_ne {v : Value} {key : Str} : getItem v key ≠ .error .recursion_error := by
  cases v with
  | dict members => rw [getItem_dict]; split <;> simp
  | _ => simp [getItem]

theorem refOf_ne {v : Value} : refOf v ≠ .error .recursion_error := by
  unfold refOf
  split
  · simp
  · split <;> simp
  · split <;> simp
  · simp

theorem resolve_ne {reference : Value} {identifier : Str} {registry : Registry} :
    resolve reference identifier registry ≠ .error .recursion_error := by
  have hsteps : ∀ (text : Str) (steps : List Str) (node : Value),
      steps.foldlM (resolve_step text) node ≠ .error .recursion_error := by
    intro text steps
    induction steps with
    | nil => exact fun _ => pure_ne_error
    | cons step steps ih =>
      intro node h
      rw [List.foldlM_cons] at h
      rcases bind_eq_error.mp h with h | ⟨next, _, h⟩
      · unfold resolve_step at h
        dsimp only at h
        split at h
        · cases h
        · cases h
      · exact ih next h
  intro h
  unfold resolve at h
  split at h
  · split at h
    · cases h
    · dsimp only at h
      split at h
      · cases h
      · split at h
        · cases h
        · split at h
          · cases h
          · rcases bind_eq_error.mp h with h | ⟨_, _, h⟩
            · exact hsteps _ _ _ h
            · cases h
  · cases h

section

variable {spot : Spot} {child : Child}

theorem fits_least {size : Int} {schema : Value} {message keyword : Str} :
    Fits (check_least spot size schema message keyword) := by
  unfold check_least
  split
  · exact fits_pure
  · exact fits_seq number_ne fun _ _ => fits_raiseIf (by simp [Spot.failure])

theorem fits_object {value schema : Value}
    (hdeclared : ∀ members properties m s, value = .dict members →
      propertiesOf schema = some properties → m ∈ members → properties.lookup m.1 = some s →
      ∀ sp, Fits (child m.2 s (member spot.instance_path m.1) sp))
    (hundeclared : ∀ members m additional, value = .dict members → m ∈ members →
      isDeclared schema m.1 = .ok false →
      schema.get? "additionalProperties" = some (.dict additional) →
      ∀ sp, Fits (child m.2 (.dict additional) (member spot.instance_path m.1) sp)) :
    Fits (validate_object spot child value schema) := by
  unfold validate_object
  split
  · rename_i members
    refine fits_seq (fits_seq iterate_ne fun _ _ => fits_forM fun name _ => ?_) fun _ _ => ?_
    · exact fits_seq string_ne fun _ _ => fits_raiseIf (by simp [Spot.memberFailure])
    refine fits_seq (fits_forM fun m hm => ?_) fun _ _ => ?_
    · refine fits_seq isDeclared_ne fun declared _ => ?_
      split
      · refine fits_seq getItem_ne fun s hs => ?_
        obtain ⟨properties, hp, hlookup⟩ := getItem_properties_iff.mp hs
        exact hdeclared members properties m s rfl hp (mem_sortByKey.mp hm) hlookup _
      · exact fits_pure
    unfold check_undeclared
    split
    · exact fits_forM fun m _ => fits_seq isDeclared_ne fun _ _ =>
        fits_raiseIf (by simp [Spot.memberFailure])
    · refine fits_forM fun m hm => fits_seq isDeclared_ne fun declared hs => ?_
      split
      · rename_i hdeclared
        rw [Bool.eq_false_iff.mpr hdeclared] at hs
        exact hundeclared members m _ rfl (mem_sortByKey.mp hm) hs ‹_› _
      · exact fits_pure
    · exact fits_pure
  · exact fits_pure

theorem fits_node [re.Engine] {value schema : Value}
    (hdeclared : ∀ members properties m s, value = .dict members →
      propertiesOf schema = some properties → m ∈ members → properties.lookup m.1 = some s →
      ∀ sp, Fits (child m.2 s (member spot.instance_path m.1) sp))
    (hundeclared : ∀ members m additional, value = .dict members → m ∈ members →
      isDeclared schema m.1 = .ok false →
      schema.get? "additionalProperties" = some (.dict additional) →
      ∀ sp, Fits (child m.2 (.dict additional) (member spot.instance_path m.1) sp))
    (hitem : ∀ items item s, value = .list items → item ∈ items.zipIdx →
      schema.get? "items" = some (.dict s) →
      ∀ sp, Fits (child item.1 (.dict s) (indexed spot.instance_path item.2) sp)) :
    Fits (check_node spot child value schema) := by
  unfold check_node
  refine fits_seq ?_ fun _ _ => fits_seq (fits_object hdeclared hundeclared) fun _ _ =>
    fits_seq ?_ fun _ _ => fits_seq ?_ fun _ _ => fits_seq ?_ fun _ _ => fits_seq ?_ fun _ _ => ?_
  · unfold check_type
    split
    · exact fits_pure
    · exact fits_pure
    · exact fits_raiseIf (by simp [Spot.failure])
    · exact fits_error (by simp [Spot.failure])
  · unfold check_enum
    split
    · exact fits_pure
    · exact fits_seq iterate_ne fun _ _ => fits_raiseIf (by simp [Spot.failure])
  · unfold check_const
    split
    · exact fits_pure
    · exact fits_raiseIf (by simp [Spot.failure])
  · unfold check_array
    split
    · refine fits_seq fits_least fun _ _ => ?_
      split
      · exact fits_forM fun item hm => hitem _ item _ rfl hm ‹_› _
      · exact fits_pure
    · exact fits_pure
  · unfold check_string
    split
    · refine fits_seq fits_least fun _ _ => fits_seq ?_ fun _ _ => ?_
      · unfold check_pattern
        split
        · exact fits_pure
        · refine fits_seq string_ne fun _ _ => ?_
          split
          · exact fits_pure
          · exact fits_error (by simp [Spot.failure])
          · exact fits_error (by simp)
      · unfold check_format
        split
        · exact fits_raiseIf (by simp [Spot.failure])
        · exact fits_pure
    · exact fits_pure
  · unfold check_integer
    split
    · exact fits_least
    · exact fits_pure

end

/-! ## Founded calls terminate -/

/-- So many frames are enough for each member of a list. -/
theorem exists_frames {α : Type} {P : α → Nat → Prop} {l : List α}
    (h : ∀ a ∈ l, ∃ n, ∀ k ≥ n, P a k) : ∃ n, ∀ a ∈ l, ∀ k ≥ n, P a k := by
  induction l with
  | nil => exact ⟨0, by simp⟩
  | cons a l ih =>
    obtain ⟨n, hn⟩ := h a (by simp)
    obtain ⟨m, hm⟩ := ih fun b hb => h b (by simp [hb])
    refine ⟨max n m, ?_⟩
    rintro b hb k hk
    rcases List.mem_cons.mp hb with rfl | hb
    · exact hn k (by omega)
    · exact hm b hb k (by omega)

/-- A call whose recursion is well founded terminates. -/
theorem Founded.terminates [re.Engine] {registry : Registry} (code : Code) {c : Call}
    (h : Founded registry c) : Terminates registry code c := by
  induction h with
  | intro c _ ih =>
    -- one bound for all the calls: the reference, the members or the items
    have hcalls : ∃ n, ∀ d, Calls registry c d → ∀ frames ≥ n, ∀ sp,
        Fits (validate_node registry code d.identifier frames d.value d.node d.instance_path sp
          d.depth) := by
      have hone : ∀ d ∈ c.callees registry, ∃ n, ∀ frames ≥ n, Calls registry c d → ∀ sp,
          Fits (validate_node registry code d.identifier frames d.value d.node d.instance_path sp
            d.depth) := by
        intro d _
        by_cases hd : Calls registry c d
        · obtain ⟨n, hn⟩ := ih d hd
          exact ⟨n, fun frames hframes _ => hn frames hframes⟩
        · exact ⟨0, fun _ _ h => absurd h hd⟩
      obtain ⟨n, hn⟩ := exists_frames hone
      exact ⟨n, fun d hd frames hframes => hn d hd.mem_callees frames hframes hd⟩
    obtain ⟨n, hn⟩ := hcalls
    refine ⟨n + 1, ?_⟩
    intro frames hframes sp
    obtain ⟨frames, rfl⟩ : ∃ k, frames = k + 1 := ⟨frames - 1, by omega⟩
    have hle : frames ≥ n := by omega
    rw [validate_node]
    refine fits_seq (fits_raiseIf (by simp)) fun _ hdepth => ?_
    rw [raiseIf_eq_ok, not_lt] at hdepth
    refine fits_seq refOf_ne fun reference href => ?_
    cases reference with
    | some reference =>
      refine fits_seq resolve_ne fun target hr => fits_seq string_ne fun text _ => ?_
      exact hn _ (.reference hdepth href hr) frames hle _
    | none =>
      refine fits_node ?_ ?_ ?_
      · intro members properties m s hv hp hm hs sp
        exact hn _ (.declared hdepth href hv hp hm hs) frames hle sp
      · intro members m additional hv hm hs ha sp
        exact hn _ (.undeclared hdepth href hv hm hs ha) frames hle sp
      · intro items item s hv hm hs sp
        exact hn _ (.item hdepth href hv hm hs) frames hle sp

/-! ## Chains of references -/

/-- The node, and its document, that the reference of a node names. -/
def next (registry : Registry) (node : Value × Str) : Option (Value × Str) :=
  match refOf node.1 with
  | .ok (some reference) =>
    match resolve reference node.2 registry with
    | .ok target => some target
    | .error _ => none
  | _ => none

/-- The node after so many references. -/
def follow (registry : Registry) : Nat → Value × Str → Option (Value × Str)
  | 0, node => some node
  | n + 1, node => (next registry node).bind (follow registry n)

/-- The chain of references from a node comes to an end. -/
def ChainEnds (registry : Registry) (node : Value × Str) : Prop :=
  ∃ n, follow registry n node = none

/-- A node of a document, and how deep in a value it is met. -/
structure Site where
  node : Value
  identifier : Str
  depth : Nat

/-- The walk leads from one site to another, for some value. -/
inductive Leads (registry : Registry) (s : Site) : Site → Prop where
  | reference {reference target : Value} {id : Str} (hd : s.depth ≤ MAX_DEPTH)
      (href : refOf s.node = .ok (some reference))
      (hr : resolve reference s.identifier registry = .ok (target, id)) :
      Leads registry s { s with node := target, identifier := id }
  | property {properties : List (Str × Value)} {name : Str} {schema : Value}
      (hd : s.depth ≤ MAX_DEPTH) (href : refOf s.node = .ok none)
      (hp : propertiesOf s.node = some properties) (hs : properties.lookup name = some schema)
      (hname : Encodable name) :
      Leads registry s { s with node := schema, depth := s.depth + 1 }
  | additional {additional : List (Str × Value)} {name : Str} (hd : s.depth ≤ MAX_DEPTH)
      (href : refOf s.node = .ok none) (hs : isDeclared s.node name = .ok false)
      (hname : Encodable name)
      (ha : s.node.get? "additionalProperties" = some (.dict additional)) :
      Leads registry s { s with node := .dict additional, depth := s.depth + 1 }
  | items {schema : List (Str × Value)} (hd : s.depth ≤ MAX_DEPTH)
      (href : refOf s.node = .ok none) (hs : s.node.get? "items" = some (.dict schema)) :
      Leads registry s { s with node := .dict schema, depth := s.depth + 1 }

/-- The site that validation of a value against a document can come to. -/
def Reaches (registry : Registry) (document : Value) (id : Str) (s : Site) : Prop :=
  Relation.ReflTransGen (Leads registry) ⟨document, id, 0⟩ s ∧ s.depth ≤ MAX_DEPTH

/-- The call that meets a value at a site. -/
def Site.call (s : Site) (value : Value) (instance_path : Str) : Call :=
  { s with value, instance_path }

theorem next_eq_some {registry : Registry} {node target : Value} {identifier id : Str} :
    next registry (node, identifier) = some (target, id) ↔ ∃ reference,
      refOf node = .ok (some reference) ∧ resolve reference identifier registry = .ok (target, id) := by
  unfold next
  constructor
  · intro h
    split at h
    · rename_i reference href
      split at h
      · rename_i found hr
        cases h
        exact ⟨reference, href, hr⟩
      · cases h
    · cases h
  · rintro ⟨reference, href, hr⟩
    simp only [href, hr]

/-- Where the recursion is well founded, the chain of references ends. -/
theorem Founded.chainEnds {registry : Registry} {c : Call} (h : Founded registry c)
    (hd : c.depth ≤ MAX_DEPTH) : ChainEnds registry (c.node, c.identifier) := by
  induction h with
  | intro c _ ih =>
    cases hnext : next registry (c.node, c.identifier) with
    | none => exact ⟨1, by rw [follow, hnext]; rfl⟩
    | some target =>
      obtain ⟨reference, href, hr⟩ := next_eq_some.mp hnext
      obtain ⟨n, hn⟩ := ih _ (.reference hd href hr) hd
      exact ⟨n + 1, by rw [follow, hnext]; exact hn⟩

/-- A value drives the walk to where the site leads. -/
theorem Leads.call {registry : Registry} {s t : Site} (h : Leads registry s t) {v : Value}
    (hv : v.Canonical) : ∃ w : Value, w.Canonical ∧
      ∀ path, ∃ path', Calls registry (s.call w path) (t.call v path') := by
  cases h with
  | reference hd href hr => exact ⟨v, hv, fun path => ⟨path, .reference hd href hr⟩⟩
  | @property properties name schema hd href hp hs hname =>
    refine ⟨.dict [(name, v)], .dict (by simp [Distinct]) ?_ ?_, fun path => ⟨member path name, ?_⟩⟩
    · simpa using hname
    · simpa using hv
    · exact .declared (c := s.call (.dict [(name, v)]) path) hd href rfl hp
        (List.mem_singleton_self (name, v)) hs
  | @additional additional name hd href hs hname ha =>
    refine ⟨.dict [(name, v)], .dict (by simp [Distinct]) ?_ ?_, fun path => ⟨member path name, ?_⟩⟩
    · simpa using hname
    · simpa using hv
    · exact .undeclared (c := s.call (.dict [(name, v)]) path) hd href rfl
        (List.mem_singleton_self (name, v)) hs ha
  | @items schema hd href hs =>
    refine ⟨.list [v], .list (by simpa using hv), fun path => ⟨indexed path 0, ?_⟩⟩
    have hmem : (v, 0) ∈ [v].zipIdx := by simp
    exact .item (c := s.call (.list [v]) path) hd href rfl hmem hs

/-- The chain of references ends at every site that the walk leads to. -/
def ChainsEnd (registry : Registry) (s : Site) : Prop :=
  ∀ t, Relation.ReflTransGen (Leads registry) s t → t.depth ≤ MAX_DEPTH →
    ChainEnds registry (t.node, t.identifier)

theorem ChainsEnd.lead {registry : Registry} {s t : Site} (h : ChainsEnd registry s)
    (hlead : Leads registry s t) : ChainsEnd registry t :=
  fun u hu => h u (.head hlead hu)

/-- A value is walked to the end when its children are: between them, the chain
gets shorter. -/
theorem founded_of_children {registry : Registry} {v : Value}
    (hchildren : ∀ (s : Site) (path : Str) (d : Call), ChainsEnd registry s →
      refOf s.node = .ok none → Calls registry (s.call v path) d → Founded registry d)
    {s : Site} (hs : ChainsEnd registry s) (path : Str) : Founded registry (s.call v path) := by
  have hchain : ∀ (n : Nat) (s : Site) (path : Str), ChainsEnd registry s →
      follow registry n (s.node, s.identifier) = none → Founded registry (s.call v path) := by
    intro n
    induction n with
    | zero =>
      intro s path _ h
      cases h
    | succ n ih =>
      intro s path hs h
      refine Acc.intro _ fun d hd => ?_
      by_cases hplain : refOf s.node = .ok none
      · exact hchildren s path d hs hplain hd
      · cases hd with
        | @reference reference target id hdepth href hr =>
          have hnext : next registry (s.node, s.identifier) = some (target, id) :=
            next_eq_some.mpr ⟨reference, href, hr⟩
          rw [follow, hnext] at h
          exact ih { s with node := target, identifier := id } path
            (hs.lead (.reference hdepth href hr)) h
        | declared _ href => exact absurd href hplain
        | undeclared _ href => exact absurd href hplain
        | item _ href => exact absurd href hplain
  by_cases hdepth : s.depth ≤ MAX_DEPTH
  · obtain ⟨n, hn⟩ := hs s .refl hdepth
    exact hchain n s path hs hn
  · refine Acc.intro _ fun d hd => ?_
    cases hd with
    | reference hd => exact absurd hd hdepth
    | declared hd => exact absurd hd hdepth
    | undeclared hd => exact absurd hd hdepth
    | item hd => exact absurd hd hdepth

theorem founded_of_chains {registry : Registry} {v : Value} (hv : v.Canonical) :
    ∀ {s : Site}, ChainsEnd registry s → ∀ path, Founded registry (s.call v path) := by
  induction hv with
  | @list items _ ih =>
    intro s hs path
    refine founded_of_children (fun s path d hs hplain hd => ?_) hs path
    cases hd with
    | reference _ href =>
      rw [show refOf s.node = _ from href] at hplain
      cases hplain
    | declared _ _ hv => cases hv
    | undeclared _ _ hv => cases hv
    | @item _ item schema hdepth href hv hm hi =>
      cases hv
      exact ih item.1 (List.fst_mem_of_mem_zipIdx hm) (hs.lead (.items hdepth href hi)) _
  | @dict members _ hk _ ih =>
    intro s hs path
    refine founded_of_children (fun s path d hs hplain hd => ?_) hs path
    cases hd with
    | reference _ href =>
      rw [show refOf s.node = _ from href] at hplain
      cases hplain
    | @declared _ properties m schema hdepth href hv hp hm hl =>
      cases hv
      exact ih m hm (hs.lead (.property hdepth href hp hl (hk m hm))) _
    | @undeclared _ additional m hdepth href hv hm hn ha =>
      cases hv
      exact ih m hm (hs.lead (.additional hdepth href hn (hk m hm) ha)) _
    | item _ _ hv => cases hv
  | _ =>
    intro s hs path
    refine founded_of_children (fun s path d hs hplain hd => ?_) hs path
    cases hd with
    | reference _ href =>
      rw [show refOf s.node = _ from href] at hplain
      cases hplain
    | declared _ _ hv => cases hv
    | undeclared _ _ hv => cases hv
    | item _ _ hv => cases hv

/-- Where the recursion is well founded for every value, it is so at every site. -/
theorem founded_at {registry : Registry} {s t : Site}
    (h : ∀ v : Value, v.Canonical → ∃ path, Founded registry (s.call v path))
    (hst : Relation.ReflTransGen (Leads registry) s t) :
    ∀ v : Value, v.Canonical → ∃ path, Founded registry (t.call v path) := by
  induction hst with
  | refl => exact h
  | tail _ hlead ih =>
    intro v hv
    -- a value that drives the walk there from the site before it
    obtain ⟨w, hw, hcall⟩ := hlead.call hv
    obtain ⟨path, hfounded⟩ := ih w hw
    obtain ⟨path', hcalls⟩ := hcall path
    exact ⟨path', hfounded.inv hcalls⟩

/-! ## Validation -/

/-- `validate`, on a stack of so many frames. -/
def validate_on [re.Engine] (frames : Nat) (value : Value) (schema_id : Str) (registry : Registry) :
    Except Exn Unit :=
  match registry.lookup schema_id with
  | none => .error (registryFailure (lit "No schema in the registry with $id " ++ schema_id))
  | some document =>
    match CODE_BY_ID.lookup schema_id with
    | none => .error (registryFailure (lit "No reason code is declared for schema " ++ schema_id))
    | some code => validate_node registry code schema_id frames value document "$" "$" 0

/-- Validation of every value comes to an end, by a recursion that is well
founded, exactly when every chain of references that the walk can meet ends. -/
theorem validation_terminates_iff [re.Engine] (registry : Registry) :
    (∀ (id : Str) (v : Value), v.Canonical →
      (∃ n, ∀ frames ≥ n, validate_on frames v id registry ≠ .error .recursion_error) ∧
      ∀ document code, registry.lookup id = some document → CODE_BY_ID.lookup id = some code →
        Founded registry ⟨v, document, id, "$", 0⟩) ↔
    ∀ (id : Str) (document : Value) (code : Code), registry.lookup id = some document →
      CODE_BY_ID.lookup id = some code →
      ∀ s, Reaches registry document id s → ChainEnds registry (s.node, s.identifier) := by
  constructor
  · rintro h id document code hdocument hcode s ⟨hreach, hdepth⟩
    have hstart : ∀ v : Value, v.Canonical →
        ∃ path, Founded registry (Site.call ⟨document, id, 0⟩ v path) :=
      fun v hv => ⟨"$", (h id v hv).2 document code hdocument hcode⟩
    obtain ⟨path, hfounded⟩ := founded_at hstart hreach .null .null
    exact hfounded.chainEnds hdepth
  · intro h id v hv
    have hfounded : ∀ document code, registry.lookup id = some document →
        CODE_BY_ID.lookup id = some code → Founded registry ⟨v, document, id, "$", 0⟩ := by
      intro document code hdocument hcode
      have hchains : ChainsEnd registry ⟨document, id, 0⟩ :=
        fun t ht hdepth => h id document code hdocument hcode t ⟨ht, hdepth⟩
      exact founded_of_chains hv hchains "$"
    refine ⟨?_, hfounded⟩
    unfold validate_on
    cases hdocument : registry.lookup id with
    | none => exact ⟨0, fun _ _ => by simp [registryFailure, fail]⟩
    | some document =>
      cases hcode : CODE_BY_ID.lookup id with
      | none => exact ⟨0, fun _ _ => by simp [registryFailure, fail]⟩
      | some code =>
        obtain ⟨n, hn⟩ := (hfounded document code hdocument hcode).terminates code
        exact ⟨n, fun frames hframes => hn frames hframes "$"⟩

/-! ## A reference to itself -/

/-- The document of the candidate schema, which is a reference to itself. -/
def loopKeywords : List (Str × Value) :=
  [(lit "$id", .str CANDIDATE_SCHEMA_ID), (lit "$ref", .str (lit "#"))]

def loopRegistry : Registry := [(CANDIDATE_SCHEMA_ID, .dict loopKeywords)]

theorem resolve_root {identifier : Str} {registry : Registry} {document : Value}
    (h : registry.lookup identifier = some document) :
    resolve (.str (lit "#")) identifier registry = .ok (document, identifier) := by
  have hsplit : partition (lit "#") (.scalar '#') = ([], []) := by decide
  have hne : lit "#" ≠ [] := by decide
  simp only [resolve, hne, hsplit, if_true, if_false, h]
  rfl

theorem lookup_loop : loopRegistry.lookup CANDIDATE_SCHEMA_ID = some (.dict loopKeywords) :=
  List.lookup_cons_self

/-- A document of the candidate schema is a registry when its keywords pass. -/
theorem build_candidate {keywords : List (Str × Value)}
    (hid : keywords.lookup (lit "$id") = some (.str CANDIDATE_SCHEMA_ID))
    (h : Checked (fun _ => []) [(CANDIDATE_SCHEMA_ID, .dict keywords)] CANDIDATE_SCHEMA_ID keywords) :
    build_registry (fun _ => []) [.dict keywords] =
      .ok [(CANDIDATE_SCHEMA_ID, .dict keywords)] := by
  have hcons : CANDIDATE_SCHEMA_ID = .scalar 'h' :: CANDIDATE_SCHEMA_ID.drop 1 := by
    decide +kernel
  rw [hcons] at hid h ⊢
  exact build_registry_single hid h

theorem build_loop : build_registry (fun _ => []) [.dict loopKeywords] = .ok loopRegistry := by
  refine build_candidate (by simp [loopKeywords]) ?_
  constructor
  · simp [loopKeywords, SUPPORTED, ASSERTIONS, ANNOTATIONS, STRUCTURAL]
  · simp [loopKeywords, lookup_lit_ne]
  · simp [loopKeywords, lookup_lit_ne]
  · simp [loopKeywords, lookup_lit_ne]
  · intro v hv
    have hv' : v = .str (lit "#") := by simpa [loopKeywords, lookup_lit_ne] using hv.symm
    exact ⟨_, hv' ▸ resolve_root lookup_loop⟩
  · simp [loopKeywords, lookup_lit_ne]
  · simp [loopKeywords, lookup_lit_ne]

theorem validate_loop (frames : Nat) (v : Value) :
   validate_on frames v CANDIDATE_SCHEMA_ID loopRegistry = .error .recursion_error := by
  have hcode : CODE_BY_ID.lookup CANDIDATE_SCHEMA_ID = some .candidate_schema_invalid := by
    simp [CODE_BY_ID, CANDIDATE_SCHEMA_ID]
  have hloop : ∀ ip sp, validate_node loopRegistry .candidate_schema_invalid CANDIDATE_SCHEMA_ID frames v
      (.dict loopKeywords) ip sp 0 = .error .recursion_error := by
    induction frames with
    | zero => exact fun _ _ => rfl
    | succ frames ih =>
      intro ip sp
      have href : refOf (.dict loopKeywords) = .ok (some (.str (lit "#"))) := by
        simp [refOf, loopKeywords, lookup_lit_ne]
      rw [validate_node, raiseIf_neg (by decide), href]
      simp only [ok_bind, resolve_root lookup_loop, string]
      exact ih _ _
  simp only [validate_on, lookup_loop, hcode]
  exact hloop _ _

/-- The registry check follows no chain of references: a document that refers
to itself is accepted, and no stack is deep enough for it. -/
theorem validation_of_a_loop_never_ends :
    build_registry (fun _ => []) [.dict loopKeywords] = .ok loopRegistry ∧
    Value.Canonical .null ∧
    ∀ frames, validate_on frames .null CANDIDATE_SCHEMA_ID loopRegistry = .error .recursion_error :=
  ⟨build_loop, .null, fun frames => validate_loop frames .null⟩

end vfy.schema
