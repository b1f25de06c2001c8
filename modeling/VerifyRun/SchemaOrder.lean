-- The insertion order of mappings: validation says the same of a value and a
-- registry whose mappings were built in another order. With that, what it says
-- is what the schema means.
import VerifyRun.SchemaMeaning

namespace vfy.schema

open python keys outcomes
open firstfailure (First Agrees Judged)

/-! ## Values that differ in their insertion order -/

/-- The two values are the same but for the insertion order of their mappings. -/
structure Alike (v w : Value) : Prop where
  left : v.DistinctKeys
  right : w.DistinctKeys
  same : Value.Same v w

/-- What is there in the one place is there in the other. -/
def AlikeAt (a b : Option Value) : Prop :=
  (a = none ∧ b = none) ∨ ∃ v w, a = some v ∧ b = some w ∧ Alike v w

/-- The two registries have the same documents, but for their insertion order. -/
def AlikeRegistries (registry registry' : Registry) : Prop :=
  ∀ id, AlikeAt (registry.lookup id) (registry'.lookup id)

theorem Alike.normalize_eq {v w : Value} (h : Alike v w) : v.normalize = w.normalize :=
  h.same.normalize_eq h.left

theorem Alike.get? {v w : Value} (h : Alike v w) (k : Str) : AlikeAt (v.get? k) (w.get? k) := by
  have hmap : (v.get? k).map Value.normalize = (w.get? k).map Value.normalize := by
    rw [← Value.get?_normalize h.left, h.normalize_eq, Value.get?_normalize h.right]
  cases hv : v.get? k with
  | none =>
    rw [hv, Option.map_none, eq_comm, Option.map_eq_none_iff] at hmap
    exact .inl ⟨rfl, hmap⟩
  | some a =>
    rw [hv, Option.map_some, eq_comm, Option.map_eq_some_iff] at hmap
    obtain ⟨b, hb, hsame⟩ := hmap
    exact .inr ⟨a, b, rfl, hb, h.left.get? hv, h.right.get? hb,
      Value.same_of_normalize_eq hsame.symm⟩

theorem Alike.get?_some {v w a : Value} {k : Str} (h : Alike v w) (hv : v.get? k = some a) :
    ∃ b, w.get? k = some b ∧ Alike a b := by
  rcases h.get? k with ⟨hnone, _⟩ | ⟨a', b, ha, hb, hab⟩
  · cases hnone.symm.trans hv
  · cases ha.symm.trans hv
    exact ⟨b, hb, hab⟩

theorem Alike.get?_none {v w : Value} {k : Str} (h : Alike v w) (hv : v.get? k = none) :
    w.get? k = none := by
  rcases h.get? k with ⟨_, hnone⟩ | ⟨a, _, ha, _⟩
  · exact hnone
  · cases ha.symm.trans hv

/-- A value with one form only. -/
def Plain (v : Value) : Prop := ∀ w, Alike v w → w = v

theorem plain_str (s : Str) : Plain (.str s) := fun w h => by
  cases h.same
  rfl

theorem plain_int (i : Int) : Plain (.int i) := fun w h => by
  cases h.same
  rfl

theorem plain_bool (b : Bool) : Plain (.bool b) := fun w h => by
  cases h.same
  rfl

theorem plain_texts (names : List Str) : Plain (.list (names.map .str)) := by
  intro w h
  cases h.same with
  | @list _ ys hs =>
    rw [List.forall₂_map_left_iff] at hs
    have hys : ys = names.map .str := by
      clear h
      induction hs with
      | nil => rfl
      | cons hs _ ih =>
        cases hs
        rw [List.map_cons, ih]
    rw [hys]

/-- A keyword whose value has one form only is the same in both nodes. -/
theorem get?_eq_of_shape {ι : Type} {form : ι → Value} (hplain : ∀ a, Plain (form a))
    {node node' : Value} {k : Str} (h : Alike node node')
    (hshape : ∀ v, node.get? k = some v → ∃ a, v = form a) : node'.get? k = node.get? k := by
  cases hk : node.get? k with
  | none => exact h.get?_none hk
  | some v =>
    obtain ⟨w, hw, hvw⟩ := h.get?_some hk
    obtain ⟨a, rfl⟩ := hshape v hk
    rw [hw, hplain a w hvw]

theorem equal_alike {v w w' : Value} (hv : v.DistinctKeys) (h : Alike w w') :
    equal v w' = equal v w := by
  rw [Bool.eq_iff_iff, equal_iff hv h.right, equal_iff hv h.left]
  constructor
  · intro hs
    exact Value.same_of_normalize_eq ((hs.normalize_eq hv).trans h.normalize_eq.symm)
  · intro hs
    exact Value.same_of_normalize_eq ((hs.normalize_eq hv).trans h.normalize_eq)

theorem alike_dict {members : List (Str × Value)} {w : Value} (h : Alike (.dict members) w) :
    ∃ members', w = .dict members' := by
  cases h.same with
  | dict => exact ⟨_, rfl⟩

theorem alike_list {items : List Value} {w : Value} (h : Alike (.list items) w) :
    ∃ items', w = .list items' ∧ List.Forall₂ Alike items items' := by
  cases h.same with
  | @list _ items' hs =>
    refine ⟨items', rfl, ?_⟩
    have hleft := Value.distinctKeys_list.mp h.left
    have hright := Value.distinctKeys_list.mp h.right
    clear h
    induction hs with
    | nil => exact .nil
    | cons hs _ ih =>
      exact .cons ⟨hleft _ (by simp), hright _ (by simp), hs⟩
        (ih (fun v hv => hleft v (by simp [hv])) fun v hv => hright v (by simp [hv]))

theorem any_equal_alike {v : Value} (hv : v.DistinctKeys) {options options' : List Value}
    (h : List.Forall₂ Alike options options') :
    options'.any (equal v) = options.any (equal v) := by
  induction h with
  | nil => rfl
  | cons h _ ih => rw [List.any_cons, List.any_cons, equal_alike hv h, ih]

/-! ## The checks of a node -/

section

variable {spot : Spot} {node node' v : Value}

theorem check_type_alike (h : Alike node node')
    (hshape : ∀ v, node.get? "type" = some v → ∃ declared, v = .str declared) :
    check_type spot v node' = check_type spot v node := by
  rw [check_type, check_type, get?_eq_of_shape plain_str h hshape]

theorem check_required_alike {members : List (Str × Value)} (h : Alike node node')
    (hshape : ∀ v, node.get? "required" = some v → ∃ names : List Str, v = .list (names.map .str)) :
    check_required spot members node' = check_required spot members node := by
  rw [check_required, check_required, get?_eq_of_shape plain_texts h hshape]

theorem check_least_alike {size : Int} {message keyword : Str} (h : Alike node node')
    (hshape : ∀ v, node.get? keyword = some v → ∃ least, v = .int least) :
    check_least spot size node' message keyword = check_least spot size node message keyword := by
  rw [check_least, check_least, get?_eq_of_shape plain_int h hshape]

theorem check_pattern_alike [re.Engine] {s : Str} (h : Alike node node')
    (hshape : ∀ v, node.get? "pattern" = some v → ∃ pattern, v = .str pattern) :
    check_pattern spot s node' = check_pattern spot s node := by
  rw [check_pattern, check_pattern, get?_eq_of_shape plain_str h hshape]

theorem check_format_alike {s : Str} (h : Alike node node')
    (hshape : ∀ v, node.get? "format" = some v → ∃ format, v = .str format) :
    check_format spot s node' = check_format spot s node := by
  rw [check_format, check_format, get?_eq_of_shape plain_str h hshape]

theorem check_enum_alike (h : Alike node node') (hv : v.DistinctKeys)
    (hshape : ∀ v, node.get? "enum" = some v → ∃ options, v = .list options) :
    check_enum spot v node' = check_enum spot v node := by
  unfold check_enum
  cases hk : node.get? "enum" with
  | none => rw [h.get?_none hk]
  | some a =>
    obtain ⟨b, hb, hab⟩ := h.get?_some hk
    obtain ⟨options, rfl⟩ := hshape a hk
    obtain ⟨options', rfl, hoptions⟩ := alike_list hab
    rw [hb]
    simp only [iterate, ok_bind, any_equal_alike hv hoptions]

theorem check_const_alike (h : Alike node node') (hv : v.DistinctKeys) :
    check_const spot v node' = check_const spot v node := by
  unfold check_const
  cases hk : node.get? "const" with
  | none => rw [h.get?_none hk]
  | some a =>
    obtain ⟨b, hb, hab⟩ := h.get?_some hk
    rw [hb]
    simp only [equal_alike hv hab]

variable {child child' : Child} {members properties properties' : List (Str × Value)}

/-- The properties of nodes that are alike. -/
theorem propertiesOf_alike (h : Alike node node') (hp : propertiesOf node = some properties) :
    ∃ properties', propertiesOf node' = some properties' ∧
      ∀ name, AlikeAt (properties.lookup name) (properties'.lookup name) := by
  unfold propertiesOf at hp ⊢
  cases hk : node.get? "properties" with
  | none =>
    rw [hk] at hp
    cases hp
    rw [h.get?_none hk]
    exact ⟨[], rfl, fun _ => .inl ⟨rfl, rfl⟩⟩
  | some a =>
    obtain ⟨b, hb, hab⟩ := h.get?_some hk
    rw [hk] at hp
    cases a with
    | dict members =>
      cases hp
      obtain ⟨members', rfl⟩ := alike_dict hab
      rw [hb]
      exact ⟨members', rfl, hab.get?⟩
    | _ => cases hp

/-- Nodes that are alike declare the same names. -/
theorem isDeclared_alike (h : Alike node node') (hp : propertiesOf node = some properties)
    (name : Str) : isDeclared node' name = isDeclared node name := by
  obtain ⟨properties', hp', hproperties⟩ := propertiesOf_alike h hp
  rw [isDeclared_eq hp, isDeclared_eq hp']
  rcases hproperties name with ⟨hs, hs'⟩ | ⟨s, s', hs, hs', _⟩
  · rw [hs, hs']
  · rw [hs, hs']
    rfl

theorem check_declared_alike (h : Alike node node') (hp : propertiesOf node = some properties)
    (ih : ∀ m ∈ members, ∀ s s', properties.lookup m.1 = some s → Alike s s' →
      ∀ sp, child' m.2 s' (member spot.instance_path m.1) sp =
        child m.2 s (member spot.instance_path m.1) sp) :
    check_declared spot child' members node' = check_declared spot child members node := by
  obtain ⟨properties', hp', hproperties⟩ := propertiesOf_alike h hp
  rw [check_declared_eq hp, check_declared_eq hp']
  refine forM_congr fun m hm => ?_
  rcases hproperties m.1 with ⟨hs, hs'⟩ | ⟨s, s', hs, hs', halike⟩
  · rw [hs, hs']
  · rw [hs, hs']
    exact ih m (mem_sortByKey.mp hm) s s' hs halike _

theorem check_undeclared_alike (h : Alike node node') (hp : propertiesOf node = some properties)
    (hshape : ∀ v, node.get? "additionalProperties" = some v →
      (∃ b, v = .bool b) ∨ ∃ schema, v = .dict schema)
    (ih : ∀ m ∈ members, ∀ additional s', isDeclared node m.1 = .ok false →
      node.get? "additionalProperties" = some (.dict additional) → Alike (.dict additional) s' →
        ∀ sp, child' m.2 s' (member spot.instance_path m.1) sp =
          child m.2 (.dict additional) (member spot.instance_path m.1) sp) :
    check_undeclared spot child' members node' = check_undeclared spot child members node := by
  unfold check_undeclared
  cases hk : node.get? "additionalProperties" with
  | none => rw [h.get?_none hk]
  | some a =>
    obtain ⟨b, hb, hab⟩ := h.get?_some hk
    rcases hshape a hk with ⟨allowed, rfl⟩ | ⟨additional, rfl⟩
    · rw [hb, plain_bool allowed b hab]
      simp only [isDeclared_alike h hp]
      cases allowed <;> rfl
    · obtain ⟨additional', rfl⟩ := alike_dict hab
      rw [hb]
      refine forM_congr fun m hm => ?_
      rw [isDeclared_alike h hp]
      cases hs : isDeclared node m.1 with
      | error e => rfl
      | ok declared =>
        cases declared with
        | true => rfl
        | false => exact ih m (mem_sortByKey.mp hm) additional _ hs hk hab _

theorem check_items_alike {items : List Value} (h : Alike node node')
    (hshape : ∀ v, node.get? "items" = some v → (∃ b, v = .bool b) ∨ ∃ schema, v = .dict schema)
    (ih : ∀ item ∈ items.zipIdx, ∀ schema s', node.get? "items" = some (.dict schema) →
      Alike (.dict schema) s' → ∀ sp, child' item.1 s' (indexed spot.instance_path item.2) sp =
        child item.1 (.dict schema) (indexed spot.instance_path item.2) sp) :
    check_items spot child' node' items = check_items spot child node items := by
  unfold check_items
  cases hk : node.get? "items" with
  | none => rw [h.get?_none hk]
  | some a =>
    obtain ⟨b, hb, hab⟩ := h.get?_some hk
    rcases hshape a hk with ⟨allowed, rfl⟩ | ⟨schema, rfl⟩
    · rw [hb, plain_bool allowed b hab]
    · obtain ⟨schema', rfl⟩ := alike_dict hab
      rw [hb]
      exact forM_congr fun item hitem => ih item hitem schema _ hk hab _

end

/-- The checks of nodes that are alike say the same, when those of the children do. -/
theorem check_node_alike [re.Engine] {repr : Value → Str} {registry : Registry} {c : Call} {spot : Spot}
    {child child' : Child} {keywords : List (Str × Value)} {node' : Value}
    (hnode : c.node = .dict keywords) (href : refOf c.node = .ok none)
    (hdepth : c.depth ≤ MAX_DEPTH) (hchecked : Checked repr registry c.identifier keywords)
    (hshaped : Shaped registry c.identifier keywords) (hv : c.value.DistinctKeys)
    (h : Alike c.node node') (hspot : spot.instance_path = c.instance_path)
    (ih : ∀ d, Calls registry c d → ∀ s', Alike d.node s' → ∀ sp,
      child' d.value s' d.instance_path sp = child d.value d.node d.instance_path sp) :
    check_node spot child' c.value node' = check_node spot child c.value c.node := by
  have hget : ∀ k, c.node.get? k = keywords.lookup k := fun k => by rw [hnode, Value.get?_dict]
  have hleast : ∀ keyword ∈ [lit "minItems", lit "minLength", lit "minimum"], ∀ v,
      c.node.get? keyword = some v → ∃ least, v = .int least :=
    fun keyword hkeyword v hk => hshaped.least keyword hkeyword v (hget _ ▸ hk)
  have hformat : ∀ v, c.node.get? "format" = some v → ∃ format, v = .str format :=
    fun v hk => ⟨_, hchecked.dateTime v (hget _ ▸ hk)⟩
  have hpattern : ∀ v, c.node.get? "pattern" = some v → ∃ pattern, v = .str pattern :=
    fun v hk => (hchecked.compiles v (hget _ ▸ hk)).imp fun _ h => h.1
  obtain ⟨properties, hp⟩ := hchecked.properties
  rw [← hnode] at hp
  have hrequired : onMembers (fun members => check_required spot members node') c.value =
      onMembers (fun members => check_required spot members c.node) c.value :=
    onMembers_congr fun members _ =>
      check_required_alike h fun v hk => hshaped.required v (hget _ ▸ hk)
  have hdeclared : onMembers (fun members => check_declared spot child' members node') c.value =
      onMembers (fun members => check_declared spot child members c.node) c.value :=
    onMembers_congr fun members hmembers => check_declared_alike h hp fun m hm s s' hs hss' sp =>
      hspot ▸ ih _ (.declared hdepth href hmembers hp hm hs) s' hss' sp
  have hundeclared :
      onMembers (fun members => check_undeclared spot child' members node') c.value =
      onMembers (fun members => check_undeclared spot child members c.node) c.value :=
    onMembers_congr fun members hmembers => check_undeclared_alike h hp
      (fun v hk => hshaped.additional v (hget _ ▸ hk)) fun m hm additional s' hs ha hss' sp =>
      hspot ▸ ih _ (.undeclared hdepth href hmembers hm hs ha) s' hss' sp
  have hitems : onItems (check_items spot child' node') c.value =
      onItems (check_items spot child c.node) c.value :=
    onItems_congr fun items hlist => check_items_alike h
      (fun v hk => hshaped.items v (hget _ ▸ hk)) fun item hitem schema s' hs hss' sp =>
      hspot ▸ ih _ (.item hdepth href hlist hitem hs) s' hss' sp
  have hinteger : check_integer spot c.value node' = check_integer spot c.value c.node := by
    cases c.value with
    | int i => exact check_least_alike h (hleast _ (by simp))
    | _ => rfl
  rw [check_node_eq, check_node_eq, ranked, ranked,
    check_type_alike h fun v hk => hshaped.type v (hget _ ▸ hk), hrequired, hdeclared, hundeclared,
    check_enum_alike h hv fun v hk => hshaped.enum v (hget _ ▸ hk), check_const_alike h hv, hitems,
    hinteger]
  simp only [check_least_alike h (hleast (lit "minItems") (by simp)),
    check_least_alike h (hleast (lit "minLength") (by simp)), check_pattern_alike h hpattern,
    check_format_alike h hformat]

/-! ## References, and the walk -/

/-- The steps of a fragment lead to nodes that are alike. -/
theorem find_alike {reference : Str} {steps : List Str} {document document' target : Value}
    (h : Alike document document')
    (hsteps : steps.foldlM (resolve_step reference) document = .ok target) :
    ∃ target', steps.foldlM (resolve_step reference) document' = .ok target' ∧
      Alike target target' := by
  induction steps generalizing document document' with
  | nil =>
    cases hsteps
    exact ⟨document', rfl, h⟩
  | cons step steps ih =>
    rw [List.foldlM_cons] at hsteps
    obtain ⟨child, hchild, hsteps⟩ := bind_eq_ok.mp hsteps
    have hstep : ∀ {node child : Value}, resolve_step reference node step = .ok child ↔
        node.get? (unescaped step) = some child := by
      intro node child
      unfold resolve_step unescaped
      dsimp only
      split
      · rename_i found hfound
        rw [hfound]
        simp
      · rename_i hfound
        rw [hfound]
        simp
    obtain ⟨child', hchild', halike⟩ := h.get?_some (hstep.mp hchild)
    obtain ⟨target', htarget', htargets⟩ := ih halike hsteps
    refine ⟨target', ?_, htargets⟩
    rw [List.foldlM_cons, hstep.mpr hchild', ok_bind, htarget']

theorem resolve_alike {registry registry' : Registry} (hregistries : AlikeRegistries registry registry')
    {reference target : Value} {identifier id : Str}
    (hr : resolve reference identifier registry = .ok (target, id)) :
    ∃ target', resolve reference identifier registry' = .ok (target', id) ∧ Alike target target' := by
  cases reference with
  | str text =>
    unfold resolve at hr ⊢
    dsimp only at hr ⊢
    split at hr
    · cases hr
    rename_i hne
    rw [if_neg hne]
    rcases hregistries (if (partition text (.scalar '#')).1 = [] then identifier
      else (partition text (.scalar '#')).1) with ⟨hd, hd'⟩ | ⟨document, document', hd, hd', halike⟩
    · rw [hd] at hr
      cases hr
    rw [hd] at hr
    rw [hd']
    dsimp only at hr ⊢
    split at hr
    · cases hr
      exact ⟨document', rfl, halike⟩
    · split at hr
      · cases hr
      rename_i hc
      rw [if_neg hc]
      obtain ⟨found, hfound, hpure⟩ := bind_eq_ok.mp hr
      cases hpure
      obtain ⟨target', htarget', htargets⟩ := find_alike halike hfound
      exact ⟨target', by rw [htarget']; rfl, htargets⟩
  | _ => cases hr

/-- Validation at nodes that are alike says the same. -/
theorem validate_node_alike [re.Engine] {repr : Value → Str} {documents : List Value}
    {registry registry' : Registry} {code : Code}
    (hb : build_registry repr documents = .ok registry)
    (hregistries : AlikeRegistries registry registry') {id : Str} {document : Value}
    (hd : registry.lookup id = some document)
    (hshaped : ∀ s, Reaches registry document id s → ∀ keywords, s.node = .dict keywords →
      Shaped registry s.identifier keywords) (frames : Nat) :
    ∀ (c : Call) (node' : Value) (sp : Str),
      Relation.ReflTransGen (Leads registry) ⟨document, id, 0⟩ c.site → c.value.Canonical →
      Alike c.node node' →
        validate_node registry' code c.identifier frames c.value node' c.instance_path sp c.depth =
          validate_node registry code c.identifier frames c.value c.node c.instance_path sp
            c.depth := by
  induction frames with
  | zero => exact fun _ _ _ _ _ _ => rfl
  | succ frames ih =>
    intro c node' sp hreach hv halike
    rw [validate_node, validate_node]
    by_cases hdepth : c.depth ≤ MAX_DEPTH
    · have hsite : Reaches registry document id c.site := ⟨hreach, hdepth⟩
      have hwalked : Walked registry c.identifier c.node := hsite.walked hb hd
        fun s hs keywords reference hnode => (hshaped s hs keywords hnode).reference reference
      obtain ⟨keywords, hnode, hchecked⟩ := checked_of_ok (hwalked.checked hb)
      have hnext : ∀ d, Calls registry c d → ∀ s', Alike d.node s' → ∀ sp,
          validate_node registry' code d.identifier frames d.value s' d.instance_path sp d.depth =
            validate_node registry code d.identifier frames d.value d.node d.instance_path sp
              d.depth := by
        intro d hcall s' hs' sp
        obtain ⟨hlead, hcanonical⟩ := hcall.leads hv
        exact ih d s' sp (hreach.tail hlead) hcanonical hs'
      obtain ⟨keywords', hnode'⟩ := alike_dict (hnode ▸ halike)
      have hrefs : refOf node' = .ok (node'.get? (lit "$ref")) := by rw [hnode']; rfl
      have hrefs' : refOf c.node = .ok (c.node.get? (lit "$ref")) := by rw [hnode]; rfl
      rw [raiseIf_neg (by omega)]
      cases href : c.node.get? (lit "$ref") with
      | some reference =>
        obtain ⟨reference', href', hreferences⟩ := halike.get?_some href
        obtain ⟨⟨target, id'⟩, hr⟩ := hchecked.reference reference (by
          rw [← href, hnode, Value.get?_dict])
        obtain ⟨target', hr', htargets⟩ := resolve_alike hregistries hr
        have hcall : Calls registry c { c with node := target, identifier := id' } :=
          .reference hdepth (hrefs'.trans (by rw [href])) hr
        cases reference with
        | str text =>
          obtain rfl := plain_str text reference' hreferences
          rw [hrefs, hrefs', href, href']
          simp only [ok_bind, hr, hr', string]
          exact hnext _ hcall target' htargets _
        | _ => cases hr
      | none =>
        have hplain : refOf c.node = .ok none := hrefs'.trans (by rw [href])
        rw [hrefs, hrefs', href, halike.get?_none href]
        refine check_node_alike hnode hplain hdepth hchecked (hshaped _ hsite keywords hnode)
          hv.distinctKeys halike rfl fun d hcall s' hs' sp => ?_
        have hsame := hnext d hcall s' hs' sp
        cases hcall with
        | reference _ href' => cases hplain.symm.trans href'
        | declared => exact hsame
        | undeclared => exact hsame
        | item => exact hsame
    · rw [raiseIf_pos (by omega)]
      rfl

/-! ## What validation says -/

/-- The call that validation of a value against a document starts with. -/
def start (value document : Value) (id : Str) : Call := ⟨value, document, id, "$", 0⟩

theorem validate_on_alike [re.Engine] {repr : Value → Str} {documents : List Value}
    {registry registry' : Registry} (hb : build_registry repr documents = .ok registry)
    (hregistries : AlikeRegistries registry registry') {id : Str} {document : Value} {code : Code}
    (hd : registry.lookup id = some document) (hcode : CODE_BY_ID.lookup id = some code)
    (hshaped : ∀ s, Reaches registry document id s → ∀ keywords, s.node = .dict keywords →
      Shaped registry s.identifier keywords) {v w : Value} (hv : v.Canonical) (h : Alike v w)
    (frames : Nat) : validate_on frames w id registry' =
      validate_node registry code id frames v document "$" "$" 0 := by
  rcases hregistries id with ⟨hd', _⟩ | ⟨_, document', hd₁, hd', halike⟩
  · cases hd.symm.trans hd'
  · cases hd.symm.trans hd₁
    unfold validate_on
    simp only [hd', hcode]
    rw [← validate_node_normalize registry' code frames h.right, ← h.normalize_eq,
      validate_node_normalize registry' code frames h.left]
    exact validate_node_alike hb hregistries hd hshaped frames (start v document id) document' "$"
      .refl hv halike

/-- On every stack that is deep enough, and whatever the insertion order of the
mappings in value and schemas, validation returns when the value meets every
assertion that applies to it, and otherwise raises the first one that it does
not meet; unless this is an `items` that admits none, which is never raised. -/
theorem validation_agrees_iff [re.Engine] {repr : Value → Str} {documents : List Value} {registry : Registry}
    (hb : build_registry repr documents = .ok registry)
    (hdocuments : ∀ document ∈ documents, document.DistinctKeys) {id : Str} {document : Value}
    {code : Code} (hd : registry.lookup id = some document)
    (hcode : CODE_BY_ID.lookup id = some code)
    (hshaped : ∀ s, Reaches registry document id s → ∀ keywords, s.node = .dict keywords →
      Shaped registry s.identifier keywords)
    (hacyclic : ∀ s, Reaches registry document id s → ChainEnds registry (s.node, s.identifier))
    {v : Value} (hv : v.Canonical) (hdepth : v.depth ≤ MAX_DEPTH) :
    ∃ n, ∀ frames ≥ n, ∀ w registry', Alike v w → AlikeRegistries registry registry' →
      (Agrees (reported code) (Unmet registry (start v document id))
          (validate_on frames w id registry') ↔
        ∀ place what, First (Unmet registry (start v document id)) place what →
          what.2 ≠ lit "items") := by
  have hdistinct : ∀ id document, registry.lookup id = some document → document.DistinctKeys :=
    fun id document hd => hdocuments document (mem_documents hb hd)
  have hchains : ChainsEnd registry ⟨document, id, 0⟩ :=
    fun t ht hdepth => hacyclic t ⟨ht, hdepth⟩
  obtain ⟨n, hn⟩ := (founded_of_chains hv hchains "$").terminates code
  refine ⟨n, fun frames hframes w registry' hvw hregistries => ?_⟩
  rw [validate_on_alike hb hregistries hd hcode hshaped hv hvw]
  have hjudged := judges_call code hb hdistinct hd hshaped frames (start v document id) "$"
    .refl hv (by simpa [start] using hdepth)
  exact hjudged.agrees_iff (hn frames hframes "$")

/-! ## Two documents -/

theorem lookup_candidate {keywords : List (Str × Value)} :
    List.lookup CANDIDATE_SCHEMA_ID [(CANDIDATE_SCHEMA_ID, Value.dict keywords)] =
      some (.dict keywords) := List.lookup_cons_self

theorem code_candidate : CODE_BY_ID.lookup CANDIDATE_SCHEMA_ID = some .candidate_schema_invalid := by
  simp [CODE_BY_ID, CANDIDATE_SCHEMA_ID]

/-- A chain that starts at a node with no reference ends there. -/
theorem chainEnds_of_plain {registry : Registry} {keywords : List (Str × Value)} {id : Str}
    (h : keywords.lookup (lit "$ref") = none) : ChainEnds registry (.dict keywords, id) :=
  ⟨1, by simp [follow, next, refOf, h]⟩

theorem shaped_parts {s : Site} (hs : PartsSite s) {keywords : List (Str × Value)}
    (hnode : s.node = .dict keywords) : Shaped partsRegistry s.identifier keywords := by
  obtain ⟨hid, keywords', hnode', hkeywords⟩ := hs
  cases hnode.symm.trans hnode'
  rw [hid]
  rcases hkeywords with rfl | rfl | rfl | rfl
  · constructor
    case required =>
      intro v hv
      refine ⟨[lit "name"], ?_⟩
      simpa [partsKeywords, lookup_lit_ne] using hv.symm
    all_goals simp [partsKeywords, lookup_lit_ne]
  · constructor
    case reference =>
      intro reference hreference
      obtain rfl : lit "#/$defs/text" = reference := by simpa [partKeywords] using hreference
      exact points_at_part
    all_goals simp [partKeywords, lookup_lit_ne, ASSERTIONS]
  · constructor <;> simp [tagsKeywords, lookup_lit_ne]
  · constructor <;> simp [textKeywords, lookup_lit_ne]

theorem chainEnds_parts {s : Site} (hs : PartsSite s) :
    ChainEnds partsRegistry (s.node, s.identifier) := by
  obtain ⟨hid, keywords, hnode, hkeywords⟩ := hs
  rw [hid, hnode]
  have htext : ChainEnds partsRegistry (.dict textKeywords, CANDIDATE_SCHEMA_ID) :=
    chainEnds_of_plain (by simp [textKeywords, lookup_lit_ne])
  rcases hkeywords with rfl | rfl | rfl | rfl
  · exact chainEnds_of_plain (by simp [partsKeywords, lookup_lit_ne])
  · obtain ⟨n, hn⟩ := htext
    have hnext : next partsRegistry (.dict partKeywords, CANDIDATE_SCHEMA_ID) =
        some (.dict textKeywords, CANDIDATE_SCHEMA_ID) :=
      next_eq_some.mpr ⟨_, by simp [refOf, partKeywords], resolve_part⟩
    exact ⟨n + 1, by rw [follow, hnext]; exact hn⟩
  · exact chainEnds_of_plain (by simp [tagsKeywords, lookup_lit_ne])
  · exact htext

/-- A value whose second tag is no string. -/
def partsValue : Value :=
  .dict [(lit "name", .str (lit "a")), (lit "tags", .list [.str (lit "b"), .int 1])]

/-- A document with properties, items and references, and a value with an item
that is refused. -/
theorem validation_agrees_on_parts : ∃ n, ∀ frames ≥ n, ∀ w registry', Alike partsValue w →
    AlikeRegistries partsRegistry registry' →
      (Agrees (reported .candidate_schema_invalid)
          (Unmet partsRegistry (start partsValue (.dict partsKeywords) CANDIDATE_SCHEMA_ID))
          (validate_on frames w CANDIDATE_SCHEMA_ID registry') ↔
        ∀ place what, First (Unmet partsRegistry
          (start partsValue (.dict partsKeywords) CANDIDATE_SCHEMA_ID)) place what →
            what.2 ≠ lit "items") := by
  refine validation_agrees_iff build_parts ?_ lookup_candidate code_candidate
    (fun s hs keywords hnode => shaped_parts (reaches_parts hs) hnode)
    (fun s hs => chainEnds_parts (reaches_parts hs)) ?_ (by decide)
  · intro document hdocument
    rw [List.mem_singleton.mp hdocument]
    simp [partsKeywords, partKeywords, tagsKeywords, textKeywords, Value.distinctKeys_dict, Distinct,
      Value.distinctKeys_list]
  · simp [partsValue, Distinct, Value.SafeInteger]

/-- A document whose arrays have no items. -/
def noItemsKeywords : List (Str × Value) :=
  [(lit "$id", .str CANDIDATE_SCHEMA_ID), (lit "items", .bool false)]

def noItemsRegistry : Registry := [(CANDIDATE_SCHEMA_ID, .dict noItemsKeywords)]

theorem build_noItems :
    build_registry (fun _ => []) [.dict noItemsKeywords] = .ok noItemsRegistry := by
  refine build_candidate (by simp [noItemsKeywords]) ?_
  constructor
  · simp [noItemsKeywords, SUPPORTED, ASSERTIONS, ANNOTATIONS, STRUCTURAL]
  · simp [noItemsKeywords, lookup_lit_ne]
  · simp [noItemsKeywords, lookup_lit_ne]
  · simp [noItemsKeywords, lookup_lit_ne]
  · simp [noItemsKeywords, lookup_lit_ne]
  · simp [noItemsKeywords, lookup_lit_ne]
  · simp [noItemsKeywords, lookup_lit_ne]

theorem shaped_noItems : Shaped noItemsRegistry CANDIDATE_SCHEMA_ID noItemsKeywords := by
  constructor
  · simp [noItemsKeywords, lookup_lit_ne]
  · simp [noItemsKeywords, lookup_lit_ne]
  · simp [noItemsKeywords, lookup_lit_ne]
  · simp [noItemsKeywords, lookup_lit_ne]
  · simp [noItemsKeywords, lookup_lit_ne]
  · simp [noItemsKeywords, lookup_lit_ne]
  · simp [noItemsKeywords, lookup_lit_ne]
  · simp [noItemsKeywords, lookup_lit_ne]

/-- The walk stays where it is in a document that has no part. -/
theorem reaches_leaf {registry : Registry} {id : Str} {keywords : List (Str × Value)} {s : Site}
    (href : keywords.lookup (lit "$ref") = none) (hproperties : keywords.lookup (lit "properties") = none)
    (hadditional : ∀ schema, keywords.lookup (lit "additionalProperties") ≠ some (.dict schema))
    (hitems : ∀ schema, keywords.lookup (lit "items") ≠ some (.dict schema))
    (hs : Reaches registry (.dict keywords) id s) : s = ⟨.dict keywords, id, 0⟩ := by
  rcases Relation.ReflTransGen.cases_head hs.1 with rfl | ⟨t, hlead, _⟩
  · rfl
  · cases hlead with
    | reference _ href' =>
      simp only [refOf, Except.ok.injEq] at href'
      cases href.symm.trans href'
    | property _ _ hp hl =>
      rw [propertiesOf, Value.get?_dict, hproperties] at hp
      cases hp
      cases hl
    | additional _ _ _ _ ha => exact absurd ha (hadditional _)
    | items _ _ hi => exact absurd hi (hitems _)

theorem reaches_noItems {s : Site}
    (hs : Reaches noItemsRegistry (.dict noItemsKeywords) CANDIDATE_SCHEMA_ID s) :
    s = ⟨.dict noItemsKeywords, CANDIDATE_SCHEMA_ID, 0⟩ := by
  refine reaches_leaf ?_ ?_ ?_ ?_ hs
  · simp [noItemsKeywords, lookup_lit_ne]
  · simp [noItemsKeywords, lookup_lit_ne]
  · simp [noItemsKeywords, lookup_lit_ne]
  · simp [noItemsKeywords, lookup_lit_ne]

theorem validate_noItems :
    validate_on FRAMES (.list [.null]) CANDIDATE_SCHEMA_ID noItemsRegistry = .ok () := by
  have href : refOf (.dict noItemsKeywords) = .ok none := by
    simp [refOf, noItemsKeywords, lookup_lit_ne]
  have hlookup : noItemsRegistry.lookup CANDIDATE_SCHEMA_ID = some (.dict noItemsKeywords) :=
    lookup_candidate
  simp only [validate_on, hlookup, code_candidate]
  rw [show FRAMES = 999 + 1 from rfl, validate_node, raiseIf_neg (by decide), href]
  simp only [ok_bind]
  rw [check_node_eq_ok]
  refine ⟨?_, rfl, ?_, ?_, ?_, rfl, rfl⟩
  · simp [check_type, noItemsKeywords, lookup_lit_ne, pure, Except.pure]
  · simp [check_enum, noItemsKeywords, lookup_lit_ne, pure, Except.pure]
  · simp [check_const, noItemsKeywords, lookup_lit_ne, pure, Except.pure]
  · simp [check_array, check_least, noItemsKeywords, lookup_lit_ne, pure, Except.pure, bind,
      Except.bind]

/-- An array with an item passes a document whose arrays have none, although
the meaning of the document refuses that item first. -/
theorem items_false_is_ignored :
    build_registry (fun _ => []) [.dict noItemsKeywords] = .ok noItemsRegistry ∧
    (∀ s, Reaches noItemsRegistry (.dict noItemsKeywords) CANDIDATE_SCHEMA_ID s →
      ChainEnds noItemsRegistry (s.node, s.identifier) ∧
      ∀ keywords, s.node = .dict keywords → Shaped noItemsRegistry s.identifier keywords) ∧
    (Value.list [.null]).Canonical ∧ (Value.list [.null]).depth ≤ MAX_DEPTH ∧
    First (Unmet noItemsRegistry
      (start (.list [.null]) (.dict noItemsKeywords) CANDIDATE_SCHEMA_ID)) [7, 0]
      (indexed "$" 0, "items") ∧
    validate_on FRAMES (.list [.null]) CANDIDATE_SCHEMA_ID noItemsRegistry = .ok () := by
  refine ⟨build_noItems, ?_, ?_, by decide, ⟨?_, ?_⟩, validate_noItems⟩
  · intro s hs
    cases reaches_noItems hs
    refine ⟨chainEnds_of_plain (by simp [noItemsKeywords, lookup_lit_ne]), ?_⟩
    intro keywords hnode
    cases hnode
    exact shaped_noItems
  · exact .list (by simp)
  · exact .noItems (by simp [start, noItemsKeywords, lookup_lit_ne]) rfl (by simp)
  · intro place what h
    cases h with
    | @noItems _ _ i _ hv hi =>
      cases hv
      obtain rfl : i = 0 := by simpa using hi
      exact .inl ⟨rfl, rfl⟩
    | declared _ hv => cases hv
    | _ => simp_all [start, refOf, noItemsKeywords, lookup_lit_ne]

end vfy.schema
