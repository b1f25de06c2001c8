-- The events of a value: strings quoted, everything else plain. Building from
-- them gives the value back, so every value of the subset has a source.
import VerifyRun.YamlLaws

namespace vfy.load

open calls python keys outcomes canon

/-- The style of a quoted scalar. -/
def QUOTED : Option Str := some "\""

mutual

/-- The events of a value. -/
def eventsOf : Value → List Event
  | .null => [.scalar none none none "null"]
  | .bool true => [.scalar none none none "true"]
  | .bool false => [.scalar none none none "false"]
  | .int i => [.scalar none none none (ofText (decimal i))]
  | .str s => [.scalar none none QUOTED s]
  | .list items => .sequence_start none none :: (eventsOfItems items ++ [.sequence_end])
  | .dict members => .mapping_start none none :: (eventsOfMembers members ++ [.mapping_end])

def eventsOfItems : List Value → List Event
  | [] => []
  | v :: rest => eventsOf v ++ eventsOfItems rest

def eventsOfMembers : List (Str × Value) → List Event
  | [] => []
  | (k, v) :: rest => .scalar none none QUOTED k :: (eventsOf v ++ eventsOfMembers rest)

end

/-- A value that the subset can write: safe integers, distinct keys, and no
merge key. -/
inductive Written : Value → Prop where
  | null : Written .null
  | bool (b : Bool) : Written (.bool b)
  | int {i : Int} (h : Value.SafeInteger i) : Written (.int i)
  | str (s : Str) : Written (.str s)
  | list {items : List Value} (h : ∀ v ∈ items, Written v) : Written (.list items)
  | dict {members : List (Str × Value)} (hd : Distinct members)
      (hk : ∀ m ∈ members, m.1 ≠ lit "<<") (hv : ∀ m ∈ members, Written m.2) :
      Written (.dict members)

@[simp] theorem written_str (s : Str) : Written (.str s) := .str s

@[simp] theorem written_list {items : List Value} :
    Written (.list items) ↔ ∀ v ∈ items, Written v :=
  ⟨fun h => by cases h; assumption, .list⟩

@[simp] theorem written_dict {members : List (Str × Value)} : Written (.dict members) ↔
    Distinct members ∧ (∀ m ∈ members, m.1 ≠ lit "<<") ∧ ∀ m ∈ members, Written m.2 :=
  ⟨fun h => by cases h with | dict hd hk hv => exact ⟨hd, hk, hv⟩, fun h => .dict h.1 h.2.1 h.2.2⟩

/-! ## The events are those of one node -/

theorem eventsOfItems_eq (items : List Value) :
    eventsOfItems items = (items.map eventsOf).flatten := by
  induction items with
  | nil => rfl
  | cons v rest ih => simp [eventsOfItems, ih]

theorem eventsOfMembers_eq (members : List (Str × Value)) : eventsOfMembers members =
    (members.flatMap fun m => [[.scalar none none QUOTED m.1], eventsOf m.2]).flatten := by
  induction members with
  | nil => rfl
  | cons m rest ih => simp [eventsOfMembers, ih]

theorem isNode_eventsOf {v : Value} (h : Written v) : IsNode (eventsOf v) := by
  induction h with
  | null => exact .scalar _ _ _ _
  | bool b => cases b <;> exact .scalar _ _ _ _
  | int _ => exact .scalar _ _ _ _
  | str s => exact .scalar _ _ _ _
  | @list items _ ih =>
    rw [eventsOf, eventsOfItems_eq]
    exact .sequence _ _ fun node hn => by
      obtain ⟨v, hv, rfl⟩ := List.mem_map.mp hn
      exact ih v hv
  | @dict members _ _ _ ih =>
    rw [eventsOf, eventsOfMembers_eq]
    refine .mapping _ _ fun node hn => ?_
    obtain ⟨m, hm, hnode⟩ := List.mem_flatMap.mp hn
    rcases List.mem_pair.mp hnode with rfl | rfl
    · exact .scalar _ _ _ _
    · exact ih m hm

/-! ## Building from them -/

/-- The outcome of building from these events on this stack. -/
def built (b : Builder) (events : List Event) : Except Exn Builder := outcome (build b events)

theorem built_cons (b : Builder) (event : Event) (events : List Event) :
    built b (event :: events) = (outcome (step b event) >>= fun b' => built b' events) := by
  simp [built, build]

/-- A scalar takes its place. -/
theorem built_scalar {b : Builder} {style : Option Str} {text : Str} {v : Value}
    (h : outcome (yaml_scalar_value none style text) = .ok v) (events : List Event) :
    built b (.scalar none none style text :: events) = (place b v >>= fun b' => built b' events) := by
  rw [built_cons]
  congr 1
  simp [step, refuse_anchor, truthy, h]

theorem outcome_decimal {i : Int} (h : Value.SafeInteger i) :
    outcome (plain_scalar (ofText (decimal i))) = .ok (.int i) := by
  rw [plain_scalar_decimal, integer_within_interval, outcome_bind, outcome_int, convert_decimal h,
    ok_bind, if_neg]
  · rfl
  · obtain ⟨hlow, hhigh⟩ := h
    unfold canon.MIN_SAFE_INTEGER canon.MAX_SAFE_INTEGER
    omega

/-- The stack of a builder whose innermost collection is this frame. -/
def Builder.under (b : Builder) (frame : Frame) : Builder := { b with stack := frame :: b.stack }

/-- A collection opens, when it is not too deep. -/
theorem built_open {b : Builder} {frame : Frame} (hdepth : b.stack.length + 1 ≤ 64) :
    push b frame = .ok (b.under frame) := by
  unfold push
  dsimp only
  rw [raiseIf_neg]
  · rfl
  · unfold MAX_DEPTH
    simp only [List.length_cons]
    omega

theorem built_items {items : List Value} (b : Builder) (rest : List Event)
    (h : ∀ v ∈ items, ∀ (acc : List Value) (rest : List Event), built (b.under (.seq acc)) (eventsOf v ++ rest) =
      (place (b.under (.seq acc)) v >>= fun b' => built b' rest)) :
    ∀ acc, built (b.under (.seq acc)) (eventsOfItems items ++ rest) =
      built (b.under (.seq (acc ++ items))) rest := by
  induction items with
  | nil =>
    intro acc
    simp [eventsOfItems]
  | cons v items ih =>
    intro acc
    obtain ⟨hv, hrest⟩ := List.forall_mem_cons.mp h
    rw [eventsOfItems, List.append_assoc, hv, show place (b.under (.seq acc)) v =
      .ok (b.under (.seq (acc ++ [v]))) from rfl, ok_bind, ih hrest, List.append_assoc]
    rfl

theorem setItem_append {members : List (Str × Value)} {k : Str} {v : Value}
    (h : k ∉ members.map Prod.fst) : setItem members k v = members ++ [(k, v)] := by
  have hnone : members.lookup k = none := by
    rw [List.lookup_eq_none_iff]
    intro m hm
    simpa using fun heq : k = m.1 => h (heq ▸ List.mem_map_of_mem hm)
  simp [setItem, hnone]

theorem built_members {members : List (Str × Value)} (b : Builder) (rest : List Event)
    (hkeys : ∀ m ∈ members, m.1 ≠ lit "<<")
    (h : ∀ m ∈ members, ∀ frame (rest : List Event), built (b.under frame) (eventsOf m.2 ++ rest) =
      (place (b.under frame) m.2 >>= fun b' => built b' rest)) :
    ∀ acc seen, Distinct (acc ++ members) → seen = (acc.map Prod.fst).reverse →
      built (b.under (.map acc none seen)) (eventsOfMembers members ++ rest) =
        built (b.under (.map (acc ++ members) none (((acc ++ members).map Prod.fst).reverse))) rest := by
  induction members with
  | nil =>
    rintro acc seen - rfl
    simp [eventsOfMembers]
  | cons m members ih =>
    rintro acc seen hd rfl
    obtain ⟨k, v⟩ := m
    obtain ⟨hv, hrest⟩ := List.forall_mem_cons.mp h
    obtain ⟨hk, hkeys⟩ := List.forall_mem_cons.mp hkeys
    have hfresh : k ∉ acc.map Prod.fst := by
      intro hmem
      unfold Distinct at hd
      rw [List.map_append, List.nodup_append] at hd
      exact hd.2.2 k hmem k (by simp) rfl
    have hkey : outcome (yaml_scalar_value none QUOTED k) = .ok (.str k) := rfl
    have hpend : place (b.under (.map acc none (acc.map Prod.fst).reverse)) (.str k) =
        .ok (b.under (.map acc (some k) (k :: (acc.map Prod.fst).reverse))) := by
      have hseen : k ∉ (acc.map Prod.fst).reverse := by rwa [List.mem_reverse]
      simp [place, Builder.under, Frame.add, hk, hseen, pure, Except.pure]
    have hplace : place (b.under (.map acc (some k) (k :: (acc.map Prod.fst).reverse))) v =
        .ok (b.under (.map (acc ++ [(k, v)]) none (k :: (acc.map Prod.fst).reverse))) := by
      simp [place, Builder.under, Frame.add, setItem_append hfresh, pure, Except.pure]
    rw [eventsOfMembers, List.cons_append, built_scalar hkey, hpend, ok_bind, List.append_assoc,
      hv, hplace, ok_bind, ih hkeys hrest (acc ++ [(k, v)]) _ (by simpa using hd) (by simp)]
    simp

/-- Building from the events of a value puts the value in its place. -/
theorem built_eventsOf {v : Value} (h : Written v) : ∀ (b : Builder) (rest : List Event),
    b.stack.length + v.depth ≤ 64 →
      built b (eventsOf v ++ rest) = (place b v >>= fun b' => built b' rest) := by
  induction h with
  | null => exact fun b rest _ => built_scalar rfl rest
  | bool value =>
    intro b rest _
    cases value <;> exact built_scalar rfl rest
  | @int i h =>
    intro b rest _
    have hscalar : outcome (yaml_scalar_value none none (ofText (decimal i))) = .ok (.int i) := by
      simp [yaml_scalar_value, refuse_tag, truthy, isPlain, outcome_decimal h]
    exact built_scalar hscalar rest
  | str s => exact fun b rest _ => built_scalar rfl rest
  | @list items _ ih =>
    intro b rest hdepth
    simp only [Value.depth] at hdepth
    have hitems := built_items b (.sequence_end :: rest) (fun v hv acc rest =>
      ih v hv (b.under (.seq acc)) rest (by
        have hle := Value.depthItems_le.mp le_rfl v hv
        simp only [Builder.under, List.length_cons]
        omega)) []
    have hopen : outcome (step b (.sequence_start none none)) = .ok (b.under (.seq [])) := by
      simp [step, refuse_anchor, refuse_tag, truthy, @built_open b (.seq []) (by omega)]
    rw [eventsOf, List.cons_append, List.append_assoc, built_cons, hopen, ok_bind]
    rw [List.singleton_append, hitems, built_cons]
    simp [step, pop, Builder.under, Frame.value]
  | @dict members hd hk _ ih =>
    intro b rest hdepth
    simp only [Value.depth] at hdepth
    have hmembers := built_members b (.mapping_end :: rest) hk (fun m hm frame rest =>
      ih m hm (b.under frame) rest (by
        have hle := Value.depthMembers_le.mp le_rfl m hm
        simp only [Builder.under, List.length_cons]
        omega)) [] [] (by simpa using hd) rfl
    have hopen : outcome (step b (.mapping_start none none)) =
        .ok (b.under (.map [] none [])) := by
      simp [step, refuse_anchor, refuse_tag, truthy, @built_open b (.map [] none []) (by omega)]
    rw [eventsOf, List.cons_append, List.append_assoc, built_cons, hopen, ok_bind]
    rw [List.singleton_append, hmembers, built_cons]
    simp [step, pop, Builder.under, Frame.value]

/-! ## A source for a value -/

/-- The document of the events of a mapping gives the mapping back. -/
theorem value_from_eventsOf {members : List (Str × Value)} (h : Written (.dict members))
    (hdepth : (Value.dict members).depth ≤ 64) :
    outcome (value_from_yaml_events (stream [eventsOf (.dict members)])) = .ok (.dict members) := by
  have hbuild := built_eventsOf h { stack := [], root := none } [] (by simpa using hdepth)
  rw [List.append_nil] at hbuild
  unfold value_from_yaml_events
  simp only [outcome_bind, outcome_lift, body_of_stream (isNode_eventsOf h)]
  rw [ok_bind, raiseIf_neg (by simp [eventsOf, isEmptyDocument]), ok_bind,
    raiseIf_neg (by simp [eventsOf, startsMapping]), ok_bind]
  rw [show outcome (build { stack := [], root := none } (eventsOf (.dict members))) = _ from hbuild]
  rfl

/-- A source text that the parser reads as the events of a canonical mapping
loads as that mapping. -/
theorem load_eventsOf {yaml : Yaml} {text : Text} {members : List (Str × Value)}
    (hread : yaml text = some (stream [eventsOf (.dict members)]))
    (h : Written (.dict members)) (hc : (Value.dict members).Canonical)
    (hdepth : (Value.dict members).depth ≤ 64) {data : ByteArray}
    (hdecode : decode_utf8 data = .ok text) : load_yaml_bytes yaml data = .ok (.dict members) := by
  obtain ⟨t, ht⟩ := canon.encode_of_canonical hc
  rw [← canon.canonicalize_eq_encode] at ht
  have hevents : events_of yaml text = .ok (stream [eventsOf (.dict members)]) := by
    unfold events_of
    rw [hread]
  unfold load_yaml_bytes loading_yaml
  simp only [outcome_bind, outcome_lift, hdecode, ok_bind, hevents, value_from_eventsOf h hdepth,
    ht, outcome_pure]

/-- A parser of one text, which it reads as a value. -/
def readsValue (text : Text) (v : Value) : Yaml := fun t =>
  if t = text then some (stream [eventsOf v]) else none

theorem streams_readsValue (text : Text) {v : Value} (h : Written v) :
    (readsValue text v).Streams := by
  intro t events hread
  unfold readsValue at hread
  split at hread
  · cases hread
    exact ⟨_, rfl, by simpa using isNode_eventsOf h⟩
  · cases hread

end vfy.load
