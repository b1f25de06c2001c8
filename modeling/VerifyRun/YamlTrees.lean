-- The builder of the YAML subset against the trees that its events spell: a
-- document gives the value that its tree denotes, and it is refused exactly
-- where the tree has something that the subset refuses.
import VerifyRun.YamlValues

namespace vfy.load

open calls python keys outcomes

/-! ## Trees -/

/-- A node of a document, as the parser describes it. -/
inductive Node where
  | aliased (anchor : Str)
  | scalar (anchor tag style : Option Str) (value : Str)
  | sequence (anchor tag : Option Str) (items : List Node)
  | mapping (anchor tag : Option Str) (members : List (Node × Node))

namespace Node

/-- Induction over the nesting of a node. -/
@[induction_eliminator, elab_as_elim]
theorem nested {P : Node → Prop} (aliased : ∀ anchor, P (aliased anchor))
    (scalar : ∀ anchor tag style value, P (scalar anchor tag style value))
    (sequence : ∀ anchor tag items, (∀ n ∈ items, P n) → P (sequence anchor tag items))
    (mapping : ∀ anchor tag members, (∀ m ∈ members, P m.1 ∧ P m.2) →
      P (mapping anchor tag members)) : ∀ n, P n := by
  intro n
  refine @Node.rec P (fun l => ∀ n ∈ l, P n) (fun l => ∀ m ∈ l, P m.1 ∧ P m.2)
    (fun m => P m.1 ∧ P m.2) aliased scalar sequence mapping ?_ ?_ ?_ ?_ ?_ n
  · simp
  · intro n l hn hl
    exact List.forall_mem_cons.mpr ⟨hn, hl⟩
  · simp
  · intro m l hm hl
    exact List.forall_mem_cons.mpr ⟨hm, hl⟩
  · exact fun _ _ hk hv => ⟨hk, hv⟩

mutual

/-- The events of a node. -/
def events : Node → List Event
  | .aliased anchor => [.aliased anchor]
  | .scalar anchor tag style value => [.scalar anchor tag style value]
  | .sequence anchor tag items =>
    .sequence_start anchor tag :: (eventsOfItems items ++ [.sequence_end])
  | .mapping anchor tag members =>
    .mapping_start anchor tag :: (eventsOfMembers members ++ [.mapping_end])

def eventsOfItems : List Node → List Event
  | [] => []
  | n :: rest => n.events ++ eventsOfItems rest

def eventsOfMembers : List (Node × Node) → List Event
  | [] => []
  | m :: rest => m.1.events ++ (m.2.events ++ eventsOfMembers rest)

end

mutual

/-- The number of collections that are open at the deepest point. -/
def depth : Node → Nat
  | .sequence _ _ items => depthItems items + 1
  | .mapping _ _ members => depthMembers members + 1
  | _ => 0

def depthItems : List Node → Nat
  | [] => 0
  | n :: rest => max n.depth (depthItems rest)

def depthMembers : List (Node × Node) → Nat
  | [] => 0
  | m :: rest => max (max m.1.depth m.2.depth) (depthMembers rest)

end

mutual

/-- The node and every node inside it. -/
def nodes : Node → List Node
  | .sequence anchor tag items => .sequence anchor tag items :: nodesOfItems items
  | .mapping anchor tag members => .mapping anchor tag members :: nodesOfMembers members
  | n => [n]

def nodesOfItems : List Node → List Node
  | [] => []
  | n :: rest => n.nodes ++ nodesOfItems rest

def nodesOfMembers : List (Node × Node) → List Node
  | [] => []
  | m :: rest => m.1.nodes ++ (m.2.nodes ++ nodesOfMembers rest)

end

theorem eventsOfItems_eq (items : List Node) :
    eventsOfItems items = (items.map events).flatten := by
  induction items with
  | nil => rfl
  | cons n rest ih => simp [eventsOfItems, ih]

theorem eventsOfMembers_eq (members : List (Node × Node)) : eventsOfMembers members =
    (members.flatMap fun m => [m.1.events, m.2.events]).flatten := by
  induction members with
  | nil => rfl
  | cons m rest ih => simp [eventsOfMembers, ih]

theorem mem_nodesOfItems {items : List Node} {n : Node} :
    n ∈ nodesOfItems items ↔ ∃ i ∈ items, n ∈ i.nodes := by
  induction items with
  | nil => simp [nodesOfItems]
  | cons i rest ih => simp [nodesOfItems, ih]

theorem mem_nodesOfMembers {members : List (Node × Node)} {n : Node} :
    n ∈ nodesOfMembers members ↔ ∃ m ∈ members, n ∈ m.1.nodes ∨ n ∈ m.2.nodes := by
  induction members with
  | nil => simp [nodesOfMembers]
  | cons m rest ih => simp [nodesOfMembers, ih, or_assoc]

/-- The root of a document of the subset. -/
def isMapping : Node → Bool
  | .mapping _ _ _ => true
  | _ => false

theorem isNode_events (n : Node) : IsNode n.events := by
  induction n with
  | aliased anchor => exact .aliased anchor
  | scalar anchor tag style value => exact .scalar anchor tag style value
  | sequence anchor tag items ih =>
    rw [events, eventsOfItems_eq]
    refine .sequence _ _ fun node hnode => ?_
    obtain ⟨i, hi, rfl⟩ := List.mem_map.mp hnode
    exact ih i hi
  | mapping anchor tag members ih =>
    rw [events, eventsOfMembers_eq]
    refine .mapping _ _ fun node hnode => ?_
    obtain ⟨m, hm, hnode⟩ := List.mem_flatMap.mp hnode
    rcases List.mem_pair.mp hnode with rfl | rfl
    · exact (ih m hm).1
    · exact (ih m hm).2

end Node

/-! ## What a tree denotes -/

/-- The value that a node denotes: a scalar its own value, a sequence the
values of its items in order, a mapping the values of its members, each once
and under its own key. -/
inductive Denotes : Node → Value → Prop where
  | scalar {anchor tag style : Option Str} {value : Str} {v : Value} (ha : truthy anchor = none)
      (hv : outcome (yaml_scalar_value tag style value) = .ok v) :
      Denotes (.scalar anchor tag style value) v
  | sequence {anchor tag : Option Str} {items : List Node} {values : List Value}
      (ha : truthy anchor = none) (ht : truthy tag = none)
      (h : List.Forall₂ Denotes items values) : Denotes (.sequence anchor tag items) (.list values)
  | mapping {anchor tag : Option Str} {members : List (Node × Node)}
      {values : List (Str × Value)} (ha : truthy anchor = none) (ht : truthy tag = none)
      (hk : List.Forall₂ Denotes (members.map Prod.fst) (values.map fun v => .str v.1))
      (hv : List.Forall₂ Denotes (members.map Prod.snd) (values.map Prod.snd))
      (hmerge : ∀ v ∈ values, v.1 ≠ lit "<<") (hd : Distinct values) :
      Denotes (.mapping anchor tag members) (.dict values)

/-- The string that a scalar gives as a key. -/
def Node.key : Node → Option Str
  | .scalar _ tag style value =>
    match outcome (yaml_scalar_value tag style value) with
    | .ok (.str s) => some s
    | _ => none
  | _ => none

/-- What the subset refuses about a node itself: an alias, an anchor, a tag, a
scalar that has no value, a key that is no string, the merge key, or a key
that came before. -/
inductive Refused : Node → Prop where
  | aliased (anchor : Str) : Refused (.aliased anchor)
  | scalar_anchor {anchor tag style : Option Str} {value : Str} (h : truthy anchor ≠ none) :
      Refused (.scalar anchor tag style value)
  | scalar_tag {anchor tag style : Option Str} {value : Str} (h : truthy tag ≠ none) :
      Refused (.scalar anchor tag style value)
  | scalar_value {anchor tag style : Option Str} {value : Str} {e : Exn}
      (h : outcome (yaml_scalar_value tag style value) = .error e) :
      Refused (.scalar anchor tag style value)
  | sequence_anchor {anchor tag : Option Str} {items : List Node} (h : truthy anchor ≠ none) :
      Refused (.sequence anchor tag items)
  | sequence_tag {anchor tag : Option Str} {items : List Node} (h : truthy tag ≠ none) :
      Refused (.sequence anchor tag items)
  | mapping_anchor {anchor tag : Option Str} {members : List (Node × Node)}
      (h : truthy anchor ≠ none) : Refused (.mapping anchor tag members)
  | mapping_tag {anchor tag : Option Str} {members : List (Node × Node)} (h : truthy tag ≠ none) :
      Refused (.mapping anchor tag members)
  | key {anchor tag : Option Str} {members : List (Node × Node)} {m : Node × Node}
      (hm : m ∈ members) (h : m.1.key = none) : Refused (.mapping anchor tag members)
  | merge {anchor tag : Option Str} {members : List (Node × Node)} {m : Node × Node}
      (hm : m ∈ members) (h : m.1.key = some (lit "<<")) : Refused (.mapping anchor tag members)
  | duplicate {anchor tag : Option Str} {members : List (Node × Node)}
      (h : ¬ (members.map fun m => m.1.key).Nodup) : Refused (.mapping anchor tag members)

theorem Denotes.key_eq {n : Node} {s : Str} (h : Denotes n (.str s)) : n.key = some s := by
  cases h with
  | scalar ha hv => simp [Node.key, hv]

theorem refuse_anchor_eq_ok {anchor : Option Str} :
    refuse_anchor anchor = .ok () ↔ truthy anchor = none := by
  simp [refuse_anchor]

theorem refuse_tag_eq_ok {tag : Option Str} : refuse_tag tag = .ok () ↔ truthy tag = none := by
  unfold refuse_tag
  cases truthy tag <;> simp

theorem tag_of_scalar_ok {tag style : Option Str} {value : Str} {v : Value}
    (h : outcome (yaml_scalar_value tag style value) = .ok v) : truthy tag = none := by
  simp only [yaml_scalar_value, outcome_bind, outcome_lift] at h
  exact refuse_tag_eq_ok.mp (seq_eq_ok.mp h).1

/-! ## The builder -/

theorem place_under (b : Builder) (frame : Frame) (v : Value) :
    place (b.under frame) v = frame.add v >>= fun frame => .ok (b.under frame) := rfl

theorem push_eq_ok {b c : Builder} {frame : Frame} :
    push b frame = .ok c ↔ b.stack.length + 1 ≤ 64 ∧ c = b.under frame := by
  unfold push MAX_DEPTH
  dsimp only
  rw [seq_eq_ok, raiseIf_eq_ok, pure_eq_ok]
  refine and_congr ?_ eq_comm
  rw [List.length_cons]
  omega

/-- A collection opens: it has no anchor and no tag, and it is not too deep. -/
theorem built_open_iff {b c : Builder} (anchor tag : Option Str) (frame : Frame) {event : Event}
    (hstep : step b event = (do
      lift (refuse_anchor anchor)
      lift (refuse_tag tag)
      lift (push b frame))) (rest : List Event) :
    built b (event :: rest) = .ok c ↔ truthy anchor = none ∧ truthy tag = none ∧
      b.stack.length + 1 ≤ 64 ∧ built (b.under frame) rest = .ok c := by
  rw [built_cons, hstep]
  simp only [outcome_bind, outcome_lift, bind_eq_ok, exists_unit, refuse_anchor_eq_ok,
    refuse_tag_eq_ok, push_eq_ok]
  constructor
  · rintro ⟨b', ⟨ha, ht, hd, rfl⟩, h⟩
    exact ⟨ha, ht, hd, h⟩
  · rintro ⟨ha, ht, hd, h⟩
    exact ⟨_, ⟨ha, ht, hd, rfl⟩, h⟩

@[simp] theorem outcome_close_sequence (b : Builder) (items : List Value) :
    outcome (step (b.under (.seq items)) .sequence_end) = place b (.list items) := by
  simp [step, pop, Builder.under, Frame.value]

@[simp] theorem outcome_close_mapping (b : Builder) (members : List (Str × Value))
    (seen : List Str) : outcome (step (b.under (.map members none seen)) .mapping_end) =
      place b (.dict members) := by
  simp [step, pop, Builder.under, Frame.value]

/-- Each item takes its place at the end of its sequence. -/
theorem built_items_iff {items : List Node} {b c : Builder} (hdepth : b.stack.length + 1 ≤ 64)
    {rest : List Event}
    (ih : ∀ n ∈ items, ∀ (b c : Builder) (rest : List Event), b.stack.length ≤ 64 →
      (built b (n.events ++ rest) = .ok c ↔ ∃ v, Denotes n v ∧ b.stack.length + n.depth ≤ 64 ∧
        (place b v >>= fun b' => built b' rest) = .ok c)) :
    ∀ acc, built (b.under (.seq acc)) (Node.eventsOfItems items ++ rest) = .ok c ↔
      ∃ values, List.Forall₂ Denotes items values ∧
        b.stack.length + 1 + Node.depthItems items ≤ 64 ∧
          built (b.under (.seq (acc ++ values))) rest = .ok c := by
  induction items with
  | nil =>
    intro acc
    simp [Node.eventsOfItems, Node.depthItems, hdepth]
  | cons n items ihl =>
    intro acc
    obtain ⟨hn, hrest⟩ := List.forall_mem_cons.mp ih
    rw [Node.eventsOfItems, List.append_assoc, hn (b.under (.seq acc)) c _ hdepth]
    simp only [place_under, Frame.add, ok_bind, ihl hrest, Node.depthItems]
    constructor
    · rintro ⟨v, hv, hd, values, hvs, hds, h⟩
      refine ⟨v :: values, .cons hv hvs, ?_, ?_⟩
      · simp only [Builder.under, List.length_cons] at hd
        omega
      · rwa [List.append_assoc, List.singleton_append] at h
    · rintro ⟨_, hvs, hd, h⟩
      cases hvs with
      | @cons _ v _ values hv hvs =>
        refine ⟨v, hv, ?_, values, hvs, by omega, ?_⟩
        · simp only [Builder.under, List.length_cons]
          omega
        · rwa [List.append_assoc, List.singleton_append]

/-- A key waits for its value: it is a string, not the merge key, and new. -/
theorem add_key_eq_ok {acc : List (Str × Value)} {seen : List Str} {v : Value} {frame : Frame} :
    Frame.add v (.map acc none seen) = .ok frame ↔
      ∃ k, v = .str k ∧ k ≠ lit "<<" ∧ k ∉ seen ∧ frame = .map acc (some k) (k :: seen) := by
  unfold Frame.add
  cases v with
  | str k =>
    by_cases hmerge : k = lit "<<"
    · simp [hmerge]
    · by_cases hseen : k ∈ seen
      · simp [hmerge, hseen]
      · simp [hmerge, hseen, eq_comm]
  | _ => simp

/-- Each member takes its place under its own key, after those before it. -/
theorem built_members_iff {members : List (Node × Node)} {b c : Builder}
    (hdepth : b.stack.length + 1 ≤ 64) {rest : List Event}
    (ih : ∀ m ∈ members, ∀ n, n = m.1 ∨ n = m.2 → ∀ (b c : Builder) (rest : List Event),
      b.stack.length ≤ 64 → (built b (n.events ++ rest) = .ok c ↔
        ∃ v, Denotes n v ∧ b.stack.length + n.depth ≤ 64 ∧
          (place b v >>= fun b' => built b' rest) = .ok c)) :
    ∀ acc, Distinct acc →
      (built (b.under (.map acc none (acc.map Prod.fst).reverse))
        (Node.eventsOfMembers members ++ rest) = .ok c ↔
      ∃ values : List (Str × Value),
        List.Forall₂ Denotes (members.map Prod.fst) (values.map fun v => .str v.1) ∧
        List.Forall₂ Denotes (members.map Prod.snd) (values.map Prod.snd) ∧
        (∀ v ∈ values, v.1 ≠ lit "<<") ∧ Distinct (acc ++ values) ∧
        b.stack.length + 1 + Node.depthMembers members ≤ 64 ∧
        built (b.under (.map (acc ++ values) none ((acc ++ values).map Prod.fst).reverse)) rest =
          .ok c) := by
  induction members with
  | nil =>
    intro acc hacc
    simp [Node.eventsOfMembers, Node.depthMembers, hdepth, hacc]
  | cons m members ihl =>
    intro acc hacc
    obtain ⟨hm, hrest⟩ := List.forall_mem_cons.mp ih
    have hkey := hm m.1 (Or.inl rfl)
    have hvalue := hm m.2 (Or.inr rfl)
    have hnew : ∀ {k : Str} {v : Value}, k ∉ acc.map Prod.fst → Distinct (acc ++ [(k, v)]) := by
      intro k v hk
      unfold Distinct
      rw [List.map_append, List.map_singleton, ← List.concat_eq_append]
      exact List.Nodup.concat hk hacc
    have hadd : ∀ {k : Str} {v : Value}, k ∉ acc.map Prod.fst →
        Frame.add v (.map acc (some k) (k :: (acc.map Prod.fst).reverse)) =
          .ok (.map (acc ++ [(k, v)]) none ((acc ++ [(k, v)]).map Prod.fst).reverse) := by
      intro k v hk
      simp [Frame.add, setItem_append hk]
    rw [Node.eventsOfMembers, List.append_assoc, hkey (b.under _) c _ hdepth]
    constructor
    · rintro ⟨kv, hkv, hkd, h⟩
      rw [place_under] at h
      obtain ⟨b1, hplace, h⟩ := bind_eq_ok.mp h
      obtain ⟨f1, hf1, hb1⟩ := bind_eq_ok.mp hplace
      obtain ⟨k, rfl, hmerge, hseen, rfl⟩ := add_key_eq_ok.mp hf1
      cases hb1
      rw [List.mem_reverse] at hseen
      rw [List.append_assoc, hvalue (b.under _) c _ hdepth] at h
      obtain ⟨v, hv, hvd, h⟩ := h
      rw [place_under, hadd hseen, ok_bind, ok_bind, ihl hrest _ (hnew hseen)] at h
      obtain ⟨values, hks, hvs, hms, hds, hdd, h⟩ := h
      refine ⟨(k, v) :: values, .cons hkv hks, .cons hv hvs,
        List.forall_mem_cons.mpr ⟨hmerge, hms⟩, ?_, ?_, ?_⟩
      · rwa [List.append_assoc, List.singleton_append] at hds
      · simp only [Node.depthMembers]
        simp only [Builder.under, List.length_cons] at hkd hvd
        omega
      · rwa [List.append_assoc, List.singleton_append] at h
    · rintro ⟨values, hks, hvs, hms, hds, hdd, h⟩
      cases values with
      | nil => cases hks
      | cons kv values =>
        obtain ⟨k, v⟩ := kv
        rw [List.map_cons, List.map_cons, List.forall₂_cons] at hks hvs
        simp only [Node.depthMembers] at hdd
        have hseen : k ∉ acc.map Prod.fst := by
          intro hmem
          unfold Distinct at hds
          rw [List.map_append, List.nodup_append] at hds
          exact hds.2.2 k hmem k (by simp) rfl
        obtain ⟨hmerge, hms⟩ := List.forall_mem_cons.mp hms
        refine ⟨.str k, hks.1, ?_, ?_⟩
        · simp only [Builder.under, List.length_cons]
          omega
        · rw [place_under, add_key_eq_ok.mpr ⟨k, rfl, hmerge, by rwa [List.mem_reverse], rfl⟩,
            ok_bind, ok_bind, List.append_assoc, hvalue (b.under _) c _ hdepth]
          refine ⟨v, hvs.1, ?_, ?_⟩
          · simp only [Builder.under, List.length_cons]
            omega
          · rw [place_under, hadd hseen, ok_bind, ok_bind, ihl hrest _ (hnew hseen)]
            refine ⟨values, hks.2, hvs.2, hms, ?_, by omega, ?_⟩
            · rwa [List.append_assoc, List.singleton_append]
            · rwa [List.append_assoc, List.singleton_append]

/-- The events of a node put the value that it denotes in its place, and they
fail where it denotes none or nests too deep. -/
theorem built_node_iff (n : Node) : ∀ (b c : Builder) (rest : List Event), b.stack.length ≤ 64 →
    (built b (n.events ++ rest) = .ok c ↔ ∃ v, Denotes n v ∧ b.stack.length + n.depth ≤ 64 ∧
      (place b v >>= fun b' => built b' rest) = .ok c) := by
  induction n with
  | aliased anchor =>
    intro b c rest _
    simp only [Node.events, List.singleton_append, built_cons]
    constructor
    · intro h
      cases h
    · rintro ⟨v, hv, -⟩
      cases hv
  | scalar anchor tag style value =>
    intro b c rest hb
    simp only [Node.events, List.singleton_append, built_cons, step, outcome_bind, outcome_lift,
      Node.depth, Nat.add_zero, hb, true_and]
    constructor
    · intro h
      obtain ⟨b', hb', h⟩ := bind_eq_ok.mp h
      obtain ⟨ha, hb'⟩ := seq_eq_ok.mp hb'
      obtain ⟨v, hv, hb'⟩ := bind_eq_ok.mp hb'
      exact ⟨v, .scalar (refuse_anchor_eq_ok.mp ha) hv, bind_eq_ok.mpr ⟨b', hb', h⟩⟩
    · rintro ⟨v, hv, h⟩
      cases hv with
      | scalar ha hv => rwa [refuse_anchor_eq_ok.mpr ha, ok_bind, hv, ok_bind]
  | sequence anchor tag items ih =>
    intro b c rest _
    rw [Node.events, List.cons_append, List.append_assoc,
      built_open_iff anchor tag (.seq []) rfl]
    constructor
    · rintro ⟨ha, ht, hd, h⟩
      obtain ⟨values, hvs, hds, h⟩ := (built_items_iff hd ih []).mp h
      refine ⟨.list values, .sequence ha ht hvs, ?_, ?_⟩
      · rw [Node.depth]
        omega
      · rwa [List.singleton_append, built_cons, outcome_close_sequence] at h
    · rintro ⟨v, hv, hd, h⟩
      rw [Node.depth] at hd
      cases hv with
      | sequence ha ht hvs =>
        refine ⟨ha, ht, by omega, (built_items_iff (by omega) ih []).mpr ⟨_, hvs, by omega, ?_⟩⟩
        rwa [List.singleton_append, built_cons, outcome_close_sequence]
  | mapping anchor tag members ih =>
    intro b c rest _
    have ih' : ∀ m ∈ members, ∀ n, n = m.1 ∨ n = m.2 → ∀ (b c : Builder) (rest : List Event),
        b.stack.length ≤ 64 → (built b (n.events ++ rest) = .ok c ↔
          ∃ v, Denotes n v ∧ b.stack.length + n.depth ≤ 64 ∧
            (place b v >>= fun b' => built b' rest) = .ok c) := by
      rintro m hm n (rfl | rfl)
      · exact (ih m hm).1
      · exact (ih m hm).2
    rw [Node.events, List.cons_append, List.append_assoc,
      built_open_iff anchor tag (.map [] none []) rfl]
    constructor
    · rintro ⟨ha, ht, hd, h⟩
      obtain ⟨values, hks, hvs, hms, hds, hdd, h⟩ :=
        (built_members_iff hd ih' [] List.nodup_nil).mp h
      refine ⟨.dict values, .mapping ha ht hks hvs hms hds, ?_, ?_⟩
      · rw [Node.depth]
        omega
      · rwa [List.singleton_append, built_cons, outcome_close_mapping] at h
    · rintro ⟨v, hv, hd, h⟩
      rw [Node.depth] at hd
      cases hv with
      | mapping ha ht hks hvs hms hds =>
        refine ⟨ha, ht, by omega, (built_members_iff (by omega) ih' [] List.nodup_nil).mpr
          ⟨_, hks, hvs, hms, hds, by omega, ?_⟩⟩
        rwa [List.singleton_append, built_cons, outcome_close_mapping]

/-! ## What is refused -/

/-- A key that is a string and is not refused denotes that string. -/
theorem denotes_of_key {n : Node} {s : Str} (h : n.key = some s) (hr : ¬ Refused n) :
    Denotes n (.str s) := by
  cases n with
  | scalar anchor tag style value =>
    have ha : truthy anchor = none := by
      by_contra ha
      exact hr (.scalar_anchor ha)
    refine .scalar ha ?_
    rw [Node.key] at h
    split at h
    · rename_i t ht
      rw [ht, Option.some.inj h]
    · cases h
  | aliased anchor => cases h
  | sequence anchor tag items => cases h
  | mapping anchor tag members => cases h

/-- A list whose members all have something is a list of what they have. -/
theorem forall₂_of_forall_exists {α β : Type} {R : α → β → Prop} {l : List α}
    (h : ∀ a ∈ l, ∃ b, R a b) : ∃ bs, List.Forall₂ R l bs := by
  induction l with
  | nil => exact ⟨[], .nil⟩
  | cons a l ih =>
    obtain ⟨ha, hl⟩ := List.forall_mem_cons.mp h
    obtain ⟨b, hb⟩ := ha
    obtain ⟨bs, hbs⟩ := ih hl
    exact ⟨b :: bs, .cons hb hbs⟩

theorem exists_of_forall₂ {α β : Type} {R : α → β → Prop} {l : List α} {bs : List β}
    (h : List.Forall₂ R l bs) {a : α} (ha : a ∈ l) : ∃ b ∈ bs, R a b := by
  induction h with
  | nil => cases ha
  | @cons a' b l bs hb _ ih =>
    rcases List.mem_cons.mp ha with rfl | ha
    · exact ⟨b, List.mem_cons_self, hb⟩
    · obtain ⟨c, hc, hac⟩ := ih ha
      exact ⟨c, List.mem_cons_of_mem _ hc, hac⟩

theorem Node.mem_nodes_self (n : Node) : n ∈ n.nodes := by
  cases n <;> simp [Node.nodes]

theorem key_of_forall₂ {members : List (Node × Node)} {values : List (Str × Value)}
    (h : List.Forall₂ Denotes (members.map Prod.fst) (values.map fun v => .str v.1)) :
    (members.map fun m => m.1.key) = (values.map Prod.fst).map some := by
  induction members generalizing values with
  | nil =>
    cases values with
    | nil => rfl
    | cons v values => cases h
  | cons m members ih =>
    cases values with
    | nil => cases h
    | cons v values =>
      rw [List.map_cons, List.map_cons, List.forall₂_cons] at h
      rw [List.map_cons, List.map_cons, List.map_cons, h.1.key_eq, ih h.2]

/-- A node denotes a value exactly when the subset refuses nothing inside it. -/
theorem denotes_iff (n : Node) : (∃ v, Denotes n v) ↔ ∀ m ∈ n.nodes, ¬ Refused m := by
  induction n with
  | aliased anchor =>
    refine iff_of_false ?_ fun h => h _ (by simp [Node.nodes]) (.aliased anchor)
    rintro ⟨v, hv⟩
    cases hv
  | scalar anchor tag style value =>
    rw [Node.nodes, List.forall_mem_singleton]
    · constructor
      · rintro ⟨v, hv⟩ hr
        cases hv with
        | scalar ha hv =>
          cases hr with
          | scalar_anchor h => exact h ha
          | scalar_tag h => exact h (tag_of_scalar_ok hv)
          | scalar_value h => rw [hv] at h; cases h
      · intro hr
        cases hv : outcome (yaml_scalar_value tag style value) with
        | error e => exact (hr (.scalar_value hv)).elim
        | ok v =>
          refine ⟨v, .scalar ?_ hv⟩
          by_contra ha
          exact hr (.scalar_anchor ha)
    · simp
    · simp
  | sequence anchor tag items ih =>
    rw [Node.nodes, List.forall_mem_cons]
    constructor
    · rintro ⟨v, hv⟩
      cases hv with
      | @sequence _ _ _ values ha ht hvs =>
        refine ⟨fun hr => ?_, fun m hm => ?_⟩
        · cases hr with
          | sequence_anchor h => exact h ha
          | sequence_tag h => exact h ht
        · obtain ⟨i, hi, hm⟩ := Node.mem_nodesOfItems.mp hm
          obtain ⟨w, -, hw⟩ := exists_of_forall₂ hvs hi
          exact (ih i hi).mp ⟨w, hw⟩ m hm
    · rintro ⟨hr, hitems⟩
      have hall : ∀ i ∈ items, ∃ v, Denotes i v := fun i hi =>
        (ih i hi).mpr fun m hm => hitems m (Node.mem_nodesOfItems.mpr ⟨i, hi, hm⟩)
      obtain ⟨values, hvs⟩ := forall₂_of_forall_exists hall
      refine ⟨.list values, .sequence ?_ ?_ hvs⟩
      · by_contra ha
        exact hr (.sequence_anchor ha)
      · by_contra ht
        exact hr (.sequence_tag ht)
  | mapping anchor tag members ih =>
    rw [Node.nodes, List.forall_mem_cons]
    constructor
    · rintro ⟨v, hv⟩
      cases hv with
      | @mapping _ _ _ values ha ht hks hvs hms hds =>
        have hkeys := key_of_forall₂ hks
        refine ⟨fun hr => ?_, fun n hn => ?_⟩
        · cases hr with
          | mapping_anchor h => exact h ha
          | mapping_tag h => exact h ht
          | key hm h =>
            have hmem : none ∈ (values.map Prod.fst).map some :=
              hkeys ▸ List.mem_map.mpr ⟨_, hm, h⟩
            simp at hmem
          | merge hm h =>
            have hmem : some (lit "<<") ∈ (values.map Prod.fst).map some :=
              hkeys ▸ List.mem_map.mpr ⟨_, hm, h⟩
            rw [List.mem_map_of_injective (Option.some_injective _)] at hmem
            obtain ⟨v, hv, heq⟩ := List.mem_map.mp hmem
            exact hms v hv heq
          | duplicate h =>
            rw [hkeys] at h
            exact h (List.Nodup.map (Option.some_injective _) hds)
        · obtain ⟨m, hm, hn⟩ := Node.mem_nodesOfMembers.mp hn
          rcases hn with hn | hn
          · obtain ⟨w, -, hw⟩ := exists_of_forall₂ hks (List.mem_map_of_mem hm)
            exact (ih m hm).1.mp ⟨w, hw⟩ n hn
          · obtain ⟨w, -, hw⟩ := exists_of_forall₂ hvs (List.mem_map_of_mem hm)
            exact (ih m hm).2.mp ⟨w, hw⟩ n hn
    · rintro ⟨hr, hmembers⟩
      have hall : ∀ m ∈ members, ∃ v : Str × Value, Denotes m.1 (.str v.1) ∧ Denotes m.2 v.2 := by
        intro m hm
        have hkey : ¬ Refused m.1 :=
          hmembers _ (Node.mem_nodesOfMembers.mpr ⟨m, hm, Or.inl m.1.mem_nodes_self⟩)
        obtain ⟨v, hv⟩ := (ih m hm).2.mpr fun n hn =>
          hmembers n (Node.mem_nodesOfMembers.mpr ⟨m, hm, Or.inr hn⟩)
        cases hk : m.1.key with
        | none => exact (hr (.key hm hk)).elim
        | some k => exact ⟨(k, v), denotes_of_key hk hkey, hv⟩
      obtain ⟨values, hvs⟩ := forall₂_of_forall_exists hall
      have hks : List.Forall₂ Denotes (members.map Prod.fst)
          (values.map fun v => .str v.1) := by
        rw [List.forall₂_map_left_iff, List.forall₂_map_right_iff]
        exact hvs.imp fun _ _ h => h.1
      have hkeys := key_of_forall₂ hks
      refine ⟨.dict values, .mapping ?_ ?_ hks ?_ ?_ ?_⟩
      · by_contra ha
        exact hr (.mapping_anchor ha)
      · by_contra ht
        exact hr (.mapping_tag ht)
      · rw [List.forall₂_map_left_iff, List.forall₂_map_right_iff]
        exact hvs.imp fun _ _ h => h.2
      · intro v hv heq
        have hmem : some (lit "<<") ∈ members.map fun m => m.1.key :=
          hkeys ▸ List.mem_map_of_mem (heq ▸ List.mem_map_of_mem hv)
        obtain ⟨m, hm, hmerge⟩ := List.mem_map.mp hmem
        exact hr (.merge hm hmerge)
      · by_contra hd
        refine hr (.duplicate fun hn => hd ?_)
        rw [hkeys] at hn
        exact hn.of_map some

/-! ## The two spellings of a plain style -/

/-- A plain style, as the parser in Python spells it. -/
def respell (style : Option Str) : Option Str := if isPlain style then none else style

mutual

/-- The node with every plain style spelled in one way. -/
def Node.respelled : Node → Node
  | .aliased anchor => .aliased anchor
  | .scalar anchor tag style value => .scalar anchor tag (respell style) value
  | .sequence anchor tag items => .sequence anchor tag (Node.respelledItems items)
  | .mapping anchor tag members => .mapping anchor tag (Node.respelledMembers members)

def Node.respelledItems : List Node → List Node
  | [] => []
  | n :: rest => n.respelled :: respelledItems rest

def Node.respelledMembers : List (Node × Node) → List (Node × Node)
  | [] => []
  | m :: rest => (m.1.respelled, m.2.respelled) :: respelledMembers rest

end

def Event.respelled : Event → Event
  | .scalar anchor tag style value => .scalar anchor tag (respell style) value
  | event => event

theorem isPlain_respell (style : Option Str) : isPlain (respell style) = isPlain style := by
  unfold respell
  by_cases h : isPlain style = true
  · rw [if_pos h, h]
    rfl
  · rw [if_neg h]

theorem events_respelled (n : Node) : n.respelled.events = n.events.map Event.respelled := by
  induction n with
  | aliased anchor => rfl
  | scalar anchor tag style value => rfl
  | sequence anchor tag items ih =>
    have hitems : Node.eventsOfItems (Node.respelledItems items) =
        (Node.eventsOfItems items).map Event.respelled := by
      induction items with
      | nil => rfl
      | cons n items ihl =>
        obtain ⟨hn, hrest⟩ := List.forall_mem_cons.mp ih
        simp [Node.respelledItems, Node.eventsOfItems, hn, ihl hrest]
    simp [Node.respelled, Node.events, Event.respelled, hitems]
  | mapping anchor tag members ih =>
    have hmembers : Node.eventsOfMembers (Node.respelledMembers members) =
        (Node.eventsOfMembers members).map Event.respelled := by
      induction members with
      | nil => rfl
      | cons m members ihl =>
        obtain ⟨hm, hrest⟩ := List.forall_mem_cons.mp ih
        simp [Node.respelledMembers, Node.eventsOfMembers, hm.1, hm.2, ihl hrest]
    simp [Node.respelled, Node.events, Event.respelled, hmembers]

theorem step_respelled (b : Builder) (event : Event) : step b event.respelled = step b event := by
  cases event with
  | scalar anchor tag style value =>
    simp only [Event.respelled, step, yaml_scalar_value, isPlain_respell]
  | _ => rfl

theorem build_respelled (events : List Event) :
    ∀ b, build b (events.map Event.respelled) = build b events := by
  induction events with
  | nil => exact fun _ => rfl
  | cons event events ih =>
    intro b
    simp only [List.map_cons, build, step_respelled, ih]

theorem Node.isMapping_respelled (n : Node) : n.respelled.isMapping = n.isMapping := by
  cases n <;> rfl

/-! ## Exactness -/

/-- The document of a node is built from the events of its root. -/
theorem value_from_node (n : Node) : outcome (value_from_yaml_events (stream [n.events])) =
    if n.isMapping then
      built { stack := [], root := none } n.events >>= fun b =>
        match b.stack, b.root with
        | [], some value => .ok value
        | _, _ => .error (fail .source_syntax_invalid "Source is not well-formed YAML.")
    else if isEmptyDocument n.events then
      .error (fail .source_syntax_invalid "Source contains an empty document.")
    else .error (fail .source_construct_unsupported "The root of a YAML document must be a mapping.") := by
  unfold value_from_yaml_events built
  simp only [outcome_bind, outcome_lift, body_of_stream n.isNode_events, ok_bind]
  cases n with
  | mapping anchor tag members =>
    have hempty : isEmptyDocument (Node.mapping anchor tag members).events = false := by
      rw [Node.events]
      rfl
    have hstarts : startsMapping (Node.mapping anchor tag members).events = true := by
      rw [Node.events]
      rfl
    rw [raiseIf_neg (by simp [hempty]), raiseIf_neg (by simp [hstarts]), ok_bind, ok_bind,
      if_pos (by rfl)]
    refine congrArg _ (funext fun b => ?_)
    obtain ⟨stack, root⟩ := b
    cases stack with
    | nil => cases root <;> rfl
    | cons frame stack => rfl
  | aliased anchor => rfl
  | scalar anchor tag style value =>
    rw [if_neg (by simp [Node.isMapping])]
    by_cases hempty : isEmptyDocument (Node.scalar anchor tag style value).events = true
    · rw [raiseIf_pos hempty, if_pos hempty]
      rfl
    · rw [raiseIf_neg hempty, if_neg hempty]
      rfl
  | sequence anchor tag items =>
    have hempty : isEmptyDocument (Node.sequence anchor tag items).events = false := by
      rw [Node.events]
      rfl
    have hstarts : startsMapping (Node.sequence anchor tag items).events = false := by
      rw [Node.events]
      rfl
    rw [raiseIf_neg (by simp [hempty]), raiseIf_pos hstarts, hempty]
    rfl

/-- The builder is exact. Of a document of one node it returns the value that
the node denotes, when the node is a mapping that nests at most 64 deep; it
fails exactly when some node inside is refused, the nesting is deeper or the
root is no mapping, and its failure is typed unless the runtime does not
convert an integer. The two spellings of a plain style make no difference. -/
theorem value_from_yaml_events_exact (n : Node) :
    (∀ v, outcome (value_from_yaml_events (stream [n.events])) = .ok v ↔
      Denotes n v ∧ n.depth ≤ 64 ∧ n.isMapping = true) ∧
    ((∃ e, outcome (value_from_yaml_events (stream [n.events])) = .error e) ↔
      (∃ m ∈ n.nodes, Refused m) ∨ 64 < n.depth ∨ n.isMapping = false) ∧
    (∀ e, outcome (value_from_yaml_events (stream [n.events])) = .error e →
      e.IsVerify ∨ e = .value_error) ∧
    outcome (value_from_yaml_events (stream [n.respelled.events])) =
      outcome (value_from_yaml_events (stream [n.events])) := by
  have hok : ∀ v, outcome (value_from_yaml_events (stream [n.events])) = .ok v ↔
      Denotes n v ∧ n.depth ≤ 64 ∧ n.isMapping = true := by
    intro v
    rw [value_from_node]
    by_cases hroot : n.isMapping = true
    · rw [if_pos hroot]
      constructor
      · intro h
        obtain ⟨b, hb, h⟩ := bind_eq_ok.mp h
        rw [← n.events.append_nil, built_node_iff n _ _ _ (by simp)] at hb
        obtain ⟨w, hw, hd, hb⟩ := hb
        obtain rfl : ({ stack := [], root := some w } : Builder) = b := Except.ok.inj hb
        cases h
        exact ⟨hw, by simpa using hd, hroot⟩
      · rintro ⟨hv, hd, -⟩
        have hb := (built_node_iff n { stack := [], root := none }
          { stack := [], root := some v } [] (by simp)).mpr ⟨v, hv, by simpa using hd, rfl⟩
        rw [List.append_nil] at hb
        rw [hb]
        rfl
    · rw [if_neg hroot]
      refine iff_of_false ?_ fun h => hroot h.2.2
      split <;> simp
  refine ⟨hok, ?_, ?_, ?_⟩
  · have hfail : (∃ e, outcome (value_from_yaml_events (stream [n.events])) = .error e) ↔
        ¬ ∃ v, outcome (value_from_yaml_events (stream [n.events])) = .ok v := by
      cases outcome (value_from_yaml_events (stream [n.events])) <;> simp
    rw [hfail]
    simp only [hok, exists_and_right, denotes_iff, not_and_or, not_forall, not_not, not_le,
      Bool.not_eq_true, exists_prop]
  · intro e he
    have hsat := @value_from_yaml_events_sat [n.events] (by simpa using n.isNode_events)
    rcases outcome_sat hsat with ⟨v, hv, -⟩ | ⟨e', he', hor⟩
    · rw [hv] at he
      cases he
    · rw [he'] at he
      cases he
      exact hor
  · have hbuilt : ∀ b, built b n.respelled.events = built b n.events := by
      intro b
      rw [events_respelled, built, built, build_respelled]
    have hempty : isEmptyDocument n.respelled.events = isEmptyDocument n.events := by
      rw [events_respelled]
      cases n.events with
      | nil => rfl
      | cons event rest =>
        cases rest with
        | nil => cases event <;> simp [Event.respelled, isEmptyDocument, isPlain_respell]
        | cons event' rest => cases event <;> rfl
    rw [value_from_node, value_from_node, Node.isMapping_respelled, hbuilt, hempty]

end vfy.load
