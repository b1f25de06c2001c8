-- What the equality of a rule answers, set against the canonical text of its
-- operands. `_equal` walks the lists itself and gives a mapping to the host,
-- whose own equality takes a boolean for the integer that it stands for.
import VerifyRun.Semantics
import VerifyRun.RoundTrip

namespace vfy

open keys

namespace Value

/-! ## Values that are the same -/

theorem same_list_iff {xs ys : List Value} :
    Same (list xs) (list ys) ↔ List.Forall₂ Same xs ys :=
  ⟨fun h => by cases h with | list h => exact h, .list⟩

/-- Members whose keys are looked up in a mapping with as many members are
that mapping. -/
theorem perm_of_found {ms ns : List (Str × Value)} (hm : Distinct ms)
    (hlen : ms.length = ns.length) {f : Str × Value → Value}
    (h : ∀ m ∈ ms, ns.lookup m.1 = some (f m)) : (ms.map fun m => (m.1, f m)).Perm ns := by
  have hd : Distinct (ms.map fun m => (m.1, f m)) := by
    unfold Distinct at hm ⊢
    rw [List.map_map]
    exact hm
  refine List.Subperm.perm_of_length_le (List.subperm_of_subset (List.Nodup.of_map _ hd) ?_)
    (by simp [hlen])
  intro p hp
  obtain ⟨m, hmem, rfl⟩ := List.mem_map.mp hp
  exact mem_of_lookup (h m hmem)

/-- Two mappings are the same when every member of the one is in the other. -/
theorem same_dict_iff {ms ns : List (Str × Value)} (hm : Distinct ms) (hn : Distinct ns) :
    Same (dict ms) (dict ns) ↔
      ms.length = ns.length ∧ ∀ m ∈ ms, ∃ w, ns.lookup m.1 = some w ∧ Same m.2 w := by
  constructor
  · intro h
    cases h with
    | @dict _ ns' _ hk hv hp =>
      have hlen : ms.length = ns'.length := by simpa using congrArg List.length hk
      refine ⟨hlen.trans hp.length_eq, ?_⟩
      intro m hmem
      obtain ⟨i, hi, rfl⟩ := List.getElem_of_mem hmem
      have hi' : i < ns'.length := hlen ▸ hi
      have hkey : ms[i].1 = ns'[i].1 := by
        have := congrArg (fun l => l[i]?) hk
        simpa [List.getElem?_eq_getElem hi, List.getElem?_eq_getElem hi'] using this
      refine ⟨ns'[i].2, ?_, ?_⟩
      · rw [lookup_eq_some_iff hn, hkey]
        exact hp.mem_iff.mp (List.getElem_mem hi')
      · have := hv.get (i := i) (by simpa using hi) (by simpa using hi')
        simpa using this
  · rintro ⟨hlen, h⟩
    have : Nonempty Value := ⟨null⟩
    choose! f hf using h
    have hp := perm_of_found hm hlen fun m hmem => (hf m hmem).1
    refine @Same.dict ms (ms.map fun m => (m.1, f m)) ns ?_ ?_ hp
    · rw [List.map_map]
      rfl
    · rw [List.map_map, List.forall₂_map_left_iff, List.forall₂_map_right_iff, List.forall₂_same]
      exact fun m hmem => (hf m hmem).2

end Value

namespace gate

open python outcomes

/-! ## What the host makes of a value -/

mutual

/-- The value with every boolean inside a mapping as the integer that it
stands for. A value that is inside a mapping already has all of them so. -/
def read_by_host (inside : Bool) : Value → Value
  | .bool b => if inside then .int (if b then 1 else 0) else .bool b
  | .list items => .list (read_items_by_host inside items)
  | .dict members => .dict (read_members_by_host members)
  | v => v

def read_items_by_host (inside : Bool) : List Value → List Value
  | [] => []
  | v :: rest => read_by_host inside v :: read_items_by_host inside rest

def read_members_by_host : List (Str × Value) → List (Str × Value)
  | [] => []
  | (k, v) :: rest => (k, read_by_host true v) :: read_members_by_host rest

end

theorem read_items_by_host_eq (inside : Bool) (items : List Value) :
    read_items_by_host inside items = items.map (read_by_host inside) := by
  induction items with
  | nil => rfl
  | cons v rest ih => simp [read_items_by_host, ih]

theorem read_members_by_host_eq (members : List (Str × Value)) :
    read_members_by_host members = members.map fun m => (m.1, read_by_host true m.2) := by
  induction members with
  | nil => rfl
  | cons m rest ih => simp [read_members_by_host, ih]

@[simp] theorem read_by_host_null (inside : Bool) : read_by_host inside .null = .null := rfl

@[simp] theorem read_by_host_bool (inside b : Bool) : read_by_host inside (.bool b) =
    if inside then .int (if b then 1 else 0) else .bool b := rfl

@[simp] theorem read_by_host_int (inside : Bool) (i : Int) :
    read_by_host inside (.int i) = .int i := rfl

@[simp] theorem read_by_host_str (inside : Bool) (s : Str) :
    read_by_host inside (.str s) = .str s := rfl

@[simp] theorem read_by_host_list (inside : Bool) (items : List Value) :
    read_by_host inside (.list items) = .list (items.map (read_by_host inside)) :=
  congrArg Value.list (read_items_by_host_eq inside items)

@[simp] theorem read_by_host_dict (inside : Bool) (members : List (Str × Value)) :
    read_by_host inside (.dict members) =
      .dict (members.map fun m => (m.1, read_by_host true m.2)) :=
  congrArg Value.dict (read_members_by_host_eq members)

theorem distinct_read {members : List (Str × Value)} (h : Distinct members) :
    Distinct (members.map fun m => (m.1, read_by_host true m.2)) := h.map_snd _

/-- Two mappings are the same to the host when it finds every member of the
one in the other. -/
theorem same_read_dict {inside : Bool} {ms ns : List (Str × Value)} (hm : Distinct ms)
    (hn : Distinct ns) :
    Value.Same (read_by_host inside (.dict ms)) (read_by_host inside (.dict ns)) ↔
      ms.length = ns.length ∧ ∀ m ∈ ms, ∃ w, ns.lookup m.1 = some w ∧
        Value.Same (read_by_host true m.2) (read_by_host true w) := by
  rw [read_by_host_dict, read_by_host_dict, Value.same_dict_iff (distinct_read hm)
    (distinct_read hn)]
  simp only [List.length_map, List.mem_map, forall_exists_index, and_imp,
    forall_apply_eq_imp_iff₂, lookup_map_snd, Option.map_eq_some_iff]
  refine and_congr_right fun _ => forall₂_congr fun m _ => ?_
  constructor
  · rintro ⟨_, ⟨w, hw, rfl⟩, h⟩
    exact ⟨w, hw, h⟩
  · rintro ⟨w, hw, h⟩
    exact ⟨_, ⟨w, hw, rfl⟩, h⟩

theorem same_read_list {inside : Bool} {xs ys : List Value} :
    Value.Same (read_by_host inside (.list xs)) (read_by_host inside (.list ys)) ↔
      List.Forall₂ (fun x y => Value.Same (read_by_host inside x) (read_by_host inside y)) xs ys := by
  rw [read_by_host_list, read_by_host_list, Value.same_list_iff, List.forall₂_map_left_iff,
    List.forall₂_map_right_iff]

theorem forall₂_congr_left {R S : Value → Value → Prop} {xs ys : List Value}
    (h : ∀ x ∈ xs, ∀ y ∈ ys, R x y ↔ S x y) : List.Forall₂ R xs ys ↔ List.Forall₂ S xs ys := by
  induction xs generalizing ys with
  | nil => cases ys <;> simp
  | cons x xs ih =>
    cases ys with
    | nil => simp
    | cons y ys =>
      rw [List.forall₂_cons, List.forall₂_cons, h x (by simp) y (by simp),
        ih fun z hz w hw => h z (by simp [hz]) w (by simp [hw])]

theorem not_same_list {xs : List Value} {w : Value} (h : ∀ ys, w ≠ .list ys) :
    ¬ Value.Same (.list xs) w := by
  intro hs
  cases hs with
  | list _ => exact h _ rfl

theorem not_same_dict {ms : List (Str × Value)} {w : Value} (h : ∀ ns, w ≠ .dict ns) :
    ¬ Value.Same (.dict ms) w := by
  intro hs
  cases hs with
  | dict _ _ _ => exact h _ rfl

theorem same_leaf {v w : Value} (hv : ∀ xs, v ≠ .list xs) (hd : ∀ ms, v ≠ .dict ms) :
    Value.Same v w ↔ v = w := by
  constructor
  · intro h
    cases h with
    | list _ => exact absurd rfl (hv _)
    | dict _ _ _ => exact absurd rfl (hd _)
    | _ => rfl
  · rintro rfl
    cases v with
    | null => exact .null
    | bool b => exact .bool b
    | int i => exact .int i
    | str s => exact .str s
    | list xs => exact absurd rfl (hv _)
    | dict ms => exact absurd rfl (hd _)

/-! ## The two equalities -/

/-- The host's equality compares what it makes of the values. -/
theorem host_eq_iff {v w : Value} (hv : v.DistinctKeys) (hw : w.DistinctKeys) :
    python.eq v w = true ↔ Value.Same (read_by_host true v) (read_by_host true w) := by
  induction v generalizing w with
  | null => cases w <;> simp [python.eq, eqBy, eqScalar, same_leaf]
  | bool b =>
    cases w with
    | bool c => cases b <;> cases c <;> simp [python.eq, eqBy, eqScalar, same_leaf]
    | int j => simp [python.eq, eqBy, eqScalar, same_leaf, eq_comm]
    | _ => simp [python.eq, eqBy, eqScalar, same_leaf]
  | int i => cases w <;> simp [python.eq, eqBy, eqScalar, same_leaf]
  | str s => cases w <;> simp [python.eq, eqBy, eqScalar, same_leaf]
  | list xs ih =>
    cases hw with
    | @list ys hys =>
      cases hv with
      | list hxs =>
        rw [same_read_list, python.eq, eqBy, eqItems_iff]
        exact forall₂_congr_left fun x hx y hy => ih x hx (hxs x hx) (hys y hy)
    | _ => simp [python.eq, eqBy, eqScalar, not_same_list]
  | dict ms ih =>
    cases hw with
    | @dict ns hn hns =>
      cases hv with
      | dict hm hms =>
        rw [same_read_dict hm hn, python.eq, eqBy, Bool.and_eq_true, decide_eq_true_iff,
          eqMembers_iff]
        refine and_congr_right fun _ => forall₂_congr fun m hmem => exists_congr fun w => ?_
        exact and_congr_right fun hl => ih m hmem (hms m hmem) (hns _ (mem_of_lookup hl))
    | _ => simp [python.eq, eqBy, eqScalar, not_same_dict]

theorem equal_items_iff {xs ys : List Value} :
    equal_items xs ys = true ↔ List.Forall₂ (fun x y => equal_values x y = true) xs ys := by
  induction xs generalizing ys with
  | nil => cases ys <;> simp [equal_items]
  | cons x xs ih => cases ys <;> simp [equal_items, ih]

/-- `_equal` compares two values as they are, down to the mappings, and lets
the host compare those. -/
theorem equal_values_iff {v w : Value} (hv : v.DistinctKeys) (hw : w.DistinctKeys) :
    equal_values v w = true ↔ Value.Same (read_by_host false v) (read_by_host false w) := by
  induction v generalizing w with
  | null => cases w <;> simp [equal_values, eqExact, same_leaf]
  | bool b => cases w <;> simp [equal_values, eqExact, same_leaf]
  | int i => cases w <;> simp [equal_values, eqExact, same_leaf]
  | str s => cases w <;> simp [equal_values, eqExact, same_leaf]
  | list xs ih =>
    cases hw with
    | @list ys hys =>
      cases hv with
      | list hxs =>
        rw [same_read_list, equal_values, equal_items_iff]
        exact forall₂_congr_left fun x hx y hy => ih x hx (hxs x hx) (hys y hy)
    | _ => simp [equal_values, eqExact, not_same_list]
  | dict ms _ =>
    cases w with
    | dict ns =>
      rw [equal_values, host_eq_iff hv hw, read_by_host_dict, read_by_host_dict,
        read_by_host_dict, read_by_host_dict]
    | _ => simp [equal_values, eqExact, not_same_dict]

/-! ## Where the host is mistaken -/

/-- At one place inside a mapping, the one value has a boolean and the other
the integer that it stands for. -/
inductive Mistakes : Bool → Value → Value → Prop where
  | boolean (b : Bool) : Mistakes true (.bool b) (.int (if b then 1 else 0))
  | integer (b : Bool) : Mistakes true (.int (if b then 1 else 0)) (.bool b)
  | item {inside : Bool} {xs ys : List Value} {i : Nat} {x y : Value} (hx : xs[i]? = some x)
      (hy : ys[i]? = some y) (h : Mistakes inside x y) : Mistakes inside (.list xs) (.list ys)
  | member {inside : Bool} {ms ns : List (Str × Value)} {k : Str} {x y : Value}
      (hx : ms.lookup k = some x) (hy : ns.lookup k = some y) (h : Mistakes true x y) :
      Mistakes inside (.dict ms) (.dict ns)

/-- The two values are the same but for booleans inside their mappings, where
the other one has the integer that the boolean stands for. -/
def Mistaken (v w : Value) : Prop :=
  Mistakes false v w ∧ Value.Same (read_by_host false v) (read_by_host false w)

theorem same_of_no_mistake {inside : Bool} {v w : Value} (hv : v.DistinctKeys)
    (hw : w.DistinctKeys) (h : Value.Same (read_by_host inside v) (read_by_host inside w))
    (hno : ¬ Mistakes inside v w) : v.Same w := by
  induction v generalizing inside w with
  | null =>
    cases w with
    | null => exact .null
    | bool c => cases inside <;> simp [same_leaf] at h
    | _ => simp [same_leaf] at h
  | bool b =>
    cases inside with
    | false =>
      cases w with
      | bool c => simpa [same_leaf] using h
      | _ => simp [same_leaf] at h
    | true =>
      cases w with
      | bool c => cases b <;> cases c <;> simp [same_leaf] at h ⊢
      | int j =>
        have hj : (if b then 1 else 0) = j := by simpa [same_leaf] using h
        subst hj
        exact absurd (.boolean b) hno
      | _ => simp [same_leaf] at h
  | int i =>
    cases w with
    | bool c =>
      cases inside with
      | false => simp [same_leaf] at h
      | true =>
        have hi : i = if c then 1 else 0 := by simpa [same_leaf] using h
        subst hi
        exact absurd (.integer c) hno
    | int j => simpa [same_leaf] using h
    | _ => simp [same_leaf] at h
  | str s =>
    cases w with
    | str t => simpa [same_leaf] using h
    | bool c => cases inside <;> simp [same_leaf] at h
    | _ => simp [same_leaf] at h
  | list xs ih =>
    cases hw with
    | @list ys hys =>
      cases hv with
      | list hxs =>
        rw [same_read_list, List.forall₂_iff_get] at h
        rw [Value.same_list_iff, List.forall₂_iff_get]
        refine ⟨h.1, ?_⟩
        intro i hi hi'
        refine ih _ (List.get_mem _ _) (hxs _ (List.get_mem _ _)) (hys _ (List.get_mem _ _))
          (h.2 i hi hi') ?_
        intro hm
        exact hno (.item (List.getElem?_eq_getElem hi) (List.getElem?_eq_getElem hi') hm)
    | bool c => cases inside <;> simp [not_same_list] at h
    | _ => simp [not_same_list] at h
  | dict ms ih =>
    cases hw with
    | @dict ns hn hns =>
      cases hv with
      | dict hm hms =>
        rw [same_read_dict hm hn] at h
        rw [Value.same_dict_iff hm hn]
        refine ⟨h.1, ?_⟩
        intro m hmem
        obtain ⟨w, hl, hsame⟩ := h.2 m hmem
        refine ⟨w, hl, ih m hmem (hms m hmem) (hns _ (mem_of_lookup hl)) hsame ?_⟩
        intro hmis
        exact hno (.member ((lookup_eq_some_iff hm _ _).mpr hmem) hl hmis)
    | bool c => cases inside <;> simp [not_same_dict] at h
    | _ => simp [not_same_dict] at h

theorem no_mistake_of_same {inside : Bool} {v w : Value} (hv : v.DistinctKeys)
    (hw : w.DistinctKeys) (h : v.Same w) : ¬ Mistakes inside v w := by
  intro hm
  induction hm with
  | boolean b => cases h
  | integer b => cases h
  | @item inside xs ys i x y hx hy _ ih =>
    rw [Value.same_list_iff, List.forall₂_iff_get] at h
    obtain ⟨hi, rfl⟩ := List.getElem?_eq_some_iff.mp hx
    obtain ⟨hi', rfl⟩ := List.getElem?_eq_some_iff.mp hy
    exact ih (Value.distinctKeys_list.mp hv _ (List.getElem_mem hi))
      (Value.distinctKeys_list.mp hw _ (List.getElem_mem hi')) (h.2 i hi hi')
  | @member inside ms ns k x y hx hy _ ih =>
    have hmem := mem_of_lookup hx
    obtain ⟨hm, hms⟩ := Value.distinctKeys_dict.mp hv
    obtain ⟨hn, hns⟩ := Value.distinctKeys_dict.mp hw
    obtain ⟨w, hl, hsame⟩ := ((Value.same_dict_iff hm hn).mp h).2 _ hmem
    rw [hy, Option.some_inj] at hl
    subst hl
    exact ih (hms _ hmem) (hns _ (mem_of_lookup hy)) hsame

theorem mistaken_iff {v w : Value} (hv : v.DistinctKeys) (hw : w.DistinctKeys) :
    Mistaken v w ↔ Value.Same (read_by_host false v) (read_by_host false w) ∧ ¬ v.Same w := by
  constructor
  · rintro ⟨hm, h⟩
    exact ⟨h, fun hs => no_mistake_of_same hv hw hs hm⟩
  · rintro ⟨h, hs⟩
    refine ⟨?_, h⟩
    by_contra hno
    exact hs (same_of_no_mistake hv hw h hno)

theorem same_read {inside : Bool} {v w : Value} (hv : v.DistinctKeys) (hw : w.DistinctKeys)
    (h : v.Same w) : Value.Same (read_by_host inside v) (read_by_host inside w) := by
  induction v generalizing inside w with
  | list xs ih =>
    cases hw with
    | @list ys hys =>
      rw [Value.same_list_iff, List.forall₂_iff_get] at h
      rw [same_read_list, List.forall₂_iff_get]
      refine ⟨h.1, ?_⟩
      intro i hi hi'
      exact ih _ (List.get_mem _ _) (Value.distinctKeys_list.mp hv _ (List.get_mem _ _))
        (hys _ (List.get_mem _ _)) (h.2 i hi hi')
    | _ => cases h
  | dict ms ih =>
    cases hw with
    | @dict ns hn hns =>
      obtain ⟨hm, hms⟩ := Value.distinctKeys_dict.mp hv
      rw [Value.same_dict_iff hm hn] at h
      rw [same_read_dict hm hn]
      refine ⟨h.1, ?_⟩
      intro m hmem
      obtain ⟨w, hl, hsame⟩ := h.2 m hmem
      exact ⟨w, hl, ih m hmem (hms m hmem) (hns _ (mem_of_lookup hl)) hsame⟩
    | _ => cases h
  | bool b =>
    cases h
    cases inside <;> simp [same_leaf]
  | _ =>
    cases h
    simp [same_leaf]

/-- The two values have one canonical text. -/
def OneText (v w : Value) : Prop := canon.canonicalize v = canon.canonicalize w

theorem oneText_iff {v w : Value} (hv : v.Canonical) (hw : w.Canonical) :
    OneText v w ↔ v.Same w :=
  ⟨load.same_of_canonicalize_eq hv hw, load.canonicalize_eq_of_same hv hw⟩

/-- Values with one canonical text are always equal. -/
theorem equal_of_oneText {v w : Value} (hv : v.Canonical) (hw : w.Canonical) (h : OneText v w) :
    equal_values v w = true := by
  rw [equal_values_iff hv.distinctKeys hw.distinctKeys]
  exact same_read hv.distinctKeys hw.distinctKeys ((oneText_iff hv hw).mp h)

/-- Equal values have one canonical text, unless the host is mistaken. -/
theorem equal_cases {v w : Value} (hv : v.Canonical) (hw : w.Canonical)
    (h : equal_values v w = true) : OneText v w ∨ Mistaken v w := by
  by_cases hs : v.Same w
  · exact Or.inl ((oneText_iff hv hw).mpr hs)
  · right
    rw [mistaken_iff hv.distinctKeys hw.distinctKeys]
    exact ⟨(equal_values_iff hv.distinctKeys hw.distinctKeys).mp h, hs⟩

theorem mistaken_spec {v w : Value} (hv : v.Canonical) (hw : w.Canonical) (h : Mistaken v w) :
    equal_values v w = true ∧ ¬ OneText v w := by
  rw [equal_values_iff hv.distinctKeys hw.distinctKeys, oneText_iff hv hw]
  exact (mistaken_iff hv.distinctKeys hw.distinctKeys).mp h

/-! ## The equality of a rule -/

/-- The operands of the comparison resolve to these two values. -/
structure Compares (context : Context) (node : Value) (v w : Value) (before after : List Cause) :
    Prop where
  operands : ∃ left right between, getItem node "left" = .ok left ∧
    resolve context left before = .ok (.value v, between) ∧ getItem node "right" = .ok right ∧
    resolve context right between = .ok (.value w, after)

/-- The operand of the membership resolves to this value, and these are the
members of its list. -/
structure Contains (context : Context) (node : Value) (v : Value) (members : List Value)
    (before after : List Cause) : Prop where
  operand : ∃ operand, getItem node "operand" = .ok operand ∧
    resolve context operand before = .ok (.value v, after)
  list : ∃ list, getItem node "list" = .ok list ∧ getItem list "value" = .ok (.list members)

theorem evaluate_compare_equality {context : Context} {node v w : Value} {before after : List Cause}
    {operator : Str} (h : Compares context node v w before after)
    (ho : getItem node "operator" = .ok (.str operator)) :
    (operator = lit "==" →
      evaluate_compare context node before = .ok (settled (equal_values v w), after)) ∧
    (operator = lit "!=" →
      evaluate_compare context node before = .ok (settled (!equal_values v w), after)) := by
  obtain ⟨left, right, between, hl, hlv, hr, hrw⟩ := h.operands
  unfold evaluate_compare
  rw [lift_ok hl, run_bind hlv, lift_ok hr, run_bind hrw]
  dsimp only
  rw [lift_ok ho, lift_ok (x := string (.str operator)) rfl]
  constructor
  · rintro rfl
    rw [if_pos rfl]
    rfl
  · rintro rfl
    rw [if_neg (by simp), if_pos rfl]
    rfl

theorem evaluate_membership_contains {context : Context} {node v : Value} {members : List Value}
    {before after : List Cause} {operator : Str}
    (h : Contains context node v members before after)
    (ho : getItem node "operator" = .ok (.str operator)) :
    (operator = lit "in" → evaluate_membership context node before =
      .ok (settled (members.any fun w => equal_values v w), after)) ∧
    (operator = lit "not in" → evaluate_membership context node before =
      .ok (settled (!members.any fun w => equal_values v w), after)) := by
  obtain ⟨operand, hv, hov⟩ := h.operand
  obtain ⟨list, hl, hlv⟩ := h.list
  unfold evaluate_membership
  rw [lift_ok hv, run_bind hov]
  dsimp only
  rw [lift_ok hl, lift_ok hlv, lift_ok (x := iterate (.list members)) rfl, lift_ok ho]
  constructor
  · rintro rfl
    rw [if_pos (by simp)]
    rfl
  · rintro rfl
    rw [if_neg (by simp)]
    rfl

/-- `_equal`, and with it `==` and `!=` in any rule, answers whether the two
values have one canonical text. -/
structure AnswersExactly (v w : Value) : Prop where
  equal : equal (.value v) (.value w) = true ↔ OneText v w
  compare : ∀ {context : Context} {node : Value} {before after : List Cause} {operator : Str},
    Compares context node v w before after → getItem node "operator" = .ok (.str operator) →
      ∃ b : Bool, (b = true ↔ OneText v w) ∧
        (operator = lit "==" → evaluate_compare context node before = .ok (settled b, after)) ∧
        (operator = lit "!=" → evaluate_compare context node before = .ok (settled (!b), after))

/-- `in` and `not in` in any rule answer whether some member of the list has
the canonical text of the value. -/
structure FindsExactly (v : Value) (members : List Value) : Prop where
  found : (members.any fun w => equal (.value v) (.value w)) = true ↔ ∃ w ∈ members, OneText v w
  membership : ∀ {context : Context} {node : Value} {before after : List Cause} {operator : Str},
    Contains context node v members before after → getItem node "operator" = .ok (.str operator) →
      ∃ b : Bool, (b = true ↔ ∃ w ∈ members, OneText v w) ∧
        (operator = lit "in" → evaluate_membership context node before = .ok (settled b, after)) ∧
        (operator = lit "not in" →
          evaluate_membership context node before = .ok (settled (!b), after))

theorem answersExactly_iff {v w : Value} :
    AnswersExactly v w ↔ (equal_values v w = true ↔ OneText v w) := by
  constructor
  · exact fun h => h.equal
  · intro h
    refine ⟨h, ?_⟩
    intro context node before after operator hc ho
    exact ⟨_, h, evaluate_compare_equality hc ho⟩

theorem findsExactly_iff {v : Value} {members : List Value} : FindsExactly v members ↔
    ((members.any fun w => equal_values v w) = true ↔ ∃ w ∈ members, OneText v w) := by
  constructor
  · exact fun h => h.found
  · intro h
    refine ⟨h, ?_⟩
    intro context node before after operator hc ho
    exact ⟨_, h, evaluate_membership_contains hc ho⟩

/-- The equality of a rule is that of the canonical texts, for exactly the
values that the host is not mistaken about. A membership that has the value
among its members answers right whatever the other members are. -/
theorem equality_is_exact_iff {v : Value} (hv : v.Canonical) :
    (∀ w : Value, w.Canonical → (AnswersExactly v w ↔ ¬ Mistaken v w)) ∧
    ∀ members : List Value, (∀ w ∈ members, w.Canonical) →
      (FindsExactly v members ↔
        ((∃ w ∈ members, Mistaken v w) → ∃ w ∈ members, OneText v w)) := by
  constructor
  · intro w hw
    rw [answersExactly_iff]
    constructor
    · intro h hm
      obtain ⟨heq, hne⟩ := mistaken_spec hv hw hm
      exact hne (h.mp heq)
    · intro hno
      refine ⟨?_, equal_of_oneText hv hw⟩
      intro heq
      exact (equal_cases hv hw heq).resolve_right hno
  · intro members hms
    rw [findsExactly_iff, List.any_eq_true]
    constructor
    · rintro h ⟨w, hmem, hm⟩
      exact h.mp ⟨w, hmem, (mistaken_spec hv (hms w hmem) hm).1⟩
    · intro h
      constructor
      · rintro ⟨w, hmem, heq⟩
        rcases equal_cases hv (hms w hmem) heq with hone | hm
        · exact ⟨w, hmem, hone⟩
        · exact h ⟨w, hmem, hm⟩
      · rintro ⟨w, hmem, hone⟩
        exact ⟨w, hmem, equal_of_oneText hv (hms w hmem) hone⟩

/-- A mapping with one flag. -/
def flagged (flag : Value) : Value := .dict [(lit "a", flag)]

theorem canonical_flagged {flag : Value} (h : flag.Canonical) : (flagged flag).Canonical := by
  simp [flagged, Distinct, h]

theorem mistaken_flagged : Mistaken (flagged (.bool true)) (flagged (.int 1)) := by
  constructor
  · exact .member (k := lit "a") (by simp) (by simp) (.boolean true)
  · rw [flagged, flagged, read_by_host_dict, read_by_host_dict]
    exact Value.same_of_normalize_eq rfl

theorem canonical_true : (flagged (.bool true)).Canonical := canonical_flagged (by simp)

theorem canonical_one : (flagged (.int 1)).Canonical := canonical_flagged (by simp; decide)

/-- The flags `true` and `1` are taken for each other, but a list that has
both is searched right. -/
theorem equality_is_exact_flagged : ¬ AnswersExactly (flagged (.bool true)) (flagged (.int 1)) ∧
    FindsExactly (flagged (.bool true)) [flagged (.int 1), flagged (.bool true)] := by
  obtain ⟨hpair, hlist⟩ := equality_is_exact_iff canonical_true
  constructor
  · rw [hpair _ canonical_one]
    exact fun h => h mistaken_flagged
  · rw [hlist _ (by simp [canonical_true, canonical_one])]
    intro _
    exact ⟨flagged (.bool true), by simp, rfl⟩

/-- A rule takes the mapping with `true` for the one with `1`, and their
canonical texts differ. -/
theorem equal_takes_true_for_one :
    (flagged (.bool true)).Canonical ∧ (flagged (.int 1)).Canonical ∧
      equal (.value (flagged (.bool true))) (.value (flagged (.int 1))) = true ∧
      canon.canonicalize (flagged (.bool true)) ≠ canon.canonicalize (flagged (.int 1)) :=
  ⟨canonical_true, canonical_one, mistaken_spec canonical_true canonical_one mistaken_flagged⟩

end gate

end vfy
