-- What Python does with a value whose type the program has not looked at:
-- subscripts, `in`, iteration and `==`. Each raises what Python raises, and
-- none of them depends on the insertion order of members.
import VerifyRun.Errors
import VerifyRun.Value
import VerifyRun.Lib.Outcomes

namespace vfy.python

open keys outcomes

/-- `value[key]` with a string key. -/
def getItem (value : Value) (key : Str) : Except Exn Value :=
  match value with
  | .dict members =>
    match members.lookup key with
    | some v => .ok v
    | none => .error .key_error
  | _ => .error .type_error

@[simp] theorem getItem_dict (members : List (Str × Value)) (key : Str) :
    getItem (.dict members) key = match members.lookup key with
      | some v => .ok v
      | none => .error .key_error := rfl

theorem getItem_eq_ok {value v : Value} {key : Str} :
    getItem value key = .ok v ↔ value.get? key = some v := by
  cases value with
  | dict members =>
    rw [getItem_dict, Value.get?_dict]
    cases members.lookup key <;> simp
  | _ => simp [getItem, Value.get?]

/-- `value.get(key)`; only a mapping has the method. -/
def getMethod (value : Value) (key : Str) : Except Exn (Option Value) :=
  match value with
  | .dict members => .ok (members.lookup key)
  | _ => .error .attribute_error

/-- `value.get(key, default)`. -/
def getOr (value : Value) (key : Str) (default : Value) : Except Exn Value :=
  return (← getMethod value key).getD default

/-- `for item in value`. -/
def iterate : Value → Except Exn (List Value)
  | .list items => .ok items
  | .dict members => .ok (members.map fun m => .str m.1)
  | .str s => .ok (s.map fun c => .str [c])
  | _ => .error .type_error

/-- The number of a value in a comparison; a boolean is a number in Python. -/
def number : Value → Except Exn Int
  | .int i => .ok i
  | .bool b => .ok (if b then 1 else 0)
  | _ => .error .type_error

/-- The string that a value is, where anything else is a type error. -/
def string : Value → Except Exn Str
  | .str s => .ok s
  | _ => .error .type_error

/-- `mapping[key] = value`: a key that is there keeps its place. -/
def setItem {β : Type} (mapping : List (Str × β)) (key : Str) (value : β) : List (Str × β) :=
  if (mapping.lookup key).isSome then
    mapping.map fun m => if m.1 = key then (key, value) else m
  else mapping ++ [(key, value)]

/-- `{key: value for key, value in pairs}`. -/
def dictOf {β : Type} (pairs : List (Str × β)) : List (Str × β) :=
  pairs.foldl (fun mapping p => setItem mapping p.1 p.2) []

/-- `{item["id"]: item for item in value}`. -/
def byId (value : Value) : Except Exn (List (Str × Value)) := do
  let items ← iterate value
  let pairs ← items.mapM fun item => do
    let id ← string (← getItem item "id")
    pure (id, item)
  pure (dictOf pairs)

/-! ## Equality -/

mutual

/-- Two values are equal when their lists and mappings are equal item by item
and key by key, down to the values that `leaf` compares. -/
def eqBy (leaf : Value → Value → Bool) : Value → Value → Bool
  | .list xs, .list ys => eqItems leaf xs ys
  | .dict ms, .dict ns => ms.length = ns.length && eqMembers leaf ms ns
  | v, w => leaf v w

def eqItems (leaf : Value → Value → Bool) : List Value → List Value → Bool
  | [], [] => true
  | x :: xs, y :: ys => eqBy leaf x y && eqItems leaf xs ys
  | _, _ => false

/-- Every member of the first mapping is in the second one. -/
def eqMembers (leaf : Value → Value → Bool) : List (Str × Value) → List (Str × Value) → Bool
  | [], _ => true
  | (k, v) :: rest, ns =>
    (match ns.lookup k with
      | some w => eqBy leaf v w
      | none => false) && eqMembers leaf rest ns

end

/-- `==` of two values that are no containers. A boolean equals the integer
that it stands for. -/
def eqScalar : Value → Value → Bool
  | .null, .null => true
  | .bool a, .bool b => a = b
  | .bool a, .int j => j = if a then 1 else 0
  | .int i, .bool b => i = if b then 1 else 0
  | .int i, .int j => i = j
  | .str s, .str t => s = t
  | _, _ => false

/-- `left == right`. -/
def eq : Value → Value → Bool := eqBy eqScalar

/-- `value == text` for a string of the program. -/
def isStr (value : Value) (text : Str) : Bool := eq value (.str text)

@[simp] theorem isStr_str (s t : Str) : isStr (.str s) t = decide (s = t) := by
  simp [isStr, eq, eqBy, eqScalar]

/-- `type(left) is type(right) and left == right` of two values that are no containers. -/
def eqExact : Value → Value → Bool
  | .null, .null => true
  | .bool a, .bool b => a = b
  | .int i, .int j => i = j
  | .str s, .str t => s = t
  | _, _ => false

theorem eqItems_iff {leaf : Value → Value → Bool} {xs ys : List Value} :
    eqItems leaf xs ys = true ↔ List.Forall₂ (fun x y => eqBy leaf x y = true) xs ys := by
  induction xs generalizing ys with
  | nil => cases ys <;> simp [eqItems]
  | cons x xs ih => cases ys <;> simp [eqItems, ih]

theorem eqMembers_iff {leaf : Value → Value → Bool} {ms ns : List (Str × Value)} :
    eqMembers leaf ms ns = true ↔
      ∀ m ∈ ms, ∃ w, ns.lookup m.1 = some w ∧ eqBy leaf m.2 w = true := by
  induction ms with
  | nil => simp [eqMembers]
  | cons m ms ih =>
    obtain ⟨k, v⟩ := m
    simp only [eqMembers, Bool.and_eq_true, ih, List.mem_cons, forall_eq_or_imp]
    refine and_congr_left fun _ => ?_
    cases ns.lookup k <;> simp

/-! ## The order of members does not matter -/

theorem getItem_normalize {v : Value} (h : v.DistinctKeys) (k : Str) :
    getItem v.normalize k = (getItem v k).map Value.normalize := by
  have hg := Value.get?_normalize h k
  cases h with
  | dict hd _ =>
    rw [Value.normalize_dict] at hg ⊢
    simp only [Value.get?_dict] at hg
    simp only [getItem, hg]
    cases List.lookup k _ <;> rfl
  | null => simp [getItem, Except.map]
  | bool b => simp [getItem, Except.map]
  | int _ => simp [getItem, Except.map]
  | str _ => simp [getItem, Except.map]
  | list _ => simp [getItem, Except.map]

theorem eqItems_normalize_left {leaf : Value → Value → Bool} {xs ys : List Value}
    (ih : ∀ x ∈ xs, ∀ w, eqBy leaf x.normalize w = eqBy leaf x w) :
    eqItems leaf (xs.map Value.normalize) ys = eqItems leaf xs ys := by
  induction xs generalizing ys with
  | nil => rfl
  | cons x xs ihx =>
    cases ys with
    | nil => rfl
    | cons y ys =>
      simp only [List.map_cons, eqItems]
      rw [ih x (by simp), ihx fun z hz => ih z (by simp [hz])]

/-- The order of the members on the left does not matter. -/
theorem eqBy_normalize_left {leaf : Value → Value → Bool}
    (hleaf : ∀ v w : Value, leaf v.normalize w = leaf v w) (v w : Value) :
    eqBy leaf v.normalize w = eqBy leaf v w := by
  induction v generalizing w with
  | null => simp
  | bool b => simp
  | int i => simp
  | str s => simp
  | list xs ih =>
    have hl := hleaf (.list xs) w
    rw [Value.normalize_list] at hl ⊢
    cases w with
    | list ys => simpa only [eqBy] using eqItems_normalize_left ih
    | _ => simpa only [eqBy] using hl
  | dict ms ih =>
    have hl := hleaf (.dict ms) w
    rw [Value.normalize_dict] at hl ⊢
    cases w with
    | dict ns =>
      have hm : eqMembers leaf (sortByKey (ms.map fun m => (m.1, m.2.normalize))) ns =
          eqMembers leaf ms ns := by
        rw [Bool.eq_iff_iff, eqMembers_iff, eqMembers_iff]
        simp only [mem_sortByKey, List.mem_map, forall_exists_index, and_imp,
          forall_apply_eq_imp_iff₂]
        refine forall₂_congr fun m hm => ?_
        simp only [ih m hm]
      simp only [eqBy, length_sortByKey, List.length_map, hm]
    | _ => simpa only [eqBy] using hl

theorem eqItems_normalize_right {leaf : Value → Value → Bool} {xs ys : List Value}
    (ih : ∀ x ∈ xs, ∀ w : Value, w.DistinctKeys → eqBy leaf x w.normalize = eqBy leaf x w)
    (hy : ∀ y ∈ ys, y.DistinctKeys) :
    eqItems leaf xs (ys.map Value.normalize) = eqItems leaf xs ys := by
  induction xs generalizing ys with
  | nil => cases ys <;> rfl
  | cons x xs ihx =>
    cases ys with
    | nil => rfl
    | cons y ys =>
      simp only [List.map_cons, eqItems]
      rw [ih x (by simp) y (hy y (by simp)),
        ihx (fun z hz => ih z (by simp [hz])) fun z hz => hy z (by simp [hz])]

/-- The order of the members on the right does not matter. -/
theorem eqBy_normalize_right {leaf : Value → Value → Bool}
    (hleaf : ∀ v w : Value, leaf v w.normalize = leaf v w) (v : Value) {w : Value}
    (hw : w.DistinctKeys) : eqBy leaf v w.normalize = eqBy leaf v w := by
  induction v generalizing w with
  | null => simpa only [eqBy] using hleaf .null w
  | bool b => simpa only [eqBy] using hleaf (.bool b) w
  | int i => simpa only [eqBy] using hleaf (.int i) w
  | str s => simpa only [eqBy] using hleaf (.str s) w
  | list xs ih =>
    have hl := hleaf (.list xs) w
    cases hw with
    | list hy =>
      rw [Value.normalize_list]
      simpa only [eqBy] using eqItems_normalize_right (fun x hx w => @ih x hx w) hy
    | dict hn hv =>
      rw [Value.normalize_dict] at hl ⊢
      simpa only [eqBy] using hl
    | _ => simp
  | dict ms ih =>
    have hl := hleaf (.dict ms) w
    cases hw with
    | @dict ns hn hv =>
      have hm : eqMembers leaf ms (sortByKey (ns.map fun n => (n.1, n.2.normalize))) =
          eqMembers leaf ms ns := by
        rw [Bool.eq_iff_iff, eqMembers_iff, eqMembers_iff]
        refine forall₂_congr fun m hm => ?_
        rw [lookup_sortByKey (hn.map_snd _), lookup_map_snd]
        cases hl : ns.lookup m.1 with
        | none => simp
        | some w => simp [ih m hm (hv _ (mem_of_lookup hl))]
      rw [Value.normalize_dict]
      simp only [eqBy, length_sortByKey, List.length_map, hm]
    | list hy =>
      rw [Value.normalize_list] at hl ⊢
      simpa only [eqBy] using hl
    | _ => simp

theorem eqScalar_normalize_left (v w : Value) : eqScalar v.normalize w = eqScalar v w := by
  cases v <;> cases w <;> simp [eqScalar]

theorem eqScalar_normalize_right (v w : Value) : eqScalar v w.normalize = eqScalar v w := by
  cases v <;> cases w <;> simp [eqScalar]

theorem eqExact_normalize_left (v w : Value) : eqExact v.normalize w = eqExact v w := by
  cases v <;> cases w <;> simp [eqExact]

theorem string_normalize (v : Value) : string v.normalize = string v := by
  cases v <;> simp [string]

theorem eq_normalize_left (v w : Value) : eq v.normalize w = eq v w :=
  eqBy_normalize_left eqScalar_normalize_left v w

/-- A value with distinct keys equals itself. -/
theorem eq_same {v : Value} (h : v.DistinctKeys) : eq v v = true := by
  unfold eq
  induction h with
  | null => rfl
  | bool b => simp [eqBy, eqScalar]
  | int i => simp [eqBy, eqScalar]
  | str s => simp [eqBy, eqScalar]
  | @list items _ ih =>
    rw [eqBy]
    clear * - ih
    induction items with
    | nil => rfl
    | cons v rest ihr =>
      rw [eqItems, ih v (by simp), ihr fun w hw => ih w (by simp [hw])]
      rfl
  | @dict members hd _ ih =>
    have hmembers : eqMembers eqScalar members members = true := by
      rw [eqMembers_iff]
      intro m hm
      exact ⟨m.2, (lookup_eq_some_iff hd m.1 m.2).mpr hm, ih m hm⟩
    simp [eqBy, hmembers]

/-! ## Mappings from pairs -/

theorem keys_replace {β : Type} (mapping : List (Str × β)) (key : Str) (value : β) :
    (mapping.map fun m => if m.1 = key then (key, value) else m).map Prod.fst =
      mapping.map Prod.fst := by
  rw [List.map_map]
  refine List.map_congr_left fun m _ => ?_
  simp only [Function.comp]
  split
  · rename_i h
    exact h.symm
  · rfl

theorem distinct_setItem {β : Type} {mapping : List (Str × β)} (h : Distinct mapping) (key : Str)
    (value : β) : Distinct (setItem mapping key value) := by
  unfold setItem
  split
  · unfold Distinct
    rw [keys_replace]
    exact h
  · rename_i hk
    have hnot : key ∉ mapping.map Prod.fst := by
      rw [← lookup_eq_none_iff]
      exact Option.not_isSome_iff_eq_none.mp hk
    unfold Distinct
    rw [List.map_append, List.nodup_append]
    refine ⟨h, by simp, ?_⟩
    intro a ha b hb
    simp only [List.map_cons, List.map_nil, List.mem_singleton] at hb
    rintro rfl
    exact hnot (hb ▸ ha)

theorem mem_setItem {β : Type} {mapping : List (Str × β)} {key : Str} {value : β} {m : Str × β}
    (h : m ∈ setItem mapping key value) : m = (key, value) ∨ m ∈ mapping := by
  unfold setItem at h
  split at h
  · obtain ⟨n, hn, he⟩ := List.mem_map.mp h
    split at he
    · exact Or.inl he.symm
    · exact Or.inr (he ▸ hn)
  · simpa [or_comm] using h

/-- A mapping that is built from pairs has distinct keys, and its members are pairs. -/
theorem dictOf_spec {β : Type} (pairs : List (Str × β)) :
    Distinct (dictOf pairs) ∧ ∀ m ∈ dictOf pairs, m ∈ pairs := by
  suffices ∀ mapping : List (Str × β), Distinct mapping →
      Distinct (pairs.foldl (fun mapping p => setItem mapping p.1 p.2) mapping) ∧
        ∀ m ∈ pairs.foldl (fun mapping p => setItem mapping p.1 p.2) mapping,
          m ∈ pairs ∨ m ∈ mapping by
    obtain ⟨hd, hm⟩ := this [] List.nodup_nil
    exact ⟨hd, fun m h => (hm m h).resolve_right (by simp)⟩
  induction pairs with
  | nil => exact fun mapping h => ⟨h, fun m hm => Or.inr hm⟩
  | cons p pairs ih =>
    intro mapping h
    obtain ⟨hd, hm⟩ := ih _ (distinct_setItem h p.1 p.2)
    refine ⟨hd, fun m hmem => ?_⟩
    rcases hm m hmem with h | h
    · exact Or.inl (List.mem_cons_of_mem _ h)
    · rcases mem_setItem h with h | h
      · exact Or.inl (h ▸ List.mem_cons_self)
      · exact Or.inr h

theorem lookup_setItem {β : Type} (mapping : List (Str × β)) (key k : Str) (value : β) :
    (setItem mapping key value).lookup k = if k = key then some value else mapping.lookup k := by
  have hreplace : ∀ l : List (Str × β),
      (l.map fun m => if m.1 = key then (key, value) else m).lookup k =
        if k = key then (l.lookup key).map fun _ => value else l.lookup k := by
    intro l
    induction l with
    | nil => simp
    | cons m l ih =>
      rw [List.map_cons, List.lookup_cons, List.lookup_cons, List.lookup_cons, ih]
      by_cases hk : k = key
      · subst hk
        by_cases hm : m.1 = k
        · simp [hm]
        · have hne : (k == m.1) = false := by simpa using fun h => hm h.symm
          simp [hm, hne]
      · by_cases hm : m.1 = key
        · have hne : (k == m.1) = false := by simpa [hm] using hk
          have hne' : (k == key) = false := by simpa using hk
          simp [hm, hne', hk]
        · simp [hm, hk]
  unfold setItem
  split
  · rename_i hsome
    rw [hreplace]
    obtain ⟨w, hw⟩ := Option.isSome_iff_exists.mp hsome
    simp [hw]
  · rename_i hnone
    have hnone := Option.not_isSome_iff_eq_none.mp hnone
    rw [List.lookup_append]
    by_cases hk : k = key
    · subst hk
      simp [hnone]
    · have hne : (k == key) = false := by simpa using hk
      simp [List.lookup_cons, hne, hk]

/-- The last pair with a key is the one that a mapping from pairs holds. -/
theorem lookup_dictOf {β : Type} (pairs : List (Str × β)) (k : Str) :
    (dictOf pairs).lookup k = pairs.reverse.lookup k := by
  suffices ∀ mapping : List (Str × β),
      (pairs.foldl (fun mapping p => setItem mapping p.1 p.2) mapping).lookup k =
        (pairs.reverse.lookup k).or (mapping.lookup k) by
    simpa [dictOf] using this []
  induction pairs with
  | nil => simp
  | cons p pairs ih =>
    intro mapping
    obtain ⟨key, value⟩ := p
    rw [List.foldl_cons, ih, lookup_setItem, List.reverse_cons, List.lookup_append,
      List.lookup_cons]
    by_cases hk : k = key
    · simp [hk]
    · have hne : (k == key) = false := by simpa using hk
      simp [hk, hne]

/-- What a mapping by id holds: items that are mappings with that id. -/
theorem byId_spec {value : Value} {mapping : List (Str × Value)} (h : byId value = .ok mapping) :
    Distinct mapping ∧ ∀ m ∈ mapping, getItem m.2 "id" = .ok (.str m.1) := by
  obtain ⟨items, hitems, h⟩ := bind_eq_ok.mp h
  obtain ⟨pairs, hp, h⟩ := bind_eq_ok.mp h
  cases h
  obtain ⟨hd, hm⟩ := dictOf_spec pairs
  refine ⟨hd, fun m hmem => ?_⟩
  have hall : ∀ p ∈ pairs, getItem p.2 "id" = .ok (.str p.1) := by
    refine mapM_forall hp fun item p hx => ?_
    obtain ⟨v, hv, hx⟩ := bind_eq_ok.mp hx
    obtain ⟨id, hid, hx⟩ := bind_eq_ok.mp hx
    cases hx
    cases v <;> simp only [string, reduceCtorEq, Except.ok.injEq] at hid
    rw [hv, hid]
  exact hall m (hm m hmem)

end vfy.python
