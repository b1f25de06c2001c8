-- The values of the program: what a loader returns and what the canonical
-- form is defined on. A mapping keeps the insertion order of its members,
-- as a Python dict does, so a law that must not depend on that order has
-- something to say.
import VerifyRun.Text
import VerifyRun.Lib.KeySort

namespace vfy

open keys

/-- A value of the frozen model. Its mappings have string keys, and no
loader lets a float become a value. -/
inductive Value where
  | null
  | bool (b : Bool)
  | int (i : Int)
  | str (s : Str)
  | list (items : List Value)
  | dict (members : List (Str × Value))

namespace Value

/-- Induction over the nesting of a value. -/
@[induction_eliminator, elab_as_elim]
theorem nested {P : Value → Prop} (null : P null) (bool : ∀ b, P (bool b)) (int : ∀ i, P (int i))
    (str : ∀ s, P (str s)) (list : ∀ items, (∀ v ∈ items, P v) → P (list items))
    (dict : ∀ members : List (Str × Value), (∀ m ∈ members, P m.2) → P (dict members)) :
    ∀ v, P v := by
  intro v
  refine @Value.rec P (fun l => ∀ v ∈ l, P v) (fun l => ∀ m ∈ l, P m.2) (fun m => P m.2)
    null bool int str list dict ?_ ?_ ?_ ?_ ?_ v
  · simp
  · intro v l hv hl w hw
    rcases List.mem_cons.mp hw with rfl | hw
    · exact hv
    · exact hl w hw
  · simp
  · intro m l hm hl w hw
    rcases List.mem_cons.mp hw with rfl | hw
    · exact hm
    · exact hl w hw
  · exact fun _ _ h => h

/-! ## Depth -/

mutual

/-- The number of mappings and lists that are open at the deepest point. -/
def depth : Value → Nat
  | list items => depthItems items + 1
  | dict members => depthMembers members + 1
  | _ => 0

def depthItems : List Value → Nat
  | [] => 0
  | v :: rest => max v.depth (depthItems rest)

def depthMembers : List (Str × Value) → Nat
  | [] => 0
  | m :: rest => max m.2.depth (depthMembers rest)

end

theorem depthItems_le {items : List Value} {d : Nat} :
    depthItems items ≤ d ↔ ∀ v ∈ items, v.depth ≤ d := by
  induction items with
  | nil => simp [depthItems]
  | cons v rest ih => simp [depthItems, ih]

theorem depthMembers_le {members : List (Str × Value)} {d : Nat} :
    depthMembers members ≤ d ↔ ∀ m ∈ members, m.2.depth ≤ d := by
  induction members with
  | nil => simp [depthMembers]
  | cons m rest ih => simp [depthMembers, ih]

theorem depth_list_le {items : List Value} {d : Nat} :
    (list items).depth ≤ d + 1 ↔ ∀ v ∈ items, v.depth ≤ d := by
  simp [depth, depthItems_le]

theorem depth_dict_le {members : List (Str × Value)} {d : Nat} :
    (dict members).depth ≤ d + 1 ↔ ∀ m ∈ members, m.2.depth ≤ d := by
  simp [depth, depthMembers_le]

/-! ## The canonical value model -/

/-- The integers that every implementation holds exactly. -/
def SafeInteger (i : Int) : Prop := -(2 ^ 53 - 1) ≤ i ∧ i ≤ 2 ^ 53 - 1

instance (i : Int) : Decidable (SafeInteger i) := inferInstanceAs (Decidable (_ ∧ _))

/-- A value that the canonicalizer accepts: safe integers, strings with no
surrogate, and distinct keys. -/
inductive Canonical : Value → Prop where
  | null : Canonical null
  | bool (b : Bool) : Canonical (bool b)
  | int {i : Int} (h : SafeInteger i) : Canonical (int i)
  | str {s : Str} (h : Encodable s) : Canonical (str s)
  | list {items : List Value} (h : ∀ v ∈ items, Canonical v) : Canonical (list items)
  | dict {members : List (Str × Value)} (hd : Distinct members)
      (hk : ∀ m ∈ members, Encodable m.1) (hv : ∀ m ∈ members, Canonical m.2) :
      Canonical (dict members)

/-- The keys are distinct in every mapping of the value, as in any Python dict. -/
inductive DistinctKeys : Value → Prop where
  | null : DistinctKeys null
  | bool (b : Bool) : DistinctKeys (bool b)
  | int (i : Int) : DistinctKeys (int i)
  | str (s : Str) : DistinctKeys (str s)
  | list {items : List Value} (h : ∀ v ∈ items, DistinctKeys v) : DistinctKeys (list items)
  | dict {members : List (Str × Value)} (hd : Distinct members)
      (hv : ∀ m ∈ members, DistinctKeys m.2) : DistinctKeys (dict members)

@[simp] theorem canonical_null : Canonical null := .null
@[simp] theorem canonical_bool (b : Bool) : Canonical (bool b) := .bool b

@[simp] theorem canonical_int {i : Int} : Canonical (int i) ↔ SafeInteger i :=
  ⟨fun h => by cases h; assumption, .int⟩

@[simp] theorem canonical_str {s : Str} : Canonical (str s) ↔ Encodable s :=
  ⟨fun h => by cases h; assumption, .str⟩

@[simp] theorem canonical_list {items : List Value} :
    Canonical (list items) ↔ ∀ v ∈ items, Canonical v :=
  ⟨fun h => by cases h; assumption, .list⟩

@[simp] theorem canonical_dict {members : List (Str × Value)} : Canonical (dict members) ↔
    Distinct members ∧ (∀ m ∈ members, Encodable m.1) ∧ ∀ m ∈ members, Canonical m.2 :=
  ⟨fun h => by cases h with | dict hd hk hv => exact ⟨hd, hk, hv⟩, fun h => .dict h.1 h.2.1 h.2.2⟩

@[simp] theorem distinctKeys_null : DistinctKeys null := .null
@[simp] theorem distinctKeys_bool (b : Bool) : DistinctKeys (bool b) := .bool b
@[simp] theorem distinctKeys_int (i : Int) : DistinctKeys (int i) := .int i
@[simp] theorem distinctKeys_str (s : Str) : DistinctKeys (str s) := .str s

@[simp] theorem distinctKeys_list {items : List Value} :
    DistinctKeys (list items) ↔ ∀ v ∈ items, DistinctKeys v :=
  ⟨fun h => by cases h; assumption, .list⟩

@[simp] theorem distinctKeys_dict {members : List (Str × Value)} :
    DistinctKeys (dict members) ↔ Distinct members ∧ ∀ m ∈ members, DistinctKeys m.2 :=
  ⟨fun h => by cases h with | dict hd hv => exact ⟨hd, hv⟩, fun h => .dict h.1 h.2⟩

theorem Canonical.distinctKeys {v : Value} (h : Canonical v) : DistinctKeys v := by
  induction h with
  | null => exact .null
  | bool b => exact .bool b
  | int _ => exact .int _
  | str _ => exact .str _
  | list _ ih => exact .list ih
  | dict hd _ _ ih => exact .dict hd ih

/-! ## The order of members -/

/-- The two values are equal up to the insertion order of the members of
their mappings, at every level. -/
inductive Same : Value → Value → Prop where
  | null : Same null null
  | bool (b : Bool) : Same (bool b) (bool b)
  | int (i : Int) : Same (int i) (int i)
  | str (s : Str) : Same (str s) (str s)
  | list {xs ys : List Value} (h : List.Forall₂ Same xs ys) : Same (list xs) (list ys)
  | dict {ms ns ns' : List (Str × Value)} (hk : ms.map Prod.fst = ns.map Prod.fst)
      (hv : List.Forall₂ Same (ms.map Prod.snd) (ns.map Prod.snd)) (hp : ns.Perm ns') :
      Same (dict ms) (dict ns')

mutual

/-- The value with the members of every mapping in key order. -/
def normalize : Value → Value
  | list items => list (normalizeItems items)
  | dict members => dict (sortByKey (normalizeMembers members))
  | v => v

def normalizeItems : List Value → List Value
  | [] => []
  | v :: rest => v.normalize :: normalizeItems rest

def normalizeMembers : List (Str × Value) → List (Str × Value)
  | [] => []
  | (k, v) :: rest => (k, v.normalize) :: normalizeMembers rest

end

theorem normalizeItems_eq (items : List Value) : normalizeItems items = items.map normalize := by
  induction items with
  | nil => rfl
  | cons v rest ih => simp [normalizeItems, ih]

theorem normalizeMembers_eq (members : List (Str × Value)) :
    normalizeMembers members = members.map fun m => (m.1, m.2.normalize) := by
  induction members with
  | nil => rfl
  | cons m rest ih => simp [normalizeMembers, ih]

@[simp] theorem normalize_null : normalize null = null := rfl
@[simp] theorem normalize_bool (b : Bool) : normalize (bool b) = bool b := rfl
@[simp] theorem normalize_int (i : Int) : normalize (int i) = int i := rfl
@[simp] theorem normalize_str (s : Str) : normalize (str s) = str s := rfl

@[simp] theorem normalize_list (items : List Value) :
    normalize (list items) = list (items.map normalize) :=
  congrArg list (normalizeItems_eq items)

@[simp] theorem normalize_dict (members : List (Str × Value)) :
    normalize (dict members) = dict (sortByKey (members.map fun m => (m.1, m.2.normalize))) :=
  congrArg (fun members => dict (sortByKey members)) (normalizeMembers_eq members)

/-- `normalize` sorts and the order of sorting and normalizing does not matter. -/
theorem normalize_dict' (members : List (Str × Value)) :
    normalize (dict members) = dict ((sortByKey members).map fun m => (m.1, m.2.normalize)) := by
  rw [normalize_dict, sortByKey_map_snd]

theorem depth_normalize (v : Value) : v.normalize.depth = v.depth := by
  have hle : ∀ v : Value, ∀ d, v.normalize.depth ≤ d ↔ v.depth ≤ d := by
    intro v
    induction v with
    | null => simp
    | bool b => simp
    | int i => simp
    | str s => simp
    | list items ih =>
      intro d
      cases d with
      | zero => simp [depth]
      | succ d =>
        rw [normalize_list, depth_list_le, depth_list_le]
        simp only [List.mem_map, forall_exists_index, and_imp, forall_apply_eq_imp_iff₂]
        exact forall₂_congr fun v hv => ih v hv d
    | dict members ih =>
      intro d
      cases d with
      | zero => simp [depth]
      | succ d =>
        rw [normalize_dict, depth_dict_le, depth_dict_le]
        simp only [mem_sortByKey, List.mem_map, forall_exists_index, and_imp,
          forall_apply_eq_imp_iff₂]
        exact forall₂_congr fun m hm => ih m hm d
  exact Nat.le_antisymm ((hle v _).mpr le_rfl) ((hle v _).mp le_rfl)

theorem Canonical.normalize {v : Value} (h : Canonical v) : Canonical v.normalize := by
  induction h with
  | null => exact .null
  | bool b => simp
  | int h => simpa using h
  | str h => simpa using h
  | list _ ih =>
    rw [normalize_list]
    refine .list fun v hv => ?_
    obtain ⟨w, hw, rfl⟩ := List.mem_map.mp hv
    exact ih w hw
  | dict hd hk _ ih =>
    rw [normalize_dict]
    refine .dict (hd.map_snd _).sortByKey ?_ ?_
    · intro m hm
      obtain ⟨n, hn, rfl⟩ := List.mem_map.mp (mem_sortByKey.mp hm)
      exact hk n hn
    · intro m hm
      obtain ⟨n, hn, rfl⟩ := List.mem_map.mp (mem_sortByKey.mp hm)
      exact ih n hn

/-- A value is the same as its normal form. -/
theorem same_normalize (v : Value) : Same v v.normalize := by
  induction v with
  | null => simpa using .null
  | bool b => simpa using .bool b
  | int i => simpa using .int i
  | str s => simpa using .str s
  | list items ih =>
    rw [normalize_list]
    exact .list (List.forall₂_map_right_iff.mpr (List.forall₂_same.mpr ih))
  | dict members ih =>
    rw [normalize_dict]
    refine .dict (map_snd_keys _ _).symm ?_ (sortByKey_perm _).symm
    rw [List.map_map, List.forall₂_map_left_iff, List.forall₂_map_right_iff, List.forall₂_same]
    exact ih

theorem forall₂_normalize {xs ys : List Value} (h : List.Forall₂ Same xs ys)
    (ih : ∀ x ∈ xs, ∀ y, DistinctKeys x → Same x y → x.normalize = y.normalize)
    (hd : ∀ x ∈ xs, DistinctKeys x) : xs.map normalize = ys.map normalize := by
  induction h with
  | nil => rfl
  | cons hxy _ ihr =>
    simp only [List.map_cons]
    rw [ih _ (by simp) _ (hd _ (by simp)) hxy,
      ihr (fun x hx => ih x (by simp [hx])) fun x hx => hd x (by simp [hx])]

/-- Members are their keys and their values. -/
theorem map_normalize_of_keys {ms ns : List (Str × Value)}
    (hk : ms.map Prod.fst = ns.map Prod.fst)
    (hv : (ms.map Prod.snd).map normalize = (ns.map Prod.snd).map normalize) :
    (ms.map fun m => (m.1, m.2.normalize)) = ns.map fun m => (m.1, m.2.normalize) := by
  induction ms generalizing ns with
  | nil =>
    cases ns with
    | nil => rfl
    | cons n ns => simp at hk
  | cons m ms ih =>
    cases ns with
    | nil => simp at hk
    | cons n ns =>
      simp only [List.map_cons, List.cons.injEq] at hk hv ⊢
      exact ⟨by rw [hk.1, hv.1], ih hk.2 hv.2⟩

/-- Values that are the same have one normal form. -/
theorem Same.normalize_eq {v w : Value} (hv : DistinctKeys v) (h : Same v w) :
    v.normalize = w.normalize := by
  induction v generalizing w with
  | null => cases h; rfl
  | bool b => cases h; rfl
  | int i => cases h; rfl
  | str s => cases h; rfl
  | list items ih =>
    cases h with
    | list h =>
      cases hv with
      | list hd =>
        rw [normalize_list, normalize_list, forall₂_normalize h (fun x hx y => @ih x hx y) hd]
  | dict members ih =>
    cases h with
    | @dict _ ns _ hk h hp =>
      cases hv with
      | dict hd hm =>
        have hvals : (members.map Prod.snd).map Value.normalize =
            (ns.map Prod.snd).map Value.normalize := by
          refine forall₂_normalize h ?_ ?_
          · simp only [List.mem_map, forall_exists_index, and_imp, forall_apply_eq_imp_iff₂]
            exact fun m hm' y => @ih m hm' y
          · simpa using fun v k => hm (k, v)
        have he := map_normalize_of_keys hk hvals
        rw [normalize_dict, normalize_dict, sortByKey_eq_of_perm (hd.map_snd _) (he ▸ hp.map _)]

theorem forall₂_of_normalize {xs ys : List Value} (h : xs.map normalize = ys.map normalize)
    (ih : ∀ x ∈ xs, ∀ y, x.normalize = y.normalize → Same x y) : List.Forall₂ Same xs ys := by
  induction xs generalizing ys with
  | nil =>
    cases ys with
    | nil => exact .nil
    | cons y ys => simp at h
  | cons x xs ihx =>
    cases ys with
    | nil => simp at h
    | cons y ys =>
      simp only [List.map_cons, List.cons.injEq] at h
      exact .cons (ih x (by simp) y h.1) (ihx h.2 fun z hz => ih z (by simp [hz]))

/-- Values with one normal form are the same. -/
theorem same_of_normalize_eq {v w : Value} (h : v.normalize = w.normalize) : Same v w := by
  induction v generalizing w with
  | null => cases w <;> simp at h; exact .null
  | bool b => cases w <;> simp at h; exact h ▸ .bool b
  | int i => cases w <;> simp at h; exact h ▸ .int i
  | str s => cases w <;> simp at h; exact h ▸ .str s
  | list xs ih =>
    cases w <;> simp only [normalize_list, normalize_null, normalize_bool, normalize_int,
      normalize_str, normalize_dict, reduceCtorEq, list.injEq] at h
    exact .list (forall₂_of_normalize h fun x hx y => @ih x hx y)
  | dict ms ih =>
    cases w <;> simp only [normalize_list, normalize_null, normalize_bool, normalize_int,
      normalize_str, normalize_dict, reduceCtorEq, dict.injEq] at h
    rename_i ns'
    let norm := fun m : Str × Value => (m.1, m.2.normalize)
    have hp : (ms.map norm).Perm (ns'.map norm) :=
      (sortByKey_perm _).symm.trans (h ▸ sortByKey_perm _)
    have hf : List.Forall₂ (fun x m => x = norm m) (ns'.map norm) ns' :=
      List.forall₂_map_left_iff.mpr (List.forall₂_same.mpr fun _ _ => rfl)
    -- a reordering of the normal members is a reordering of the members
    obtain ⟨ns, hn, hns⟩ := List.perm_comp_forall₂ hp hf
    have he : ms.map norm = ns.map norm :=
      List.forall₂_eq_eq_eq ▸ List.forall₂_map_right_iff.mpr hn
    refine .dict ?_ (forall₂_of_normalize ?_ ?_) hns
    · simpa [norm, Function.comp_def] using congrArg (List.map Prod.fst) he
    · simpa [norm, Function.comp_def] using congrArg (List.map Prod.snd) he
    · simp only [List.mem_map, forall_exists_index, and_imp, forall_apply_eq_imp_iff₂]
      exact fun m hm y => @ih m hm y

/-! ## Reading a value -/

/-- `value.get(key)` of a mapping, and nothing for any other value. -/
def get? : Value → Str → Option Value
  | dict members, k => members.lookup k
  | _, _ => none

@[simp] theorem get?_dict (members : List (Str × Value)) (k : Str) :
    (dict members).get? k = members.lookup k := rfl

theorem Canonical.get? {v w : Value} {k : Str} (h : Canonical v) (hg : v.get? k = some w) :
    Canonical w := by
  cases h with
  | dict _ _ hv => exact hv _ (mem_of_lookup hg)
  | null => simp [Value.get?] at hg
  | bool b => simp [Value.get?] at hg
  | int _ => simp [Value.get?] at hg
  | str _ => simp [Value.get?] at hg
  | list _ => simp [Value.get?] at hg

theorem DistinctKeys.get? {v w : Value} {k : Str} (h : DistinctKeys v) (hg : v.get? k = some w) :
    DistinctKeys w := by
  cases h with
  | dict _ hv => exact hv _ (mem_of_lookup hg)
  | null => simp [Value.get?] at hg
  | bool b => simp [Value.get?] at hg
  | int _ => simp [Value.get?] at hg
  | str _ => simp [Value.get?] at hg
  | list _ => simp [Value.get?] at hg

theorem get?_normalize {v : Value} (h : DistinctKeys v) (k : Str) :
    v.normalize.get? k = (v.get? k).map normalize := by
  cases h with
  | dict hd _ =>
    rw [normalize_dict, get?_dict, lookup_sortByKey (hd.map_snd _), lookup_map_snd]
    rfl
  | null => simp [get?]
  | bool b => simp [get?]
  | int _ => simp [get?]
  | str _ => simp [get?]
  | list _ => simp [get?]

end Value

end vfy
