-- Association lists whose keys are ordered and distinct: the value of a
-- key, and the one order of the keys that does not depend on how the list
-- was built.
import Mathlib

namespace keys

variable {κ β γ : Type}

/-- The keys of the list are distinct. -/
def Distinct (ms : List (κ × β)) : Prop := (ms.map Prod.fst).Nodup

instance [DecidableEq κ] (ms : List (κ × β)) : Decidable (Distinct ms) :=
  inferInstanceAs (Decidable (ms.map Prod.fst).Nodup)

theorem Distinct.perm {ms ns : List (κ × β)} (h : Distinct ms) (hp : ms.Perm ns) : Distinct ns :=
  (hp.map Prod.fst).nodup_iff.mp h

/-- Mapping the values keeps the keys. -/
theorem map_snd_keys (f : β → γ) (ms : List (κ × β)) :
    (ms.map fun m => (m.1, f m.2)).map Prod.fst = ms.map Prod.fst := by
  rw [List.map_map]
  rfl

theorem Distinct.map_snd {ms : List (κ × β)} (h : Distinct ms) (f : β → γ) :
    Distinct (ms.map fun m => (m.1, f m.2)) := by
  unfold Distinct
  rw [map_snd_keys]
  exact h

/-! ## The order of the keys -/

section Order

variable [LinearOrder κ]

/-- The entries in the order of their keys. -/
def sortByKey (ms : List (κ × β)) : List (κ × β) := ms.insertionSort (fun a b => a.1 ≤ b.1)

instance totalKeys : Std.Total (fun a b : κ × β => a.1 ≤ b.1) := ⟨fun a b => le_total a.1 b.1⟩

instance transKeys : IsTrans (κ × β) (fun a b => a.1 ≤ b.1) := ⟨fun _ _ _ => le_trans⟩

theorem sortByKey_perm (ms : List (κ × β)) : (sortByKey ms).Perm ms := List.perm_insertionSort _ _

@[simp] theorem mem_sortByKey {ms : List (κ × β)} {m : κ × β} : m ∈ sortByKey ms ↔ m ∈ ms :=
  (sortByKey_perm ms).mem_iff

@[simp] theorem length_sortByKey (ms : List (κ × β)) : (sortByKey ms).length = ms.length :=
  (sortByKey_perm ms).length_eq

@[simp] theorem sortByKey_nil : sortByKey ([] : List (κ × β)) = [] := rfl

theorem Distinct.sortByKey {ms : List (κ × β)} (h : Distinct ms) : Distinct (sortByKey ms) :=
  h.perm (sortByKey_perm ms).symm

theorem sortByKey_map_snd (f : β → γ) (ms : List (κ × β)) :
    sortByKey (ms.map fun m => (m.1, f m.2)) = (sortByKey ms).map fun m => (m.1, f m.2) :=
  (List.map_insertionSort (fun a b : κ × β => a.1 ≤ b.1) (fun a b : κ × γ => a.1 ≤ b.1)
    (fun m => (m.1, f m.2)) ms fun _ _ _ _ => Iff.rfl).symm

/-- Sorted distinct keys rise strictly. -/
theorem sortByKey_strict {ms : List (κ × β)} (h : Distinct ms) :
    (sortByKey ms).Pairwise fun a b => a.1 < b.1 := by
  have hle : (sortByKey ms).Pairwise fun a b => a.1 ≤ b.1 := List.pairwise_insertionSort _ _
  have hne : (sortByKey ms).Pairwise fun a b => a.1 ≠ b.1 := List.pairwise_map.mp h.sortByKey
  exact (hle.and hne).imp fun hab => lt_of_le_of_ne hab.1 hab.2

theorem sortByKey_eq_self {ms : List (κ × β)} (h : ms.Pairwise fun a b => a.1 < b.1) :
    sortByKey ms = ms :=
  (h.imp fun hab => le_of_lt hab).insertionSort_eq

/-- Two lists with strictly rising keys and the same entries are equal. -/
theorem eq_of_perm_of_strict {ms ns : List (κ × β)} (hp : ms.Perm ns)
    (hm : ms.Pairwise fun a b => a.1 < b.1) (hn : ns.Pairwise fun a b => a.1 < b.1) : ms = ns :=
  hp.eq_of_pairwise (fun _ _ _ _ hab hba => absurd hba (lt_asymm hab)) hm hn

theorem sortByKey_idem {ms : List (κ × β)} (h : Distinct ms) :
    sortByKey (sortByKey ms) = sortByKey ms :=
  sortByKey_eq_self (sortByKey_strict h)

/-- The sorted list does not depend on the order of the entries. -/
theorem sortByKey_eq_of_perm {ms ns : List (κ × β)} (h : Distinct ms) (hp : ms.Perm ns) :
    sortByKey ms = sortByKey ns :=
  eq_of_perm_of_strict ((sortByKey_perm ms).trans (hp.trans (sortByKey_perm ns).symm))
    (sortByKey_strict h) (sortByKey_strict (h.perm hp))

end Order

/-! ## The value of a key -/

section Lookup

variable [BEq κ] [LawfulBEq κ]

theorem lookup_eq_some_iff {ms : List (κ × β)} (h : Distinct ms) (k : κ) (v : β) :
    ms.lookup k = some v ↔ (k, v) ∈ ms := by
  induction ms with
  | nil => simp
  | cons m ms ih =>
    obtain ⟨k', v'⟩ := m
    have hd : k' ∉ ms.map Prod.fst ∧ Distinct ms := List.nodup_cons.mp h
    rw [List.lookup_cons]
    by_cases hk : k = k'
    · subst hk
      have hnot : (k, v) ∉ ms := fun hm => hd.1 (List.mem_map_of_mem hm)
      simp [hnot, eq_comm]
    · have hb : (k == k') = false := beq_false_of_ne hk
      simp [hb, hk, ih hd.2]

theorem lookup_eq_none_iff {ms : List (κ × β)} (k : κ) :
    ms.lookup k = none ↔ k ∉ ms.map Prod.fst := by
  rw [List.lookup_eq_none_iff]
  constructor
  · intro h hk
    obtain ⟨m, hm, rfl⟩ := List.mem_map.mp hk
    simpa using h m hm
  · intro h m hm
    have hne : k ≠ m.1 := fun he => h (he ▸ List.mem_map_of_mem hm)
    simpa using hne

theorem mem_of_lookup {ms : List (κ × β)} {k : κ} {v : β} (h : ms.lookup k = some v) :
    (k, v) ∈ ms := by
  obtain ⟨l₁, l₂, rfl, _⟩ := List.lookup_eq_some_iff.mp h
  simp

theorem lookup_perm {ms ns : List (κ × β)} (h : Distinct ms) (hp : ms.Perm ns) (k : κ) :
    ms.lookup k = ns.lookup k := by
  apply Option.ext
  intro v
  rw [lookup_eq_some_iff h, lookup_eq_some_iff (h.perm hp), hp.mem_iff]

omit [LawfulBEq κ] in
theorem lookup_map_snd (f : β → γ) (ms : List (κ × β)) (k : κ) :
    (ms.map fun m => (m.1, f m.2)).lookup k = (ms.lookup k).map f := by
  induction ms with
  | nil => rfl
  | cons m ms ih =>
    obtain ⟨k', v⟩ := m
    simp only [List.map_cons, List.lookup_cons, ih]
    cases k == k' <;> rfl

theorem lookup_sortByKey {κ : Type} [LinearOrder κ] [BEq κ] [LawfulBEq κ] {ms : List (κ × β)}
    (h : Distinct ms) (k : κ) : (sortByKey ms).lookup k = ms.lookup k :=
  (lookup_perm h (sortByKey_perm ms).symm k).symm

end Lookup

end keys
