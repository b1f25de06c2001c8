-- A log of entries: a step adds one entry at the end, or moves one entry on.
-- An entry stays where it is, and nothing else is ever lost.
import Mathlib

namespace entries

variable {α β : Type}

/-- One entry is added at the end, or one of them moves on. -/
inductive Change (New : α → Prop) (Move : α → α → Prop) (l : List α) : List α → Prop where
  | add (a : α) : New a → Change New Move l (l ++ [a])
  | move (i : Nat) (a b : α) : l[i]? = some a → Move a b → Change New Move l (l.set i b)

variable {New New' : α → Prop} {Move Move' : α → α → Prop} {l l' : List α}

theorem Change.mono (h : Change New Move l l') (hnew : ∀ a, New a → New' a)
    (hmove : ∀ a ∈ l, ∀ b, Move a b → Move' a b) : Change New' Move' l l' := by
  cases h with
  | add a ha => exact .add a (hnew a ha)
  | move i a b hi hab => exact .move i a b hi (hmove a (List.mem_of_getElem? hi) b hab)

/-- An entry stays where it is, or moves on there. -/
theorem Change.kept (h : Change New Move l l') {i : Nat} {a : α} (hi : l[i]? = some a) :
    ∃ b, l'[i]? = some b ∧ (b = a ∨ Move a b) := by
  have hlt := (List.getElem?_eq_some_iff.mp hi).1
  cases h with
  | add c hc =>
    refine ⟨a, ?_, .inl rfl⟩
    rw [List.getElem?_append_left hlt]
    exact hi
  | move j c b hj hcb =>
    by_cases hij : j = i
    · subst hij
      obtain rfl : c = a := Option.some.inj (hj.symm.trans hi)
      exact ⟨b, List.getElem?_set_self hlt, .inr hcb⟩
    · refine ⟨a, ?_, .inl rfl⟩
      rw [List.getElem?_set_ne hij]
      exact hi

/-- An entry was there before, or moved on there, or is the new one. -/
theorem Change.came (h : Change New Move l l') {i : Nat} {b : α} (hi : l'[i]? = some b) :
    (∃ a, l[i]? = some a ∧ (b = a ∨ Move a b)) ∨ l[i]? = none ∧ New b := by
  cases h with
  | add c hc =>
    rcases Nat.lt_or_ge i l.length with hlt | hge
    · rw [List.getElem?_append_left hlt] at hi
      exact .inl ⟨b, hi, .inl rfl⟩
    · rw [List.getElem?_append_right hge] at hi
      obtain rfl : c = b := by
        rw [List.getElem?_singleton] at hi
        split at hi
        · exact Option.some.inj hi
        · cases hi
      exact .inr ⟨List.getElem?_eq_none hge, hc⟩
  | move j c d hj hcd =>
    by_cases hij : j = i
    · subst hij
      rw [List.getElem?_set_self (List.getElem?_eq_some_iff.mp hj).1] at hi
      obtain rfl := Option.some.inj hi
      exact .inl ⟨c, hj, .inr hcd⟩
    · rw [List.getElem?_set_ne hij] at hi
      exact .inl ⟨b, hi, .inl rfl⟩

/-- The one entry that is selected, and where it stands. -/
theorem mem_of_filter_zipIdx {p : α × Nat → Bool} {a : α} {i : Nat}
    (h : l.zipIdx.filter p = [(a, i)]) : l[i]? = some a ∧ p (a, i) = true := by
  have hmem : (a, i) ∈ l.zipIdx.filter p := by
    rw [h]
    exact List.mem_singleton_self _
  simpa [List.mem_filter, List.mem_zipIdx_iff_getElem?] using hmem

theorem eq_of_filter_zipIdx {p : α × Nat → Bool} {a b : α} {i j : Nat}
    (h : l.zipIdx.filter p = [(a, i)]) (hj : l[j]? = some b) (hb : p (b, j) = true) : j = i := by
  have hmem : (b, j) ∈ l.zipIdx.filter p :=
    List.mem_filter.mpr ⟨List.mem_zipIdx_iff_getElem?.mpr hj, hb⟩
  rw [h] at hmem
  exact congrArg Prod.snd (List.mem_singleton.mp hmem)

/-- One more of what stands there only once. -/
theorem nodup_concat {a : α} (h : l.Nodup) (ha : a ∉ l) : (l ++ [a]).Nodup := by
  rw [List.nodup_append]
  refine ⟨h, List.nodup_singleton a, fun b hb c hc => ?_⟩
  obtain rfl := List.mem_singleton.mp hc
  rintro rfl
  exact ha hb

end entries
