-- The distinct members of a list, in the order in which they are first met.
-- A loop that appends what it has not seen yet computes them.
import Mathlib

namespace firstmet

variable {α : Type} [DecidableEq α]

/-- Append what is not there yet. -/
def keep (out : List α) (a : α) : List α := if a ∈ out then out else out ++ [a]

/-- The second list holds what the first one holds, in the order of the first
occurrences. -/
structure FirstMet (l out : List α) : Prop where
  mem_iff : ∀ a, a ∈ out ↔ a ∈ l
  ordered : out.Pairwise fun a b => l.idxOf a < l.idxOf b

variable {l out out' : List α}

theorem FirstMet.nil : FirstMet ([] : List α) [] := ⟨fun _ => Iff.rfl, .nil⟩

/-- One more member is met. -/
theorem FirstMet.snoc (h : FirstMet l out) (a : α) : FirstMet (l ++ [a]) (keep out a) := by
  have hidx : ∀ b ∈ out, (l ++ [a]).idxOf b = l.idxOf b := fun b hb =>
    List.idxOf_append_of_mem ((h.mem_iff b).mp hb)
  have hord : out.Pairwise fun b c => (l ++ [a]).idxOf b < (l ++ [a]).idxOf c := by
    refine h.ordered.imp_of_mem fun hb hc hlt => ?_
    rwa [hidx _ hb, hidx _ hc]
  unfold keep
  by_cases ha : a ∈ out
  · rw [if_pos ha]
    refine ⟨fun b => ?_, hord⟩
    rw [h.mem_iff, List.mem_append, List.mem_singleton]
    constructor
    · exact Or.inl
    · rintro (hb | rfl)
      · exact hb
      · exact (h.mem_iff b).mp ha
  · rw [if_neg ha]
    have hnew : a ∉ l := fun hmem => ha ((h.mem_iff a).mpr hmem)
    refine ⟨fun b => by simp [h.mem_iff], ?_⟩
    rw [List.pairwise_append]
    refine ⟨hord, List.pairwise_singleton _ _, fun b hb c hc => ?_⟩
    -- what was met before stands in the list, and the new member after it
    obtain rfl := List.mem_singleton.mp hc
    have hlt := List.idxOf_lt_length_of_mem ((h.mem_iff b).mp hb)
    rw [hidx b hb, List.idxOf_append_of_notMem hnew]
    omega

theorem FirstMet.foldl (h : FirstMet l out) (m : List α) : FirstMet (l ++ m) (m.foldl keep out) := by
  induction m generalizing l out with
  | nil => simpa using h
  | cons a m ih =>
    have := ih (h.snoc a)
    rwa [List.append_assoc, List.singleton_append] at this

/-- The loop lists what it meets, in the order of the first occurrences. -/
theorem firstMet_foldl (l : List α) : FirstMet l (l.foldl keep []) := by
  simpa using FirstMet.nil.foldl l

end firstmet
