-- Streams of records. A record ends in a separator and keeps to a limit; what a
-- stream is cut into depends on the stream alone.
import Mathlib

namespace lines

/-- Why a stream gives no further record. -/
inductive End where
  | ended
  | oversized
deriving DecidableEq

section Records

variable {α : Type} (sep : α) (limit : Nat)

/-- A record: its last element is its only separator. -/
def Line (f : List α) : Prop := ∃ l, f = l ++ [sep] ∧ sep ∉ l ∧ f.length ≤ limit

/-- Records, one after the other. -/
def Lines (s : List α) : Prop := ∃ fs : List (List α), s = fs.flatten ∧ ∀ f ∈ fs, Line sep limit f

variable {sep limit}

theorem Line.mem {f : List α} (h : Line sep limit f) : sep ∈ f := by
  obtain ⟨l, rfl, -, -⟩ := h
  simp

theorem Lines.nil : Lines sep limit ([] : List α) := ⟨[], rfl, by simp⟩

theorem Lines.cons {f s : List α} (hf : Line sep limit f) (hs : Lines sep limit s) :
    Lines sep limit (f ++ s) := by
  obtain ⟨fs, rfl, hfs⟩ := hs
  refine ⟨f :: fs, rfl, fun g hg => ?_⟩
  rcases List.mem_cons.mp hg with rfl | hg
  · exact hf
  · exact hfs g hg

/-- Records are none at all, or a record and then records. -/
theorem Lines.cases {s : List α} (h : Lines sep limit s) :
    s = [] ∨ ∃ f t, s = f ++ t ∧ Line sep limit f ∧ Lines sep limit t := by
  obtain ⟨fs, rfl, hfs⟩ := h
  cases fs with
  | nil => exact .inl rfl
  | cons f fs =>
    exact .inr ⟨f, fs.flatten, rfl, hfs f (by simp), fs, rfl, fun g hg => hfs g (by simp [hg])⟩

theorem append_cons_inj {l l' s t : List α} (hl : sep ∉ l) (hl' : sep ∉ l')
    (h : l ++ sep :: s = l' ++ sep :: t) : l = l' ∧ s = t := by
  rcases List.append_eq_append_iff.mp h with ⟨m, rfl, hm⟩ | ⟨m, rfl, hm⟩ <;> cases m with
  | nil => simpa [eq_comm] using hm
  | cons a m => simp_all

/-- Two streams that are one start with the same record. -/
theorem Line.unique {f g s t : List α} {limit' : Nat} (hf : Line sep limit f)
    (hg : Line sep limit' g) (h : f ++ s = g ++ t) : f = g ∧ s = t := by
  obtain ⟨l, rfl, hl, -⟩ := hf
  obtain ⟨l', rfl, hl', -⟩ := hg
  simp only [List.append_assoc, List.singleton_append] at h
  obtain ⟨rfl, rfl⟩ := append_cons_inj hl hl' h
  exact ⟨rfl, rfl⟩

end Records

/-! ## Splitting a stream -/

section Split

variable {α : Type} [DecidableEq α] (sep : α) (limit : Nat)

/-- At most so many records from the start of a stream, and why there are no more
where they are fewer. -/
def split : Nat → List α → List (List α) × Option End
  | 0, _ => ([], none)
  | n + 1, s =>
    let l := s.takeWhile (· ≠ sep)
    match s.dropWhile (· ≠ sep) with
    | [] => ([], some (if l.length ≤ limit then .ended else .oversized))
    | _ :: rest =>
      if l.length + 1 ≤ limit then
        let (fs, e) := split n rest
        ((l ++ [sep]) :: fs, e)
      else ([], some .oversized)

variable {sep limit}

theorem takeWhile_line {l t : List α} (h : sep ∉ l) :
    (l ++ sep :: t).takeWhile (· ≠ sep) = l := by
  have hl : ∀ a ∈ l, decide (a ≠ sep) = true := fun a ha => by
    simpa using fun heq : a = sep => h (heq ▸ ha)
  rw [List.takeWhile_append_of_pos hl]
  simp

theorem dropWhile_line {l t : List α} (h : sep ∉ l) :
    (l ++ sep :: t).dropWhile (· ≠ sep) = sep :: t := by
  have hl : ∀ a ∈ l, decide (a ≠ sep) = true := fun a ha => by
    simpa using fun heq : a = sep => h (heq ▸ ha)
  rw [List.dropWhile_append_of_pos hl]
  simp

theorem takeWhile_none {s : List α} (h : sep ∉ s) : s.takeWhile (· ≠ sep) = s := by
  rw [List.takeWhile_eq_self_iff]
  intro a ha
  simpa using fun heq : a = sep => h (heq ▸ ha)

theorem dropWhile_none {s : List α} (h : sep ∉ s) : s.dropWhile (· ≠ sep) = [] := by
  rw [List.dropWhile_eq_nil_iff]
  intro a ha
  simpa using fun heq : a = sep => h (heq ▸ ha)

theorem split_line {l t : List α} (n : Nat) (h : sep ∉ l) (hlen : l.length + 1 ≤ limit) :
    split sep limit (n + 1) (l ++ sep :: t) =
      ((l ++ [sep]) :: (split sep limit n t).1, (split sep limit n t).2) := by
  simp only [split, takeWhile_line h, dropWhile_line h, if_pos hlen]

theorem split_long {l t : List α} (n : Nat) (h : sep ∉ l) (hlen : ¬ l.length + 1 ≤ limit) :
    split sep limit (n + 1) (l ++ sep :: t) = ([], some .oversized) := by
  simp only [split, takeWhile_line h, dropWhile_line h, if_neg hlen]

theorem split_rest {s : List α} (n : Nat) (h : sep ∉ s) :
    split sep limit (n + 1) s = ([], some (if s.length ≤ limit then .ended else .oversized)) := by
  simp only [split, takeWhile_none h, dropWhile_none h]

end Split

end lines
