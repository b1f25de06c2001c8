-- Numbers written in positional digits, over any ordered alphabet. Digit text
-- is compared as text: by its length, then letter by letter.
import Mathlib

namespace numeral

/-- The digits of a base, as letters of an ordered alphabet. -/
structure Digits (α : Type) [LinearOrder α] where
  base : ℕ
  value : α → ℕ
  IsDigit : α → Prop
  zero : α
  base_pos : 0 < base
  isDigit_zero : IsDigit zero
  value_zero : value zero = 0
  value_lt : ∀ {c}, IsDigit c → value c < base
  value_lt_value : ∀ {c d}, IsDigit c → IsDigit d → (value c < value d ↔ c < d)

variable {α : Type} [LinearOrder α] (D : Digits α)

namespace Digits

/-- All the letters are digits. -/
def All (s : List α) : Prop := ∀ c ∈ s, D.IsDigit c

/-- The number that the letters write, the highest digit first. -/
def number (s : List α) : ℕ := s.foldl (fun n c => n * D.base + D.value c) 0

/-- The fraction that the letters write after a point. -/
def fraction (s : List α) : ℚ := D.number s / D.base ^ s.length

/-- A whole part and a fraction. -/
def amount (whole after : List α) : ℚ := D.number whole + D.fraction after

variable {D} {s t : List α}

theorem All.of_cons {c : α} (h : D.All (c :: s)) : D.IsDigit c ∧ D.All s :=
  ⟨h c (by simp), fun d hd => h d (by simp [hd])⟩

theorem All.append (hs : D.All s) (ht : D.All t) : D.All (s ++ t) := by
  intro c hc
  rcases List.mem_append.mp hc with hc | hc
  · exact hs c hc
  · exact ht c hc

theorem All.zeros (n : ℕ) : D.All (List.replicate n D.zero) := by
  intro c hc
  rw [List.eq_of_mem_replicate hc]
  exact D.isDigit_zero

/-! ## The number of a text -/

@[simp] theorem number_nil : D.number [] = 0 := rfl

theorem number_append (s t : List α) :
    D.number (s ++ t) = D.number s * D.base ^ t.length + D.number t := by
  have hfold : ∀ (t : List α) (n : ℕ), t.foldl (fun n c => n * D.base + D.value c) n =
      n * D.base ^ t.length + D.number t := by
    intro t
    induction t with
    | nil => simp
    | cons c t ih =>
      intro n
      have hcons : D.number (c :: t) = D.value c * D.base ^ t.length + D.number t := by
        rw [← ih, number, List.foldl_cons, Nat.zero_mul, Nat.zero_add]
      rw [List.foldl_cons, ih, hcons, List.length_cons, pow_succ]
      ring
  rw [number, List.foldl_append, hfold]
  rfl

theorem number_cons (c : α) (s : List α) :
    D.number (c :: s) = D.value c * D.base ^ s.length + D.number s := by
  have := number_append (D := D) [c] s
  simpa [number] using this

theorem number_zeros (n : ℕ) : D.number (List.replicate n D.zero) = 0 := by
  induction n with
  | zero => rfl
  | succ n ih => rw [List.replicate_succ, number_cons, ih, D.value_zero, Nat.zero_mul]

theorem number_lt (h : D.All s) : D.number s < D.base ^ s.length := by
  induction s with
  | nil => simp
  | cons c s ih =>
    obtain ⟨hc, hs⟩ := h.of_cons
    have hv := D.value_lt hc
    have hrest := ih hs
    calc D.number (c :: s) = D.value c * D.base ^ s.length + D.number s := number_cons c s
      _ < D.value c * D.base ^ s.length + D.base ^ s.length := by omega
      _ = (D.value c + 1) * D.base ^ s.length := by ring
      _ ≤ D.base * D.base ^ s.length := Nat.mul_le_mul_right _ hv
      _ = D.base ^ (c :: s).length := by rw [List.length_cons, pow_succ, Nat.mul_comm]

/-- Texts of one length are ordered as their numbers are. -/
theorem number_lt_number (hs : D.All s) (ht : D.All t) (hlen : s.length = t.length) :
    D.number s < D.number t ↔ s < t := by
  induction s generalizing t with
  | nil =>
    rw [List.length_nil, eq_comm, List.length_eq_zero_iff] at hlen
    subst hlen
    simp
  | cons c s ih =>
    cases t with
    | nil => simp at hlen
    | cons d t =>
      obtain ⟨hc, hs'⟩ := hs.of_cons
      obtain ⟨hd, ht'⟩ := ht.of_cons
      have hlen' : s.length = t.length := by simpa using hlen
      rw [number_cons, number_cons, List.cons_lt_cons_iff, hlen']
      have hns := number_lt hs'
      have hnt := number_lt ht'
      rw [hlen'] at hns
      rcases lt_trichotomy (D.value c) (D.value d) with hlt | heq | hgt
      · have : (D.value c + 1) * D.base ^ t.length ≤ D.value d * D.base ^ t.length :=
          Nat.mul_le_mul_right _ hlt
        have hcd := (D.value_lt_value hc hd).mp hlt
        simp only [hcd, true_or, iff_true]
        nlinarith
      · have hcd : c = d := by
          rcases lt_trichotomy c d with h | h | h
          · exact absurd ((D.value_lt_value hc hd).mpr h) (by omega)
          · exact h
          · exact absurd ((D.value_lt_value hd hc).mpr h) (by omega)
        subst hcd
        simp [ih hs' ht' hlen']
      · have : (D.value d + 1) * D.base ^ t.length ≤ D.value c * D.base ^ t.length :=
          Nat.mul_le_mul_right _ hgt
        have hdc := (D.value_lt_value hd hc).mp hgt
        constructor
        · intro h
          nlinarith
        · rintro (h | ⟨h, _⟩)
          · exact absurd h (lt_asymm hdc)
          · exact absurd h (ne_of_gt hdc)

theorem number_inj (hs : D.All s) (ht : D.All t) (hlen : s.length = t.length) :
    D.number s = D.number t ↔ s = t := by
  constructor
  · intro h
    rcases lt_trichotomy s t with hlt | heq | hgt
    · have := (number_lt_number hs ht hlen).mpr hlt
      omega
    · exact heq
    · have := (number_lt_number ht hs hlen.symm).mpr hgt
      omega
  · rintro rfl
    rfl

/-- A text whose first digit is not zero writes a larger number than any
shorter text. -/
theorem number_lt_of_length {c : α} (hs : D.All s) (hc : 0 < D.value c)
    (hlen : s.length < (c :: t).length) : D.number s < D.number (c :: t) := by
  have hpow : D.base ^ s.length ≤ D.base ^ t.length :=
    Nat.pow_le_pow_right D.base_pos (by rw [List.length_cons] at hlen; omega)
  calc D.number s < D.base ^ s.length := number_lt hs
    _ ≤ D.base ^ t.length := hpow
    _ ≤ D.value c * D.base ^ t.length := Nat.le_mul_of_pos_left _ hc
    _ ≤ D.number (c :: t) := by rw [number_cons]; omega

theorem number_pos {c : α} (hc : c ∈ s) (hv : 0 < D.value c) : 0 < D.number s := by
  obtain ⟨before, after, rfl⟩ := List.append_of_mem hc
  rw [number_append, number_cons]
  have := Nat.pow_pos (n := after.length) D.base_pos
  have := Nat.mul_pos hv this
  omega

/-- Texts are compared by their heads first, where these have one length. -/
theorem append_lt_append_iff {s t s' t' : List α} (h : s.length = t.length) :
    s ++ s' < t ++ t' ↔ s < t ∨ s = t ∧ s' < t' := by
  induction s generalizing t with
  | nil =>
    rw [List.length_nil, eq_comm, List.length_eq_zero_iff] at h
    subst h
    simp
  | cons c s ih =>
    cases t with
    | nil => simp at h
    | cons d t =>
      rw [List.cons_append, List.cons_append, List.cons_lt_cons_iff, List.cons_lt_cons_iff,
        ih (by simpa using h), List.cons.injEq]
      tauto

/-! ## Fractions -/

theorem base_pow_pos (n : ℕ) : (0 : ℚ) < (D.base : ℚ) ^ n :=
  pow_pos (by exact_mod_cast D.base_pos) n

theorem fraction_nonneg (s : List α) : 0 ≤ D.fraction s :=
  div_nonneg (Nat.cast_nonneg _) (base_pow_pos _).le

theorem fraction_lt_one (h : D.All s) : D.fraction s < 1 := by
  rw [fraction, div_lt_one (base_pow_pos _)]
  exact_mod_cast number_lt h

/-- Zeros at the end do not change a fraction. -/
theorem fraction_zeros (s : List α) (n : ℕ) :
    D.fraction (s ++ List.replicate n D.zero) = D.fraction s := by
  have hb := (base_pow_pos (D := D) n).ne'
  have hs := (base_pow_pos (D := D) s.length).ne'
  rw [fraction, fraction, number_append, number_zeros, List.length_append, List.length_replicate,
    pow_add, Nat.add_zero]
  push_cast
  field_simp

theorem fraction_lt_fraction (hs : D.All s) (ht : D.All t) (hlen : s.length = t.length) :
    D.fraction s < D.fraction t ↔ s < t := by
  rw [fraction, fraction, hlen, div_lt_div_iff_of_pos_right (base_pow_pos _), Nat.cast_lt,
    number_lt_number hs ht hlen]

theorem amount_nonneg (whole after : List α) : 0 ≤ D.amount whole after :=
  add_nonneg (Nat.cast_nonneg _) (fraction_nonneg _)

/-- The whole part decides before the fraction does. -/
theorem amount_lt_of_whole {whole whole' after after' : List α} (ha : D.All after)
    (h : D.number whole < D.number whole') : D.amount whole after < D.amount whole' after' := by
  have hone := fraction_lt_one ha
  have hnon := fraction_nonneg (D := D) after'
  have hle : (D.number whole : ℚ) + 1 ≤ D.number whole' := by exact_mod_cast h
  unfold amount
  linarith

end Digits

end numeral
