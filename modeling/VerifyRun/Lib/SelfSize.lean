-- A document that says its own size in digits. The size depends on the number
-- that it says; writing the size of the last draft into the next one settles
-- with the fourth draft.
import Mathlib

namespace self_size

/-- How many digits a number has. -/
def digits (b n : ℕ) : ℕ := (Nat.toDigits b n).length

/-- The size of a document that says a number: the digits, and everything else. -/
def size (b rest n : ℕ) : ℕ := rest + digits b n

/-- The drafts: the first one says 0, and each other one the size of the one before. -/
def draft (b rest : ℕ) : ℕ → ℕ
  | 0 => 0
  | k + 1 => size b rest (draft b rest k)

theorem digits_pos (b n : ℕ) : 0 < digits b n := Nat.length_toDigits_pos

section

variable {b : ℕ} (hb : 1 < b)

include hb

theorem digits_le_iff {n k : ℕ} (hk : 0 < k) : digits b n ≤ k ↔ n < b ^ k :=
  Nat.length_toDigits_le_iff hb hk

theorem digits_mono {m n : ℕ} (h : m ≤ n) : digits b m ≤ digits b n := by
  have hn : n < b ^ digits b n := (digits_le_iff hb (digits_pos b n)).mp le_rfl
  exact (digits_le_iff hb (digits_pos b n)).mpr (h.trans_lt hn)

/-- A number that is as large as its base times another one has one digit more. -/
theorem digits_mul_le (n : ℕ) : digits b (b * n) ≤ digits b n + 1 := by
  have hn : n < b ^ digits b n := (digits_le_iff hb (digits_pos b n)).mp le_rfl
  refine (digits_le_iff hb (Nat.succ_pos _)).mpr ?_
  rw [pow_succ, mul_comm]
  exact Nat.mul_lt_mul_of_pos_right hn (by omega)

theorem digits_le_self {n : ℕ} (hn : 0 < n) : digits b n ≤ n :=
  (digits_le_iff hb hn).mpr (Nat.lt_pow_self hb)

/-- The fourth draft says its own size. -/
theorem draft_settled (rest : ℕ) : size b rest (draft b rest 3) = draft b rest 3 := by
  have hone : digits b 0 = 1 := by simp [digits]
  have hfirst : draft b rest 1 = rest + 1 := by simp [draft, size, hone]
  have hsecond : draft b rest 2 = rest + digits b (rest + 1) := by rw [draft, hfirst, size]
  have hthird : draft b rest 3 = rest + digits b (draft b rest 2) := by rw [draft, size]
  have hself : digits b (rest + 1) ≤ rest + 1 := digits_le_self hb (Nat.succ_pos _)
  have hpos := digits_pos b (rest + 1)
  have hdouble : 2 * (rest + 1) ≤ b * (rest + 1) := Nat.mul_le_mul_right _ hb
  have hmore := digits_mul_le hb (rest + 1)
  -- the second draft has the digits of the first one, or one more
  have hgrows : digits b (rest + 1) ≤ digits b (draft b rest 2) := digits_mono hb (by omega)
  have hsecond_le : digits b (draft b rest 2) ≤ digits b (rest + 1) + 1 :=
    (digits_mono hb (by omega)).trans hmore
  -- and so has the third one
  have hthird_le : digits b (draft b rest 3) ≤ digits b (rest + 1) + 1 :=
    (digits_mono hb (by omega)).trans hmore
  have hkeeps : digits b (draft b rest 2) ≤ digits b (draft b rest 3) := digits_mono hb (by omega)
  have hlast : digits b (draft b rest 3) = digits b (draft b rest 2) := by
    by_cases hsame : digits b (draft b rest 2) = digits b (rest + 1)
    · have hfixed : draft b rest 3 = draft b rest 2 := by omega
      rw [hfixed]
    · omega
  rw [size, hlast, ← hthird]

end

end self_size
