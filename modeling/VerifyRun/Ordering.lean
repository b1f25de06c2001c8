-- The order of a rule, set against the rationals. `_compare_numeric` builds no
-- number: it compares the signs and then the digit text, and the answer is
-- the sign of the difference of the numbers that the operands denote.
import VerifyRun.Operands
import VerifyRun.RoundTrip
import VerifyRun.Lib.Numeral

namespace vfy.gate

open numeral

/-! ## What an operand denotes -/

theorem digit_cases {c : CodePoint} (h : expr.isDigit c = true) :
    ∃ ch : Char, c = .scalar ch ∧ 48 ≤ ch.toNat ∧ ch.toNat ≤ 57 := by
  unfold expr.isDigit re.digit? at h
  split at h
  · rename_i ch
    split at h
    · rename_i hd
      exact ⟨ch, rfl, hd.1, hd.2⟩
    · simp at h
  · simp at h

theorem ten_pos : 0 < 10 := by omega

theorem isDigit_zero : expr.isDigit (.scalar '0') = true := by decide

theorem ord_zero : (CodePoint.scalar '0').ord - 48 = 0 := by decide

theorem digit_lt {c : CodePoint} (h : expr.isDigit c = true) : c.ord - 48 < 10 := by
  obtain ⟨ch, rfl, h48, h57⟩ := digit_cases h
  simp only [CodePoint.ord]
  omega

/-- Digits are ordered as the numbers that they write. -/
theorem digit_lt_digit {c d : CodePoint} (hc : expr.isDigit c = true) (hd : expr.isDigit d = true) :
    c.ord - 48 < d.ord - 48 ↔ c < d := by
  obtain ⟨ch, rfl, hc48, hc57⟩ := digit_cases hc
  obtain ⟨dh, rfl, hd48, hd57⟩ := digit_cases hd
  show ch.toNat - 48 < dh.toNat - 48 ↔ ch.toNat < dh.toNat
  omega

/-- The decimal digits, as code points. -/
def decimals : Digits CodePoint where
  base := 10
  value c := c.ord - 48
  IsDigit c := expr.isDigit c = true
  zero := .scalar '0'
  base_pos := ten_pos
  isDigit_zero := isDigit_zero
  value_zero := ord_zero
  value_lt := digit_lt
  value_lt_value := digit_lt_digit

/-- The text of a whole part: `0|[1-9][0-9]*`. -/
structure IsWhole (whole : Str) : Prop where
  digits : decimals.All whole
  head : whole = lit "0" ∨ ∃ c rest, whole = c :: rest ∧ c ≠ .scalar '0'

/-- The grammar `-?(0|[1-9][0-9]*)(\.[0-9]+)?`, and the parts of a text of it. -/
structure IsDecimal (s : Str) (negative : Bool) (whole fraction : Str) : Prop where
  text : s = (if negative then [.scalar '-'] else []) ++
    (whole ++ if fraction = [] then [] else .scalar '.' :: fraction)
  whole : IsWhole whole
  fraction : decimals.All fraction

/-- The exact rational that an operand denotes: an integer itself, and a
decimal text with at most 1024 digits the number that it writes. -/
inductive Denotes : Value → ℚ → Prop where
  | int (i : Int) : Denotes (.int i) i
  | decimal {s whole fraction : Str} {negative : Bool} (h : IsDecimal s negative whole fraction)
      (hlen : whole.length + fraction.length ≤ 1024) :
      Denotes (.str s) ((if negative then -1 else 1) * decimals.amount whole fraction)

/-- The operand is a number that can be compared. -/
def Comparable (v : Value) : Prop := ∃ q, Denotes v q

/-! ## Reading the grammar -/

theorem zero_digits : decimals.All (lit "0") := Digits.All.zeros 1

theorem indexOf_split {s whole : Str} (h : expr.indexOf s = some whole) :
    IsWhole whole ∧ ∃ tail, s = whole ++ tail := by
  unfold expr.indexOf at h
  split at h
  · rename_i c rest
    by_cases hzero : c = .scalar '0'
    · rw [if_pos hzero] at h
      cases h
      subst hzero
      exact ⟨⟨zero_digits, Or.inl rfl⟩, rest, rfl⟩
    · rw [if_neg hzero] at h
      split at h
      · rename_i hc
        cases h
        refine ⟨⟨?_, Or.inr ⟨c, _, rfl, hzero⟩⟩, rest.dropWhile expr.isDigit, ?_⟩
        · intro d hd
          rcases List.mem_cons.mp hd with rfl | hd
          · exact hc
          · exact List.mem_takeWhile_imp hd
        · rw [List.cons_append, List.takeWhile_append_dropWhile]
      · cases h
  · cases h

/-- A whole part is read up to the first character that is no digit. -/
theorem indexOf_append {whole tail : Str} (h : IsWhole whole)
    (htail : ∀ c ∈ tail.head?, expr.isDigit c = false) :
    expr.indexOf (whole ++ tail) = some whole := by
  rcases h.head with rfl | ⟨c, rest, rfl, hc⟩
  · rfl
  · have hdc : expr.isDigit c = true := h.digits c (by simp)
    have hrest : ∀ d ∈ rest, expr.isDigit d = true := fun d hd => h.digits d (by simp [hd])
    have htake : tail.takeWhile expr.isDigit = [] := by
      cases tail with
      | nil => rfl
      | cons d tail => rw [List.takeWhile_cons, htail d (by simp)]; rfl
    rw [List.cons_append, expr.indexOf, if_neg hc, if_pos hdc,
      List.takeWhile_append_of_pos hrest, htake, List.append_nil]

/-- What is after the whole part: nothing, or a point and its digits. -/
def fraction_groups : Str → Option Str
  | [] => some []
  | .scalar '.' :: c :: fraction =>
    if (c :: fraction).all expr.isDigit then some (c :: fraction) else none
  | _ => none

theorem fraction_groups_eq_some {tail fraction : Str} : fraction_groups tail = some fraction ↔
    decimals.All fraction ∧ tail = if fraction = [] then [] else .scalar '.' :: fraction := by
  constructor
  · intro h
    unfold fraction_groups at h
    split at h
    · cases h
      exact ⟨by simp [Digits.All], rfl⟩
    · split at h
      · rename_i hall
        cases h
        exact ⟨fun d hd => List.all_eq_true.mp hall d hd, rfl⟩
      · cases h
    · cases h
  · rintro ⟨hall, rfl⟩
    cases fraction with
    | nil => rfl
    | cons c fraction =>
      have : (c :: fraction).all expr.isDigit = true := List.all_eq_true.mpr hall
      simp only [reduceCtorEq, if_false, fraction_groups, this, if_true]

/-- The groups after the sign. -/
def unsigned_groups (negative : Bool) (rest : Str) : Option (Bool × Str × Str) :=
  (expr.indexOf rest).bind fun whole =>
    (fraction_groups (rest.drop whole.length)).map fun fraction => (negative, whole, fraction)

theorem unsigned_eq (negative : Bool) (rest : Str) :
    (match expr.indexOf rest with
    | none => none
    | some whole =>
      match rest.drop whole.length with
      | [] => some (negative, whole, [])
      | .scalar '.' :: c :: fraction =>
        if (c :: fraction).all expr.isDigit then some (negative, whole, c :: fraction) else none
      | _ => none) = unsigned_groups negative rest := by
  unfold unsigned_groups
  cases expr.indexOf rest with
  | none => rfl
  | some whole =>
    simp only [Option.bind_some]
    generalize rest.drop whole.length = tail
    split
    · rfl
    · rename_i c fraction
      rw [fraction_groups]
      split <;> rfl
    · rename_i hnil hpoint
      rw [fraction_groups]
      · rfl
      · exact hnil
      · exact hpoint

theorem decimal_groups_minus (rest : Str) :
    decimal_groups (.scalar '-' :: rest) = unsigned_groups true rest := unsigned_eq true rest

theorem decimal_groups_plain {s : Str} (h : s.head? ≠ some (.scalar '-')) :
    decimal_groups s = unsigned_groups false s := by
  rw [← unsigned_eq]
  unfold decimal_groups
  split
  · rename_i hs
    split at hs
    · simp at h
    · cases hs
      rfl

theorem unsigned_groups_eq_some {negative negative' : Bool} {rest whole fraction : Str} :
    unsigned_groups negative rest = some (negative', whole, fraction) ↔
      negative' = negative ∧ IsWhole whole ∧ decimals.All fraction ∧
        rest = whole ++ if fraction = [] then [] else .scalar '.' :: fraction := by
  unfold unsigned_groups
  constructor
  · intro h
    obtain ⟨w, hw, h⟩ := Option.bind_eq_some_iff.mp h
    obtain ⟨f, hf, he⟩ := Option.map_eq_some_iff.mp h
    cases he
    obtain ⟨hwhole, tail, rfl⟩ := indexOf_split hw
    rw [List.drop_left, fraction_groups_eq_some] at hf
    exact ⟨rfl, hwhole, hf.1, by rw [hf.2]⟩
  · rintro ⟨rfl, hwhole, hall, rfl⟩
    have hindex := @indexOf_append _ (if fraction = [] then [] else .scalar '.' :: fraction)
      hwhole (by intro c hc; split at hc <;> simp at hc; subst hc; rfl)
    rw [hindex, Option.bind_some, List.drop_left, fraction_groups_eq_some.mpr ⟨hall, rfl⟩,
      Option.map_some]

theorem isWhole_head {whole : Str} (h : IsWhole whole) :
    ∃ c rest, whole = c :: rest ∧ expr.isDigit c = true := by
  rcases h.head with rfl | ⟨c, rest, rfl, _⟩
  · exact ⟨_, _, rfl, rfl⟩
  · exact ⟨c, rest, rfl, h.digits c (by simp)⟩

theorem decimal_groups_eq_some {s whole fraction : Str} {negative : Bool} :
    decimal_groups s = some (negative, whole, fraction) ↔ IsDecimal s negative whole fraction := by
  by_cases hs : s.head? = some (.scalar '-')
  · obtain ⟨rest, rfl⟩ : ∃ rest, s = .scalar '-' :: rest := by
      cases s with
      | nil => simp at hs
      | cons c rest => exact ⟨rest, by simpa using hs⟩
    rw [decimal_groups_minus, unsigned_groups_eq_some]
    constructor
    · rintro ⟨rfl, hw, hf, rfl⟩
      exact ⟨rfl, hw, hf⟩
    · rintro ⟨htext, hw, hf⟩
      cases negative with
      | true => exact ⟨rfl, hw, hf, by simpa using htext⟩
      | false =>
        obtain ⟨c, rest, rfl, hc⟩ := isWhole_head hw
        have : c = .scalar '-' := by simpa using (congrArg List.head? htext).symm
        subst this
        cases hc
  · rw [decimal_groups_plain hs, unsigned_groups_eq_some]
    constructor
    · rintro ⟨rfl, hw, hf, rfl⟩
      exact ⟨rfl, hw, hf⟩
    · rintro ⟨htext, hw, hf⟩
      cases negative with
      | true => exact absurd (by rw [htext]; rfl) hs
      | false => exact ⟨rfl, hw, hf, by simpa using htext⟩

/-! ## The parts that are compared -/

/-- The parts that `_numeric_parts` gives: no zeros in front, none at the
end, and a minus only before a number that is not zero. -/
structure Numeric.Normal (n : Numeric) : Prop where
  whole : IsWhole n.whole
  fraction : decimals.All n.fraction
  sign : n.sign = 1 ∨ n.sign = -1 ∧ 0 < decimals.amount n.whole n.fraction

/-- The number that the parts stand for. -/
def Numeric.value (n : Numeric) : ℚ := n.sign * decimals.amount n.whole n.fraction

/-- A digit that is not `0` counts. -/
theorem digit_pos {c : CodePoint} (h : expr.isDigit c = true) (hne : c ≠ .scalar '0') :
    0 < decimals.value c := by
  obtain ⟨ch, rfl, h48, h57⟩ := digit_cases h
  have hch : ch.toNat ≠ 48 := by
    intro h0
    exact hne (congrArg _ (Char.toNat_inj.mp (h0.trans rfl)))
  show 0 < ch.toNat - 48
  omega

theorem strip_left_spec {whole : Str} (h : IsWhole whole) : strip_left whole = whole := by
  rcases h.head with rfl | ⟨c, rest, rfl, hc⟩
  · rfl
  · unfold strip_left
    rw [List.dropWhile_cons_of_neg (by simpa using hc)]

/-- Zeros at the end of a fraction are stripped, and no others. -/
theorem strip_right_spec {fraction : Str} (h : decimals.All fraction) :
    decimals.All (strip_right fraction) ∧
      decimals.fraction (strip_right fraction) = decimals.fraction fraction ∧
      (strip_right fraction ≠ [] → 0 < decimals.fraction (strip_right fraction)) := by
  have hsplit := congrArg List.reverse
    (List.takeWhile_append_dropWhile (p := (· = CodePoint.scalar '0')) (l := fraction.reverse))
  rw [List.reverse_append, List.reverse_reverse] at hsplit
  have hzeros : (fraction.reverse.takeWhile (· = CodePoint.scalar '0')).reverse =
      List.replicate (fraction.reverse.takeWhile (· = CodePoint.scalar '0')).length decimals.zero := by
    rw [List.eq_replicate_iff, List.length_reverse]
    refine ⟨rfl, ?_⟩
    intro c hc
    have hzero := List.mem_takeWhile_imp (List.mem_reverse.mp hc)
    exact of_decide_eq_true hzero
  have hsub : ∀ c ∈ strip_right fraction, c ∈ fraction := by
    intro c hc
    rw [← hsplit]
    exact List.mem_append_left _ hc
  refine ⟨fun c hc => h c (hsub c hc), ?_, ?_⟩
  · conv_rhs => rw [← hsplit, hzeros, Digits.fraction_zeros]
    rfl
  · intro hne
    have hlast : ∃ c ∈ strip_right fraction, c ≠ .scalar '0' := by
      have hdrop : fraction.reverse.dropWhile (· = CodePoint.scalar '0') ≠ [] := by
        simpa [strip_right] using hne
      refine ⟨_, List.mem_reverse.mpr (List.head_mem hdrop), ?_⟩
      simpa using List.head_dropWhile_not _ hdrop
    obtain ⟨c, hc, hne⟩ := hlast
    have hpos := Digits.number_pos hc (digit_pos (h c (hsub c hc)) hne)
    exact div_pos (by exact_mod_cast hpos) (Digits.base_pow_pos _)

theorem whole_pos {whole : Str} (h : IsWhole whole) (hne : whole ≠ lit "0") :
    0 < decimals.number whole := by
  rcases h.head with h0 | ⟨c, rest, rfl, hc⟩
  · exact absurd h0 hne
  · exact Digits.number_pos (by simp) (digit_pos (h.digits c (by simp)) hc)

/-- What is not written as zero is not zero. -/
theorem amount_pos {whole fraction : Str} (h : IsWhole whole)
    (hf : fraction ≠ [] → 0 < decimals.fraction fraction) (hne : whole ≠ lit "0" ∨ fraction ≠ []) :
    0 < decimals.amount whole fraction := by
  rcases hne with hw | hne
  · have : (0 : ℚ) < decimals.number whole := by exact_mod_cast whole_pos h hw
    exact add_pos_of_pos_of_nonneg this (Digits.fraction_nonneg _)
  · exact add_pos_of_nonneg_of_pos (Nat.cast_nonneg _) (hf hne)

theorem amount_zero : decimals.amount (lit "0") [] = 0 := by
  unfold Digits.amount Digits.fraction Digits.number
  simp [lit, ofText, decimals, CodePoint.ord]

theorem numeric_parts_decimal {s whole fraction : Str} {negative : Bool}
    (h : IsDecimal s negative whole fraction) (hlen : whole.length + fraction.length ≤ 1024) :
    ∃ n, numeric_parts (.str s) = some n ∧ n.Normal ∧
      n.value = (if negative then -1 else 1) * decimals.amount whole fraction := by
  obtain ⟨hall, hfrac, hpos⟩ := strip_right_spec h.fraction
  have hamount : decimals.amount whole (strip_right fraction) = decimals.amount whole fraction := by
    unfold Digits.amount
    rw [hfrac]
  simp only [numeric_parts, decimal_groups_eq_some.mpr h, strip_left_spec h.whole]
  rw [if_neg (by unfold MAX_NUMERIC_DIGITS; omega)]
  refine ⟨_, rfl, ?_, ?_⟩
  · constructor
    · exact h.whole
    · exact hall
    · by_cases hneg : negative = true ∧ (whole ≠ lit "0" ∨ strip_right fraction ≠ [])
      · exact Or.inr ⟨by rw [if_pos hneg], amount_pos h.whole hpos hneg.2⟩
      · exact Or.inl (by rw [if_neg hneg])
  · unfold Numeric.value
    simp only [hamount]
    cases negative with
    | false => simp
    | true =>
      by_cases hne : whole ≠ lit "0" ∨ strip_right fraction ≠ []
      · simp [hne]
      · obtain ⟨rfl, hnil⟩ : whole = lit "0" ∧ strip_right fraction = [] := by
          simpa [not_or] using hne
        rw [← hamount, hnil, amount_zero]
        simp

theorem number_ofText (t : Text) : decimals.number (ofText t) = Nat.ofDigitChars 10 t 0 := by
  rw [Nat.ofDigitChars_eq_foldl, Digits.number, ofText, List.foldl_map]
  congr 1
  funext n c
  show n * 10 + (c.toNat - 48) = 10 * n + (c.toNat - 48)
  omega

theorem isDigit_scalar {ch : Char} (h : ch.isDigit = true) : expr.isDigit (.scalar ch) = true := by
  have hd : '0' ≤ ch ∧ ch ≤ '9' := by simpa [Char.isDigit, Char.le_def] using h
  rw [expr.isDigit, re.digit?, if_pos hd]
  rfl

theorem isWhole_toDigits (n : Nat) : IsWhole (ofText (Nat.toDigits 10 n)) := by
  constructor
  · intro c hc
    obtain ⟨ch, hch, rfl⟩ := List.mem_map.mp hc
    exact isDigit_scalar (Nat.isDigit_of_mem_toDigits (by omega) (by omega) hch)
  · rcases load.toDigits_head n with h0 | ⟨c, ds, he, _, hc⟩
    · exact Or.inl (congrArg ofText h0)
    · exact Or.inr ⟨.scalar c, ofText ds, by rw [he]; rfl, by simpa using hc⟩

theorem numeric_parts_int (i : Int) :
    ∃ n, numeric_parts (.int i) = some n ∧ n.Normal ∧ n.value = i := by
  have hdecimal : canon.decimal i.natAbs = Nat.toDigits 10 i.natAbs := rfl
  have hnumber : decimals.number (ofText (Nat.toDigits 10 i.natAbs)) = i.natAbs := by
    rw [number_ofText, Nat.ofDigitChars_ten_toDigits]
  have hamount : decimals.amount (ofText (Nat.toDigits 10 i.natAbs)) [] = i.natAbs := by
    unfold Digits.amount Digits.fraction
    rw [hnumber]
    simp
  refine ⟨_, rfl, ?_, ?_⟩
  · constructor
    · exact isWhole_toDigits _
    · exact fun c hc => by cases hc
    · by_cases hi : i < 0
      · refine Or.inr ⟨if_pos hi, ?_⟩
        rw [hdecimal, hamount]
        exact_mod_cast Int.natAbs_pos.mpr hi.ne
      · exact Or.inl (if_neg hi)
  · unfold Numeric.value
    simp only [hdecimal, hamount]
    by_cases hi : i < 0
    · rw [if_pos hi, Nat.cast_natAbs, abs_of_neg hi]
      push_cast
      ring
    · rw [if_neg hi, Nat.cast_natAbs, abs_of_nonneg (by omega)]
      push_cast
      ring

theorem numeric_parts_denotes {v : Value} {q : ℚ} (h : Denotes v q) :
    ∃ n, numeric_parts v = some n ∧ n.Normal ∧ n.value = q := by
  cases h with
  | int i => exact numeric_parts_int i
  | decimal h hlen => exact numeric_parts_decimal h hlen

theorem comparable_of_numeric_parts {v : Value} {n : Numeric} (h : numeric_parts v = some n) :
    Comparable v := by
  cases v with
  | int i => exact ⟨_, .int i⟩
  | str s =>
    simp only [numeric_parts] at h
    split at h
    · cases h
    · rename_i hg
      split at h
      · cases h
      · rename_i hlen
        exact ⟨_, .decimal (decimal_groups_eq_some.mp hg) (by unfold MAX_NUMERIC_DIGITS at hlen; omega)⟩
  | _ => cases h

/-! ## The comparison -/

/-- The sign of the difference of two numbers. -/
def sign_of (p q : ℚ) : Int := SignType.sign (p - q)

theorem sign_of_lt {p q : ℚ} (h : p < q) : sign_of p q = -1 := by
  unfold sign_of
  rw [sign_neg (sub_neg.mpr h)]
  rfl

theorem sign_of_gt {p q : ℚ} (h : q < p) : sign_of p q = 1 := by
  unfold sign_of
  rw [sign_pos (sub_pos.mpr h)]
  rfl

theorem sign_of_self (p : ℚ) : sign_of p p = 0 := by
  unfold sign_of
  rw [sub_self, sign_zero]
  rfl

/-- Whole parts of different lengths are ordered by their lengths. -/
theorem whole_lt_of_length {first second : Str} (hf : IsWhole first) (hs : IsWhole second)
    (hlen : first.length < second.length) : decimals.number first < decimals.number second := by
  rcases hs.head with rfl | ⟨c, rest, rfl, hc⟩
  · obtain ⟨d, rest, rfl, -⟩ := isWhole_head hf
    simp [lit, ofText] at hlen
  · exact Digits.number_lt_of_length hf.digits (digit_pos (hs.digits c (by simp)) hc) hlen

theorem ljust_eq (digits : Str) (width : Nat) :
    ljust digits width = digits ++ List.replicate (width - digits.length) decimals.zero := rfl

theorem all_ljust {digits : Str} (h : decimals.All digits) (width : Nat) :
    decimals.All (ljust digits width) := h.append (Digits.All.zeros _)

theorem length_ljust {digits : Str} {width : Nat} (h : digits.length ≤ width) :
    (ljust digits width).length = width := by
  rw [ljust_eq, List.length_append, List.length_replicate]
  omega

theorem fraction_ljust (digits : Str) (width : Nat) :
    decimals.fraction (ljust digits width) = decimals.fraction digits :=
  Digits.fraction_zeros _ _

theorem compare_magnitude_eq {a b : Numeric} (ha : a.Normal) (hb : b.Normal) :
    compare_magnitude a b = sign_of (decimals.amount a.whole a.fraction)
      (decimals.amount b.whole b.fraction) := by
  have hless : ∀ {x y : Numeric}, x.Normal → decimals.number x.whole < decimals.number y.whole →
      decimals.amount x.whole x.fraction < decimals.amount y.whole y.fraction :=
    fun hx h => Digits.amount_lt_of_whole hx.fraction h
  unfold compare_magnitude
  by_cases hlen : a.whole.length ≠ b.whole.length
  · rw [if_pos hlen]
    by_cases hlt : a.whole.length < b.whole.length
    · rw [if_pos hlt, sign_of_lt (hless ha (whole_lt_of_length ha.whole hb.whole hlt))]
    · rw [if_neg hlt, sign_of_gt (hless hb (whole_lt_of_length hb.whole ha.whole (by omega)))]
  · rw [if_neg hlen]
    have hlen : a.whole.length = b.whole.length := not_not.mp hlen
    by_cases hne : a.whole ≠ b.whole
    · rw [if_pos hne]
      by_cases hlt : a.whole < b.whole
      · rw [if_pos hlt, sign_of_lt (hless ha
          ((Digits.number_lt_number ha.whole.digits hb.whole.digits hlen).mpr hlt))]
      · have hgt : b.whole < a.whole := lt_of_le_of_ne (not_lt.mp hlt) hne.symm
        rw [if_neg hlt, sign_of_gt (hless hb
          ((Digits.number_lt_number hb.whole.digits ha.whole.digits hlen.symm).mpr hgt))]
    · rw [if_neg hne]
      have hwhole : a.whole = b.whole := not_not.mp hne
      -- the fractions are padded to one width, which does not change them
      generalize hw : max a.fraction.length b.fraction.length = width
      have hla := @length_ljust a.fraction width (by omega)
      have hlb := @length_ljust b.fraction width (by omega)
      have hpa := all_ljust ha.fraction width
      have hpb := all_ljust hb.fraction width
      have hstep : ∀ {x y : Numeric}, x.whole = y.whole →
          decimals.fraction (ljust x.fraction width) < decimals.fraction (ljust y.fraction width) →
          decimals.amount x.whole x.fraction < decimals.amount y.whole y.fraction := by
        intro x y hxy h
        rw [fraction_ljust, fraction_ljust] at h
        unfold Digits.amount
        rw [hxy]
        exact add_lt_add_right h _
      by_cases heq : ljust a.fraction width = ljust b.fraction width
      · have hf : decimals.fraction a.fraction = decimals.fraction b.fraction := by
          rw [← fraction_ljust a.fraction width, heq, fraction_ljust]
        simp only [if_pos heq]
        unfold Digits.amount
        rw [hwhole, hf, sign_of_self]
      · simp only [if_neg heq]
        by_cases hlt : ljust a.fraction width < ljust b.fraction width
        · rw [if_pos hlt, sign_of_lt (hstep hwhole
            ((Digits.fraction_lt_fraction hpa hpb (hla.trans hlb.symm)).mpr hlt))]
        · have hgt := lt_of_le_of_ne (not_lt.mp hlt) (Ne.symm heq)
          rw [if_neg hlt, sign_of_gt (hstep hwhole.symm
            ((Digits.fraction_lt_fraction hpb hpa (hlb.trans hla.symm)).mpr hgt))]

theorem sign_of_neg (p q : ℚ) : sign_of (-p) (-q) = -sign_of p q := by
  unfold sign_of
  rw [show -p - -q = -(p - q) by ring, Left.sign_neg]
  cases SignType.sign (p - q) <;> rfl

theorem compare_numeric_eq {l r : Value} {a b : Numeric} (hl : numeric_parts l = some a)
    (hr : numeric_parts r = some b) (ha : a.Normal) (hb : b.Normal) :
    compare_numeric l r = some (sign_of a.value b.value) := by
  unfold compare_numeric
  rw [hl, hr]
  simp only [compare_magnitude_eq ha hb]
  have hna := Digits.amount_nonneg (D := decimals) a.whole a.fraction
  have hnb := Digits.amount_nonneg (D := decimals) b.whole b.fraction
  unfold Numeric.value
  rcases ha.sign with hsa | ⟨hsa, hpa⟩
  · rcases hb.sign with hsb | ⟨hsb, hpb⟩
    · simp [hsa, hsb]
    · rw [hsa, hsb, if_pos (by decide), if_neg (by decide), sign_of_gt]
      push_cast
      linarith
  · rcases hb.sign with hsb | ⟨hsb, hpb⟩
    · rw [hsa, hsb, if_pos (by decide), if_pos (by decide), sign_of_lt]
      push_cast
      linarith
    · rw [hsa, hsb, if_neg (by decide), if_neg (by decide), ← sign_of_neg]
      push_cast
      rw [neg_one_mul, neg_one_mul]

/-! ## The order of the operands -/

/-- The one operand is at most the other, as `<=` of a rule answers. -/
def AtMost (l r : Value) : Prop := ∃ order, compare_numeric l r = some order ∧ order ≤ 0

theorem compare_numeric_denotes {l r : Value} {p q : ℚ} (hl : Denotes l p) (hr : Denotes r q) :
    compare_numeric l r = some (sign_of p q) := by
  obtain ⟨a, hla, ha, rfl⟩ := numeric_parts_denotes hl
  obtain ⟨b, hrb, hb, rfl⟩ := numeric_parts_denotes hr
  exact compare_numeric_eq hla hrb ha hb

theorem compare_numeric_eq_none_iff {l r : Value} :
    compare_numeric l r = none ↔ ¬ (Comparable l ∧ Comparable r) := by
  constructor
  · rintro hnone ⟨⟨p, hl⟩, q, hr⟩
    rw [compare_numeric_denotes hl hr] at hnone
    cases hnone
  · intro hno
    unfold compare_numeric
    split
    · rename_i a b hla hrb
      exact absurd ⟨comparable_of_numeric_parts hla, comparable_of_numeric_parts hrb⟩ hno
    · rfl

theorem sign_of_le_zero_iff {p q : ℚ} : sign_of p q ≤ 0 ↔ p ≤ q := by
  rcases lt_trichotomy p q with h | rfl | h
  · simp [sign_of_lt h, h.le]
  · simp [sign_of_self]
  · simp [sign_of_gt h, h]

theorem atMost_iff {l r : Value} {p q : ℚ} (hl : Denotes l p) (hr : Denotes r q) :
    AtMost l r ↔ p ≤ q := by
  unfold AtMost
  rw [compare_numeric_denotes hl hr]
  simp [sign_of_le_zero_iff]

theorem comparable_of_atMost {l r : Value} (h : AtMost l r) : Comparable l ∧ Comparable r := by
  obtain ⟨order, hc, -⟩ := h
  by_contra hno
  rw [compare_numeric_eq_none_iff.mpr hno] at hc
  cases hc

/-- `_compare_numeric` has no answer exactly when one of the operands is no
number that can be compared. Else its answer is the sign of the difference of
the exact rationals that they denote, so it is a total preorder on them. -/
theorem compare_numeric_is_exact :
    (∀ l r : Value, compare_numeric l r = none ↔ ¬ (Comparable l ∧ Comparable r)) ∧
    (∀ (l r : Value) (p q : ℚ), Denotes l p → Denotes r q →
      compare_numeric l r = some (SignType.sign (p - q) : ℤ)) ∧
    (∀ l r : Value, Comparable l → Comparable r → AtMost l r ∨ AtMost r l) ∧
    ∀ l m r : Value, AtMost l m → AtMost m r → AtMost l r := by
  refine ⟨fun l r => compare_numeric_eq_none_iff, fun l r p q hl hr => ?_, ?_, ?_⟩
  · exact compare_numeric_denotes hl hr
  · rintro l r ⟨p, hl⟩ ⟨q, hr⟩
    rw [atMost_iff hl hr, atMost_iff hr hl]
    exact le_total p q
  · intro l m r hlm hmr
    obtain ⟨⟨p, hl⟩, q, hm⟩ := comparable_of_atMost hlm
    obtain ⟨-, s, hr⟩ := comparable_of_atMost hmr
    rw [atMost_iff hl hm] at hlm
    rw [atMost_iff hm hr] at hmr
    rw [atMost_iff hl hr]
    exact hlm.trans hmr

end vfy.gate
