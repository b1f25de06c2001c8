-- The expiry of an authorization: an instant plus a whole number of seconds,
-- rendered with a calendar inverse of its own, and when it reads back as the
-- instant that was meant.
import VerifyRun.Instant
import VerifyRun.Lib.Outcomes

namespace vfy.authorization

open rulebook schema outcomes

/-! ## Rendering -/

/-- `"%0nd" % i`. -/
def zeroPadded (width : Nat) (i : Int) : Str :=
  let digits := Nat.toDigits 10 i.natAbs
  if i < 0 then ofText ('-' :: (List.replicate (width - 1 - digits.length) '0' ++ digits))
  else ofText (List.replicate (width - digits.length) '0' ++ digits)

/-- The year, the month and the day of a day counted from 1970-01-01. -/
def civil (days : Int) : Int × Int × Int :=
  let z := days + 719468
  let era := (if z ≥ 0 then z else z - 146096) / 146097
  let day_of_era := z - era * 146097
  let year_of_era :=
    (day_of_era - day_of_era / 1460 + day_of_era / 36524 - day_of_era / 146096) / 365
  let year := year_of_era + era * 400
  let day_of_year := day_of_era - (365 * year_of_era + year_of_era / 4 - year_of_era / 100)
  let month_position := (5 * day_of_year + 2) / 153
  let day := day_of_year - (153 * month_position + 2) / 5 + 1
  let month := if month_position < 10 then month_position + 3 else month_position - 9
  (if month ≤ 2 then year + 1 else year, month, day)

/-- A date, and the second of that day, in the grammar of the schemas. -/
def rendered (date : Int × Int × Int) (remainder : Int) : Str :=
  let (year, month, day) := date
  let rest := remainder % 3600
  zeroPadded 4 year ++ lit "-" ++ zeroPadded 2 month ++ lit "-" ++ zeroPadded 2 day ++ lit "T" ++
    zeroPadded 2 (remainder / 3600) ++ lit ":" ++ zeroPadded 2 (rest / 60) ++ lit ":" ++
    zeroPadded 2 (rest % 60) ++ lit "Z"

/-- `_add_seconds`. -/
def add_seconds (text : Value) (seconds : Int) : Except Exn Str := do
  let t ← instant text
  let total := (t + seconds * NANOS_PER_SECOND) / NANOS_PER_SECOND
  pure (rendered (civil (total / 86400)) (total % 86400))

/-! ## The calendar -/

/-- A day of an era of 400 years: its century, the four-year group in the
century, the year in the group and the day in the year. -/
structure EraDay (day_of_era c q k d : Int) : Prop where
  century : 0 ≤ c ∧ c ≤ 3
  group : 0 ≤ q ∧ q ≤ 24
  year : 0 ≤ k ∧ k ≤ 3
  day : 0 ≤ d ∧ d ≤ 365
  leap : d = 365 → k = 3 ∧ (q = 24 → c = 3)
  sum : day_of_era = 36524 * c + 1461 * q + 365 * k + d

theorem exists_eraDay {day_of_era : Int} (h : 0 ≤ day_of_era ∧ day_of_era ≤ 146096) :
    ∃ c q k d, EraDay day_of_era c q k d := by
  by_cases hlast : day_of_era = 146096
  · exact ⟨3, 24, 3, 365, by omega, by omega, by omega, by omega, by omega, by omega⟩
  · by_cases hleap : day_of_era % 36524 % 1461 = 1460
    · refine ⟨day_of_era / 36524, day_of_era % 36524 / 1461, 3, 365, ?_, ?_, ?_, ?_, ?_, ?_⟩ <;>
        omega
    · refine ⟨day_of_era / 36524, day_of_era % 36524 / 1461, day_of_era % 36524 % 1461 / 365,
        day_of_era % 36524 % 1461 % 365, ?_, ?_, ?_, ?_, ?_, ?_⟩ <;> omega

theorem year_of_era_eq {day_of_era c q k d : Int} (h : EraDay day_of_era c q k d) :
    (day_of_era - day_of_era / 1460 + day_of_era / 36524 - day_of_era / 146096) / 365 =
      100 * c + 4 * q + k := by
  obtain ⟨hc, hq, hk, hd, hleap, rfl⟩ := h
  have h1 : (36524 * c + 1461 * q + 365 * k + d) / 1460 =
      25 * c + q + (24 * c + q + 365 * k + d) / 1460 := by omega
  have h2 : (36524 * c + 1461 * q + 365 * k + d) / 36524 =
      c + if q = 24 ∧ k = 3 ∧ d = 365 then 1 else 0 := by
    split <;> omega
  have h3 : (36524 * c + 1461 * q + 365 * k + d) / 146096 =
      if q = 24 ∧ k = 3 ∧ d = 365 then 1 else 0 := by
    split <;> omega
  rw [h1, h2, h3]
  omega

/-- The date of day `d`, counted from March, of the year that starts in March of `year`. -/
def dateOf (year d : Int) : Int × Int × Int :=
  let month_position := (5 * d + 2) / 153
  let month := if month_position < 10 then month_position + 3 else month_position - 9
  (if month ≤ 2 then year + 1 else year, month, d - (153 * month_position + 2) / 5 + 1)

/-- The days that the source counts right: from 0000-02-29 on. -/
theorem civil_eq {era day_of_era c q k d days : Int} (h : EraDay day_of_era c q k d)
    (hdays : days = era * 146097 + day_of_era - 719468) (hz : -1 ≤ days + 719468) :
    civil days = dateOf (100 * c + 4 * q + k + era * 400) d := by
  have hrange : 0 ≤ day_of_era ∧ day_of_era ≤ 146096 := by
    obtain ⟨hc, hq, hk, hd, hleap, rfl⟩ := h
    omega
  have hera : (if days + 719468 ≥ 0 then days + 719468 else days + 719468 - 146096) / 146097 =
      era := by
    split <;> omega
  have hdoe : days + 719468 - era * 146097 = day_of_era := by omega
  unfold civil dateOf
  simp only [hera, hdoe, year_of_era_eq h]
  obtain ⟨hc, hq, hk, hd, hleap, rfl⟩ := h
  have hfour : (100 * c + 4 * q + k) / 4 = 25 * c + q := by omega
  have hhundred : (100 * c + 4 * q + k) / 100 = c := by omega
  have hday : 36524 * c + 1461 * q + 365 * k + d -
      (365 * (100 * c + 4 * q + k) + (25 * c + q) - c) = d := by omega
  rw [hfour, hhundred, hday]

/-- The days of a month, as the validator counts them. -/
def lengthOf (year month : Int) : Nat :=
  if month = 2 ∧ (year % 4 = 0 ∧ (year % 100 ≠ 0 ∨ year % 400 = 0)) then 29
  else DAYS.getD (month.toNat - 1) 0

/-- A date of the calendar. -/
structure IsCivil (date : Int × Int × Int) : Prop where
  month : 1 ≤ date.2.1 ∧ date.2.1 ≤ 12
  day : 1 ≤ date.2.2 ∧ date.2.2 ≤ lengthOf date.1 date.2.1

theorem isCivil_dateOf {era c q k d day_of_era : Int} (h : EraDay day_of_era c q k d) :
    IsCivil (dateOf (100 * c + 4 * q + k + era * 400) d) := by
  obtain ⟨hc, hq, hk, hd, hleap, -⟩ := h
  obtain ⟨p, hp⟩ : ∃ p, p = (5 * d + 2) / 153 := ⟨_, rfl⟩
  have hrange : 0 ≤ p ∧ p ≤ 11 := by omega
  unfold dateOf
  rw [← hp]
  obtain ⟨hp0, hp11⟩ := hrange
  constructor
  · dsimp only
    split <;> omega
  · interval_cases p <;> simp [lengthOf, DAYS] <;> omega

/-- The days that a date counts are those it was read off. -/
theorem days_from_civil_dateOf {era c q k d day_of_era : Int} (h : EraDay day_of_era c q k d)
    (hera : -1 ≤ era) (hlast : era = -1 → day_of_era = 146096) :
    days_from_civil (dateOf (100 * c + 4 * q + k + era * 400) d).1
        (dateOf (100 * c + 4 * q + k + era * 400) d).2.1
        (dateOf (100 * c + 4 * q + k + era * 400) d).2.2 =
      era * 146097 + day_of_era - 719468 := by
  obtain ⟨hc, hq, hk, hd, hleap, rfl⟩ := h
  obtain ⟨p, hp⟩ : ∃ p, p = (5 * d + 2) / 153 := ⟨_, rfl⟩
  have hrange : 0 ≤ p ∧ p ≤ 11 := by omega
  have hyear : (if (if p < 10 then p + 3 else p - 9) ≤ 2 then
      (if (if p < 10 then p + 3 else p - 9) ≤ 2 then 100 * c + 4 * q + k + era * 400 + 1
        else 100 * c + 4 * q + k + era * 400) - 1
      else (if (if p < 10 then p + 3 else p - 9) ≤ 2 then 100 * c + 4 * q + k + era * 400 + 1
        else 100 * c + 4 * q + k + era * 400)) = 100 * c + 4 * q + k + era * 400 := by
    split <;> omega
  have heraOf : (if 100 * c + 4 * q + k + era * 400 ≥ 0 then 100 * c + 4 * q + k + era * 400
      else 100 * c + 4 * q + k + era * 400 - 399) / 400 = era := by
    split <;> omega
  have hof : 100 * c + 4 * q + k + era * 400 - era * 400 = 100 * c + 4 * q + k := by omega
  have hfour : (100 * c + 4 * q + k) / 4 = 25 * c + q := by omega
  have hhundred : (100 * c + 4 * q + k) / 100 = c := by omega
  have hmonth : (if p < 10 then p + 3 else p - 9) +
      (if (if p < 10 then p + 3 else p - 9) > 2 then -3 else 9) = p := by
    split <;> split <;> omega
  unfold dateOf days_from_civil
  simp only [← hp]
  rw [hyear, heraOf, hof, hfour, hhundred, hmonth]
  omega

/-! ## Reading a rendered date back -/

theorem number?_digits {t : Text} (h : ∀ c ∈ t, c.isDigit = true) :
    number? (ofText t) = some (Nat.ofDigitChars 10 t 0) := by
  have hmap : ∀ t : Text, (∀ c ∈ t, c.isDigit = true) →
      (ofText t).mapM re.digit? = some (t.map fun c => c.toNat - 48) := by
    intro t h
    induction t with
    | nil => rfl
    | cons c t ih =>
      have hc : '0' ≤ c ∧ c ≤ '9' := by
        have := h c (by simp)
        simpa [Char.isDigit, Char.le_def] using this
      rw [ofText, List.map_cons, List.mapM_cons, ← ofText, ih fun d hd => h d (by simp [hd])]
      simp [re.digit?, hc]
  rw [number?, hmap t h, Option.map_some, Nat.ofDigitChars_eq_foldl, List.foldl_map]
  congr 2
  funext n c
  simp [Nat.mul_comm]

theorem zeroPadded_natCast (width n : Nat) : zeroPadded width n =
    ofText (List.replicate (width - (Nat.toDigits 10 n).length) '0' ++ Nat.toDigits 10 n) := by
  unfold zeroPadded
  rw [if_neg (by omega), Int.natAbs_natCast]

theorem isDigit_zeroPadded (width n : Nat) :
    ∀ c ∈ List.replicate (width - (Nat.toDigits 10 n).length) '0' ++ Nat.toDigits 10 n,
      c.isDigit = true := by
  intro c hc
  rcases List.mem_append.mp hc with hc | hc
  · rw [List.eq_of_mem_replicate hc]
    rfl
  · exact Nat.isDigit_of_mem_toDigits (by omega) (by omega) hc

theorem number?_zeroPadded (width n : Nat) : number? (zeroPadded width n) = some n := by
  rw [zeroPadded_natCast, number?_digits (isDigit_zeroPadded width n), Nat.ofDigitChars_append,
    Nat.ofDigitChars_replicate_zero, Nat.mul_zero, Nat.ofDigitChars_ten_toDigits]

theorem length_zeroPadded (width n : Nat) (hw : 0 < width) (h : n < 10 ^ width) :
    (zeroPadded width n).length = width := by
  have hlen := (Nat.length_toDigits_le_iff (b := 10) (by omega) hw).mpr h
  rw [zeroPadded_natCast, ofText, List.length_map, List.length_append, List.length_replicate]
  omega

/-- Six numbers in the layout of a date. -/
def layout (year month day hour minute second : Nat) : Str :=
  zeroPadded 4 year ++ lit "-" ++ zeroPadded 2 month ++ lit "-" ++ zeroPadded 2 day ++ lit "T" ++
    zeroPadded 2 hour ++ lit ":" ++ zeroPadded 2 minute ++ lit ":" ++ zeroPadded 2 second ++ lit "Z"

theorem date_time_layout {year month day hour minute second : Nat} (hy : year < 10000)
    (hmo : month < 100) (hd : day < 100) (hh : hour < 100) (hmi : minute < 100)
    (hs : second < 100) : date_time (layout year month day hour minute second) =
      some ⟨year, month, day, hour, minute, second, [], none⟩ := by
  obtain ⟨y1, y2, y3, y4, hyear⟩ := List.length_eq_four.mp
    (length_zeroPadded 4 year (by omega) (by omega))
  obtain ⟨m1, m2, hmonth⟩ := List.length_eq_two.mp
    (length_zeroPadded 2 month (by omega) (by omega))
  obtain ⟨d1, d2, hday⟩ := List.length_eq_two.mp
    (length_zeroPadded 2 day (by omega) (by omega))
  obtain ⟨h1, h2, hhour⟩ := List.length_eq_two.mp
    (length_zeroPadded 2 hour (by omega) (by omega))
  obtain ⟨n1, n2, hminute⟩ := List.length_eq_two.mp
    (length_zeroPadded 2 minute (by omega) (by omega))
  obtain ⟨s1, s2, hsecond⟩ := List.length_eq_two.mp
    (length_zeroPadded 2 second (by omega) (by omega))
  have hlayout : layout year month day hour minute second = y1 :: y2 :: y3 :: y4 :: .scalar '-' ::
      m1 :: m2 :: .scalar '-' :: d1 :: d2 :: .scalar 'T' :: h1 :: h2 :: .scalar ':' :: n1 :: n2 ::
      .scalar ':' :: s1 :: s2 :: [.scalar 'Z'] := by
    rw [layout, hyear, hmonth, hday, hhour, hminute, hsecond]
    rfl
  rw [hlayout, date_time, ← hyear, ← hmonth, ← hday, ← hhour, ← hminute, ← hsecond]
  simp only [number?_zeroPadded, Option.bind_eq_bind, Option.bind_some]
  rfl

theorem date_time_hyphen {s : Str} {m : DateTime} (h : date_time s = some m) :
    s[4]? = some (.scalar '-') := by
  unfold date_time at h
  split at h
  · rfl
  · cases h

theorem date_time_minus {s : Str} (h : s[0]? = some (.scalar '-')) : date_time s = none := by
  unfold date_time
  split
  · rename_i y1 y2 y3 y4 _ _ _ _ _ _ _ _ _ _ _
    simp only [List.getElem?_cons_zero, Option.some.injEq] at h
    subst h
    simp [number?, re.digit?]
  · rfl

theorem rendered_eq_layout {year month day remainder : Int} (hy : 0 ≤ year) (hm : 0 ≤ month)
    (hd : 0 ≤ day) (hr : 0 ≤ remainder) : rendered (year, month, day) remainder =
      layout year.toNat month.toNat day.toNat (remainder / 3600).toNat
        (remainder % 3600 / 60).toNat (remainder % 3600 % 60).toNat := by
  unfold rendered layout
  simp only [Int.toNat_of_nonneg hy, Int.toNat_of_nonneg hm, Int.toNat_of_nonneg hd,
    Int.toNat_of_nonneg (show 0 ≤ remainder / 3600 by omega),
    Int.toNat_of_nonneg (show 0 ≤ remainder % 3600 / 60 by omega),
    Int.toNat_of_nonneg (show 0 ≤ remainder % 3600 % 60 by omega)]

/-- A rendered date of the calendar reads back as the second that it names. -/
theorem instant_rendered {date : Int × Int × Int} (h : IsCivil date)
    (hy : 0 ≤ date.1 ∧ date.1 ≤ 9999) {remainder : Int} (hr : 0 ≤ remainder ∧ remainder < 86400) :
    instant (.str (rendered date remainder)) =
      .ok ((days_from_civil date.1 date.2.1 date.2.2 * 86400 + remainder) * NANOS_PER_SECOND) := by
  obtain ⟨year, month, day⟩ := date
  obtain ⟨hm, hd⟩ := h
  dsimp only at hm hd hy ⊢
  have hlen : lengthOf year month ≤ 31 := by
    unfold lengthOf
    split
    · omega
    · obtain ⟨h1, h12⟩ := hm
      interval_cases month <;> simp [DAYS]
  have hparse : date_time (rendered (year, month, day) remainder) =
      some ⟨year.toNat, month.toNat, day.toNat, (remainder / 3600).toNat,
        (remainder % 3600 / 60).toNat, (remainder % 3600 % 60).toNat, [], none⟩ := by
    rw [rendered_eq_layout (by omega) (by omega) (by omega) (by omega)]
    exact date_time_layout (by omega) (by omega) (by omega) (by omega) (by omega) (by omega)
  have hlimit : (if month.toNat = 2 ∧ (year.toNat % 4 = 0 ∧ (year.toNat % 100 ≠ 0 ∨
      year.toNat % 400 = 0)) then 29 else DAYS.getD (month.toNat - 1) 0) = lengthOf year month := by
    unfold lengthOf
    congr 1
    simp only [ne_eq, eq_iff_iff]
    omega
  have hvalid : is_date_time (rendered (year, month, day) remainder) = true := by
    unfold is_date_time
    rw [hparse]
    dsimp only
    rw [if_neg (by omega), hlimit, if_neg (by omega)]
  have hnanos : nanoseconds [] = 0 := rfl
  have hinstant : instantOf ⟨year.toNat, month.toNat, day.toNat, (remainder / 3600).toNat,
      (remainder % 3600 / 60).toNat, (remainder % 3600 % 60).toNat, [], none⟩ =
      (days_from_civil year month day * 86400 + remainder) * NANOS_PER_SECOND := by
    unfold instantOf
    simp only [hnanos, Int.toNat_of_nonneg (show 0 ≤ year by omega),
      Int.toNat_of_nonneg (show 0 ≤ month by omega), Int.toNat_of_nonneg (show 0 ≤ day by omega)]
    have hseconds : days_from_civil year month day * 86400 + (remainder / 3600).toNat * 3600 +
        (remainder % 3600 / 60).toNat * 60 + (remainder % 3600 % 60).toNat - 0 =
        days_from_civil year month day * 86400 + remainder := by omega
    rw [hseconds, Nat.cast_zero, Int.add_zero]
  unfold instant
  dsimp only
  rw [if_pos hvalid, hparse, ← hinstant]

/-! ## The instant of an expiry -/

/-- The first second from which an expiry is rendered right: 0000-02-29T00:00:00Z. -/
def FIRST_EXPIRY : Int := -719469 * 86400

/-- The second that an expiry is meant to be. -/
def expirySecond (issued ttl : Int) : Int := issued / NANOS_PER_SECOND + ttl

theorem add_seconds_eq {text : Value} {issued ttl : Int} (h : instant text = .ok issued) :
    add_seconds text ttl = .ok (rendered (civil (expirySecond issued ttl / 86400))
      (expirySecond issued ttl % 86400)) := by
  have htotal : (issued + ttl * NANOS_PER_SECOND) / NANOS_PER_SECOND = expirySecond issued ttl := by
    unfold expirySecond NANOS_PER_SECOND
    omega
  unfold add_seconds
  rw [h, ok_bind, htotal]
  rfl

/-- The date of a day that the source counts right. -/
theorem civil_date {days : Int} (h : -1 ≤ days + 719468) :
    IsCivil (civil days) ∧ 0 ≤ (civil days).1 ∧
      days_from_civil (civil days).1 (civil days).2.1 (civil days).2.2 = days := by
  obtain ⟨era, day_of_era, hera, hdoe, hsum, hlast⟩ : ∃ era day_of_era : Int, -1 ≤ era ∧
      (0 ≤ day_of_era ∧ day_of_era ≤ 146096) ∧ days = era * 146097 + day_of_era - 719468 ∧
      (era = -1 → day_of_era = 146096) :=
    ⟨(days + 719468) / 146097, (days + 719468) % 146097, by omega, by omega, by omega, by omega⟩
  obtain ⟨c, q, k, d, hday⟩ := exists_eraDay hdoe
  rw [civil_eq hday hsum h]
  refine ⟨isCivil_dateOf hday, ?_, (days_from_civil_dateOf hday hera hlast).trans hsum.symm⟩
  obtain ⟨hc, hq, hk, hd, hleap, hdoe'⟩ := hday
  unfold dateOf
  dsimp only
  by_cases hlow : era = -1
  · have := hlast hlow
    have hd365 : d = 365 := by omega
    subst hd365
    simp
    omega
  · split <;> split <;> omega

/-- A year of five digits is not in the grammar. -/
theorem late_rendered {date : Int × Int × Int} (h : 9999 < date.1) {remainder : Int} :
    is_date_time (rendered date remainder) = false := by
  obtain ⟨year, month, day⟩ := date
  obtain ⟨n, rfl⟩ : ∃ n : Nat, year = n := ⟨year.toNat, by simp only at h; omega⟩
  have hlen : ¬ (Nat.toDigits 10 n).length ≤ 4 := fun hle => by
    have := (Nat.length_toDigits_le_iff (b := 10) (by omega) (by omega)).mp hle
    simp only at h
    omega
  unfold is_date_time
  cases hparse : date_time (rendered (↑n, month, day) remainder) with
  | none => rfl
  | some m =>
    have hhyphen := date_time_hyphen hparse
    unfold rendered at hhyphen
    simp only [List.append_assoc] at hhyphen
    rw [List.getElem?_append_left (by
      rw [zeroPadded_natCast, ofText, List.length_map, List.length_append]
      omega), zeroPadded_natCast, ofText, List.getElem?_map, Option.map_eq_some_iff] at hhyphen
    obtain ⟨c, hc, hcs⟩ := hhyphen
    cases hcs
    have := isDigit_zeroPadded 4 n _ (List.mem_of_getElem? hc)
    simp at this

/-- A year before 0000 is not in the grammar. -/
theorem early_rendered {date : Int × Int × Int} (h : date.1 < 0) (remainder : Int) :
    date_time (rendered date remainder) = none := by
  obtain ⟨year, month, day⟩ := date
  refine date_time_minus ?_
  unfold rendered zeroPadded
  dsimp only at h ⊢
  rw [if_pos h]
  rfl

/-- Before 0000-02-29 the source counts every day as the next one. -/
theorem early_civil : ∀ n : Nat, n < 60 → (civil (-719470 - n)).1 < 0 ∨
    (0 ≤ (civil (-719470 - n)).1 ∧ (civil (-719470 - n)).1 ≤ 9999) ∧
      (1 ≤ (civil (-719470 - n)).2.1 ∧ (civil (-719470 - n)).2.1 ≤ 12) ∧
      (1 ≤ (civil (-719470 - n)).2.2 ∧ (civil (-719470 - n)).2.2 ≤
        lengthOf (civil (-719470 - n)).1 (civil (-719470 - n)).2.1) ∧
      days_from_civil (civil (-719470 - n)).1 (civil (-719470 - n)).2.1
        (civil (-719470 - n)).2.2 = -719470 - n + 1 := by decide +kernel

/-- An expiry of the grammar is the instant that it is meant to be. -/
theorem instant_expiry {second : Int} (h : FIRST_EXPIRY ≤ second)
    (hd : is_date_time (rendered (civil (second / 86400)) (second % 86400)) = true) :
    instant (.str (rendered (civil (second / 86400)) (second % 86400))) =
      .ok (second * NANOS_PER_SECOND) := by
  unfold FIRST_EXPIRY at h
  obtain ⟨hdate, hyear, hdays⟩ := @civil_date (second / 86400) (by omega)
  generalize civil (second / 86400) = date at hd hdate hyear hdays ⊢
  by_cases hlate : date.1 ≤ 9999
  · rw [instant_rendered hdate ⟨hyear, hlate⟩ (by omega), hdays]
    congr 2
    omega
  · rw [late_rendered (by omega)] at hd
    cases hd

/-- An expiry before the first one is rendered a day late, or it is not in
the grammar. -/
theorem instant_early_expiry {second : Int} (h : second < FIRST_EXPIRY)
    (hlow : -719529 * 86400 ≤ second) :
    instant (.str (rendered (civil (second / 86400)) (second % 86400))) ≠
      .ok (second * NANOS_PER_SECOND) := by
  unfold FIRST_EXPIRY at h
  obtain ⟨n, hn, hdays⟩ : ∃ n : Nat, n < 60 ∧ second / 86400 = -719470 - n :=
    ⟨(-719470 - second / 86400).toNat, by omega, by omega⟩
  rcases early_civil n hn with hminus | ⟨hyear, hmonth, hday, hlate⟩
  · rw [← hdays] at hminus
    have hnone := early_rendered hminus (second % 86400)
    intro hok
    unfold instant at hok
    dsimp only at hok
    rw [is_date_time, hnone] at hok
    cases hok
  · rw [← hdays] at hyear hmonth hday hlate
    generalize civil (second / 86400) = date at hyear hmonth hday hlate ⊢
    rw [instant_rendered ⟨hmonth, hday⟩ hyear (by omega), hlate]
    unfold NANOS_PER_SECOND
    intro hok
    have := Except.ok.inj hok
    omega

theorem days_from_civil_ge {year month day : Int} (hy : 0 ≤ year) (hm : 1 ≤ month ∧ month ≤ 12)
    (hd : 1 ≤ day) : -719528 ≤ days_from_civil year month day := by
  unfold days_from_civil
  dsimp only
  by_cases h : month ≤ 2
  · simp only [if_pos h, if_neg (show ¬ month > 2 by omega)]
    by_cases hyear : year - 1 ≥ 0
    · rw [if_pos hyear]
      omega
    · obtain rfl : year = 0 := by omega
      rw [if_neg hyear]
      omega
  · simp only [if_neg h, if_pos (show month > 2 by omega), if_pos (show year ≥ 0 from hy)]
    omega

/-- No instant of the grammar is before the last day of the year -1. -/
theorem instant_ge {v : Value} {t : Int} (h : instant v = .ok t) :
    -719529 * 86400 ≤ t / NANOS_PER_SECOND := by
  cases v with
  | str s =>
    unfold instant at h
    dsimp only at h
    split at h
    · rename_i hvalid
      unfold is_date_time at hvalid
      cases hparse : date_time s with
      | none => simp [hparse] at hvalid
      | some m =>
        rw [hparse] at h hvalid
        dsimp only at h hvalid
        cases h
        have hfields : 1 ≤ m.month ∧ m.month ≤ 12 := by
          by_contra hbad
          rw [if_pos (Or.inl hbad)] at hvalid
          cases hvalid
        rw [if_neg (fun hbad => by rw [if_pos hbad] at hvalid; cases hvalid)] at hvalid
        have hday : 1 ≤ m.day := by
          by_contra hbad
          rw [if_pos (fun hok => hbad hok.1)] at hvalid
          cases hvalid
        rw [if_neg (fun hbad => by rw [if_pos hbad] at hvalid; cases hvalid)] at hvalid
        have hdays := @days_from_civil_ge m.year m.month m.day (by omega) (by omega) (by omega)
        unfold instantOf NANOS_PER_SECOND
        cases hm : m.offset with
        | none =>
          dsimp only
          omega
        | some o =>
          obtain ⟨plus, hours, minutes⟩ := o
          rw [hm] at hvalid
          simp only [decide_eq_true_eq, not_or, not_lt] at hvalid
          dsimp only
          cases plus <;> simp only [Bool.false_eq_true, if_true, if_false] <;> omega
    · cases h
  | _ => cases h

end vfy.authorization
