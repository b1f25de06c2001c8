-- The instants of the program, set against the Gregorian calendar: which
-- texts are dates that exist, what UTC moment a text denotes, and that the
-- count of nanoseconds is exact. The last part is the way back, from an
-- instant to its text.
import VerifyRun.Expiry
import VerifyRun.Ordering
import VerifyRun.Lib.Gregorian

namespace vfy.rulebook

open schema numeral gregorian outcomes

/-! ## The dates that exist -/

/-- The groups name this date. -/
structure HasDate (m : DateTime) (d : Date) : Prop where
  year : d.year = m.year
  month : d.month = m.month
  day : d.day = m.day

/-- The groups name a date that exists, a time of day and an offset of less
than a day. -/
structure IsMoment (m : DateTime) : Prop where
  date : ∃ d, HasDate m d
  hour : m.hour ≤ 23
  minute : m.minute ≤ 59
  second : m.second ≤ 59
  offset : ∀ o ∈ m.offset, o.2.1 ≤ 23 ∧ o.2.2 ≤ 59

theorem limit_eq {year month : Nat} (h : 1 ≤ month ∧ month ≤ 12) :
    (if month = 2 ∧ (year % 4 = 0 ∧ (year % 100 ≠ 0 ∨ year % 400 = 0)) then 29
      else DAYS.getD (month - 1) 0) = monthLength year month := by
  have hleap : (year % 4 = 0 ∧ (year % 100 ≠ 0 ∨ year % 400 = 0)) ↔ IsLeap year := by
    unfold IsLeap
    omega
  simp only [hleap]
  unfold monthLength
  obtain ⟨h1, h12⟩ := h
  interval_cases month <;> simp [DAYS]

theorem isDate_iff {m : DateTime} : (∃ d, HasDate m d) ↔
    (1 ≤ m.month ∧ m.month ≤ 12) ∧ 1 ≤ m.day ∧ m.day ≤ monthLength m.year m.month := by
  constructor
  · rintro ⟨d, hy, hm, hd⟩
    rw [← hy, ← hm, ← hd]
    exact ⟨d.month_le, d.day_le⟩
  · rintro ⟨hm, hd⟩
    exact ⟨⟨m.year, m.month, m.day, hm, hd⟩, rfl, rfl, rfl⟩

/-- A text is accepted exactly when its groups name a date that exists, a
time of that day and an offset. -/
theorem is_date_time_iff (t : Str) :
    is_date_time t = true ↔ ∃ m, date_time t = some m ∧ IsMoment m := by
  unfold is_date_time
  cases hm : date_time t with
  | none => simp
  | some m =>
    simp only [Option.some.injEq, exists_eq_left']
    constructor
    · intro h
      split at h
      · cases h
      · rename_i hfields
        rw [not_or, not_not] at hfields
        obtain ⟨hmonth, htime⟩ := hfields
        rw [limit_eq hmonth] at h
        split at h
        · cases h
        · rename_i hday
          refine ⟨isDate_iff.mpr ⟨hmonth, not_not.mp hday⟩, by omega, by omega, by omega, ?_⟩
          intro o ho
          rw [ho] at h
          simpa using h
    · rintro ⟨hdate, hhour, hminute, hsecond, hoffset⟩
      obtain ⟨hmonth, hday⟩ := isDate_iff.mp hdate
      rw [if_neg (by omega), limit_eq hmonth, if_neg (not_not.mpr hday)]
      cases ho : m.offset with
      | none => rfl
      | some o =>
        have := hoffset o ho
        simp only [decide_eq_true_eq, not_or, not_lt]
        exact this

/-! ## The count of days -/

/-- The days of a year before each month. -/
theorem monthStart_eq {year : Int} {month : Nat} (h : 1 ≤ month ∧ month ≤ 12) :
    Date.monthStart year month = [0, 31, 59, 90, 120, 151, 181, 212, 243, 273, 304, 334].getD
      (month - 1) 0 + if 2 < month ∧ IsLeap year then 1 else 0 := by
  unfold Date.monthStart
  obtain ⟨h1, h12⟩ := h
  by_cases hleap : IsLeap year
  · interval_cases month <;> simp [List.range_succ, monthLength, hleap]
  · interval_cases month <;> simp [List.range_succ, monthLength, hleap]

/-- The source counts the days of the calendar. -/
theorem days_from_civil_eq (d : Date) (h : 0 ≤ d.year) :
    days_from_civil d.year d.month d.day = d.number := by
  obtain ⟨year, month, day, ⟨h1, h12⟩, hday⟩ := d
  unfold Date.number
  dsimp only at h ⊢
  rw [monthStart_eq ⟨h1, h12⟩]
  unfold Date.yearStart days_from_civil
  dsimp only
  by_cases hleap : IsLeap year
  · simp only [hleap, and_true]
    unfold IsLeap at hleap
    interval_cases month <;> simp <;> omega
  · simp only [hleap, and_false, if_false]
    unfold IsLeap at hleap
    interval_cases month <;> simp <;> omega

/-! ## The groups of a text -/

/-- The letters of a group, and the number that they write. -/
structure IsGroup (width : Nat) (s : Str) (n : Nat) : Prop where
  length : s.length = width
  digits : gate.decimals.All s
  number : gate.decimals.number s = n

theorem isDigit_iff {c : CodePoint} : expr.isDigit c = true ↔ ∃ d, re.digit? c = some d := by
  unfold expr.isDigit
  exact Option.isSome_iff_exists

theorem value_of_digit? {c : CodePoint} {d : Nat} (h : re.digit? c = some d) :
    gate.decimals.value c = d := by
  unfold re.digit? at h
  split at h
  · split at h
    · exact Option.some.inj h
    · cases h
  · cases h

/-- The digits of a text, one by one. -/
theorem mapM_digit?_eq_some {s : Str} {ds : List Nat} : s.mapM re.digit? = some ds ↔
    gate.decimals.All s ∧ s.map gate.decimals.value = ds := by
  induction s generalizing ds with
  | nil => simp [Digits.All]
  | cons c s ih =>
    rw [List.mapM_cons]
    cases hc : re.digit? c with
    | none =>
      have hnot : ¬ gate.decimals.IsDigit c := fun h => by
        obtain ⟨d, hd⟩ := isDigit_iff.mp h
        rw [hc] at hd
        cases hd
      have hall : ¬ gate.decimals.All (c :: s) := fun h => hnot h.of_cons.1
      simp [hall]
    | some d =>
      have hcons : gate.decimals.All (c :: s) ↔ gate.decimals.All s := by
        constructor
        · exact fun h => h.of_cons.2
        · intro h e he
          rcases List.mem_cons.mp he with rfl | he
          · exact isDigit_iff.mpr ⟨d, hc⟩
          · exact h e he
      rw [hcons, List.map_cons, value_of_digit? hc]
      cases hs : s.mapM re.digit? with
      | none =>
        have hall : ¬ gate.decimals.All s := fun h => by
          have := ih.mpr ⟨h, rfl⟩
          rw [hs] at this
          cases this
        simp [hall]
      | some es =>
        obtain ⟨hall, hmap⟩ := ih.mp hs
        simp [hall, hmap]

theorem number?_eq_some {s : Str} {n : Nat} (h : number? s = some n) :
    IsGroup s.length s n := by
  unfold number? at h
  obtain ⟨ds, hds, hn⟩ := Option.map_eq_some_iff.mp h
  obtain ⟨hall, hmap⟩ := mapM_digit?_eq_some.mp hds
  refine ⟨rfl, hall, ?_⟩
  rw [← hn, ← hmap, List.foldl_map]
  rfl

/-- The groups of equal width are ordered as their numbers are. -/
theorem IsGroup.lt_iff {width : Nat} {s t : Str} {m n : Nat} (hs : IsGroup width s m)
    (ht : IsGroup width t n) : s < t ↔ m < n := by
  rw [← hs.number, ← ht.number,
    Digits.number_lt_number hs.digits ht.digits (hs.length.trans ht.length.symm)]

theorem IsGroup.eq_iff {width : Nat} {s t : Str} {m n : Nat} (hs : IsGroup width s m)
    (ht : IsGroup width t n) : s = t ↔ m = n := by
  rw [← hs.number, ← ht.number,
    Digits.number_inj hs.digits ht.digits (hs.length.trans ht.length.symm)]

theorem figure_zero : id 0 = 0 := rfl

theorem figure_lt {d : Nat} (h : d < 10) : id d < 10 := h

theorem figure_lt_figure {c d : Nat} (_ : c < 10) (_ : d < 10) : id c < id d ↔ c < d := Iff.rfl

/-- The digits of a fraction, as numbers. -/
def figures : Digits Nat where
  base := 10
  value := id
  IsDigit d := d < 10
  zero := 0
  base_pos := gate.ten_pos
  isDigit_zero := gate.ten_pos
  value_zero := figure_zero
  value_lt := figure_lt
  value_lt_value := figure_lt_figure

/-- The letters of a fraction, the point among them. -/
def fractionText (after : Str) : Str := if after = [] then [] else .scalar '.' :: after

/-- A text of the grammar, letter by letter. -/
structure HasLetters (t : Str) (m : DateTime) (year month day hour minute second after zone : Str) :
    Prop where
  text : t = year ++ lit "-" ++ month ++ lit "-" ++ day ++ lit "T" ++ hour ++ lit ":" ++ minute ++
    lit ":" ++ second ++ fractionText after ++ zone
  year : IsGroup 4 year m.year
  month : IsGroup 2 month m.month
  day : IsGroup 2 day m.day
  hour : IsGroup 2 hour m.hour
  minute : IsGroup 2 minute m.minute
  second : IsGroup 2 second m.second
  short : after.length ≤ 9
  digits : gate.decimals.All after
  fraction : after.map gate.decimals.value = m.fraction
  zone : offset? zone = some m.offset

theorem fraction?_eq_some {s rest : Str} {ds : List Nat} (h : fraction? s = some (ds, rest)) :
    ∃ after, s = fractionText after ++ rest ∧ after.length ≤ 9 ∧ gate.decimals.All after ∧
      after.map gate.decimals.value = ds := by
  unfold fraction? at h
  split at h
  · rename_i tail
    have hsplit := List.takeWhile_append_dropWhile (p := fun c => (re.digit? c).isSome) (l := tail)
    dsimp only at h
    generalize tail.takeWhile (fun c => (re.digit? c).isSome) = after at h hsplit
    split at h
    · rename_i hlen
      obtain ⟨es, hes, heq⟩ := Option.map_eq_some_iff.mp h
      obtain ⟨hall, hmap⟩ := mapM_digit?_eq_some.mp hes
      cases heq
      have hne : after ≠ [] := by
        rintro rfl
        simp at hlen
      refine ⟨after, ?_, hlen.2, hall, hmap⟩
      rw [fractionText, if_neg hne, List.cons_append, ← hsplit, List.drop_left]
    · cases h
  · cases h
    exact ⟨[], rfl, by simp, by simp [Digits.All], rfl⟩

theorem exists_isText {t : Str} {m : DateTime} (h : date_time t = some m) :
    ∃ year month day hour minute second after zone,
      HasLetters t m year month day hour minute second after zone := by
  unfold date_time at h
  split at h
  · rename_i y1 y2 y3 y4 m1 m2 d1 d2 h1 h2 n1 n2 s1 s2 rest
    simp only [Option.bind_eq_bind, Option.bind_eq_some_iff, Option.some.injEq] at h
    obtain ⟨year, hy, month, hmo, day, hd, hour, hh, minute, hn, second, hs, ⟨fraction, tail⟩, hf,
      offset, ho, rfl⟩ := h
    obtain ⟨after, hrest, hlen, hall, hmap⟩ := fraction?_eq_some hf
    refine ⟨[y1, y2, y3, y4], [m1, m2], [d1, d2], [h1, h2], [n1, n2], [s1, s2], after, tail, ?_,
      number?_eq_some hy, number?_eq_some hmo, number?_eq_some hd, number?_eq_some hh,
      number?_eq_some hn, number?_eq_some hs, hlen, hall, hmap, ho⟩
    rw [hrest]
    simp [lit, ofText]
  · cases h

/-! ## The moment of a text -/

/-- A UTC moment: a date, and a second of that day. -/
@[ext] structure Moment where
  date : Date
  second : ℚ
  second_le : 0 ≤ second ∧ second < 86400

/-- The moment is `s` seconds from the midnight of `d`, on that day, on the
day before it or on the day after it. -/
inductive Moment.IsAt (u : Moment) (d : Date) (s : ℚ) : Prop where
  | same (hd : u.date = d) (hs : u.second = s)
  | before (hd : u.date.next = d) (hs : u.second = s + 86400)
  | after (hd : u.date = d.next) (hs : u.second = s - 86400)

/-- The second of the local day. -/
def localSecond (m : DateTime) : ℚ :=
  m.hour * 3600 + m.minute * 60 + m.second + figures.fraction m.fraction

/-- The seconds by which the local time is ahead of UTC. -/
def offsetSecond (m : DateTime) : Int :=
  match m.offset with
  | none => 0
  | some (plus, hours, minutes) => (if plus then 1 else -1) * (hours * 3600 + minutes * 60)

/-- The text denotes the moment. -/
def Denotes (t : Str) (u : Moment) : Prop :=
  ∃ m d, date_time t = some m ∧ IsMoment m ∧ HasDate m d ∧ u.IsAt d (localSecond m - offsetSecond m)

/-- The nanoseconds from 1970-01-01T00:00:00Z. -/
def Moment.nanoseconds (u : Moment) : ℚ := (u.date.number * 86400 + u.second) * 10 ^ 9

theorem Moment.nanoseconds_injective : Function.Injective Moment.nanoseconds := by
  intro u v h
  have hsum : (u.date.number : ℚ) * 86400 + u.second = v.date.number * 86400 + v.second := by
    unfold Moment.nanoseconds at h
    linarith
  obtain ⟨hu0, hu1⟩ := u.second_le
  obtain ⟨hv0, hv1⟩ := v.second_le
  have hlt : ∀ p q : Int, (p : ℚ) * 86400 < q * 86400 + 86400 → p ≤ q := fun p q hpq => by
    have : (p : ℚ) < q + 1 := by linarith
    exact Int.lt_add_one_iff.mp (by exact_mod_cast this)
  have hnumber : u.date.number = v.date.number :=
    le_antisymm (hlt _ _ (by linarith)) (hlt _ _ (by linarith))
  rw [hnumber] at hsum
  exact Moment.ext (Date.number_injective hnumber) (by linarith)

theorem Moment.IsAt.nanoseconds_eq {u : Moment} {d : Date} {s : ℚ} (h : u.IsAt d s) :
    u.nanoseconds = (d.number * 86400 + s) * 10 ^ 9 := by
  unfold Moment.nanoseconds
  cases h with
  | same hd hs => rw [hd, hs]
  | before hd hs =>
    have hnext := Date.number_next u.date
    rw [hd] at hnext
    rw [hs, hnext]
    push_cast
    ring
  | after hd hs =>
    rw [hs, hd, Date.number_next]
    push_cast
    ring

theorem exists_isAt (d : Date) {s : ℚ} (h : -86400 < s ∧ s < 172800) :
    ∃ u : Moment, u.IsAt d s := by
  by_cases hneg : s < 0
  · obtain ⟨e, he⟩ := Date.next_surjective d
    exact ⟨⟨e, s + 86400, by linarith, by linarith⟩, .before he rfl⟩
  · by_cases hday : s < 86400
    · exact ⟨⟨d, s, by linarith, hday⟩, .same rfl rfl⟩
    · exact ⟨⟨d.next, s - 86400, by linarith, by linarith⟩, .after rfl rfl⟩

/-! ## The exact count -/

theorem nanoseconds_eq {ds : List Nat} (h : ds.length ≤ 9) :
    nanoseconds ds = figures.number ds * 10 ^ (9 - ds.length) := by
  have htake : (ds ++ List.replicate 9 0).take 9 =
      ds ++ List.replicate (9 - ds.length) figures.zero := by
    rw [List.take_append, List.take_of_length_le h, List.take_replicate]
    congr 2
    omega
  have hnumber : nanoseconds ds = figures.number ((ds ++ List.replicate 9 0).take 9) := rfl
  rw [hnumber, htake, Digits.number_append, Digits.number_zeros, List.length_replicate,
    Nat.add_zero]
  rfl

/-- Nine places hold every digit of a fraction. -/
theorem nanoseconds_fraction {ds : List Nat} (h : ds.length ≤ 9) :
    (nanoseconds ds : ℚ) = figures.fraction ds * 10 ^ 9 := by
  have hpow : (10 : ℚ) ^ 9 = 10 ^ ds.length * 10 ^ (9 - ds.length) := by
    rw [← pow_add]
    congr 1
    omega
  have hne : (10 : ℚ) ^ ds.length ≠ 0 := by positivity
  have hbase : (figures.base : ℚ) = 10 := rfl
  rw [nanoseconds_eq h, Digits.fraction, hbase, hpow]
  push_cast
  field_simp

theorem HasLetters.all_fraction {t : Str} {m : DateTime} {y mo d h n s a z : Str}
    (ht : HasLetters t m y mo d h n s a z) : figures.All m.fraction := by
  intro x hx
  rw [← ht.fraction] at hx
  obtain ⟨c, hc, rfl⟩ := List.mem_map.mp hx
  exact gate.decimals.value_lt (ht.digits c hc)

theorem HasLetters.short_fraction {t : Str} {m : DateTime} {y mo d h n s a z : Str}
    (ht : HasLetters t m y mo d h n s a z) : m.fraction.length ≤ 9 := by
  rw [← ht.fraction, List.length_map]
  exact ht.short

theorem instantOf_eq (m : DateTime) : instantOf m =
    (days_from_civil m.year m.month m.day * 86400 + m.hour * 3600 + m.minute * 60 + m.second -
      offsetSecond m) * NANOS_PER_SECOND + nanoseconds m.fraction := rfl

/-- The source counts the nanoseconds of the moment. -/
theorem instantOf_exact {m : DateTime} {d : Date} (hd : HasDate m d)
    (hshort : m.fraction.length ≤ 9) :
    (instantOf m : ℚ) = (d.number * 86400 + (localSecond m - offsetSecond m)) * 10 ^ 9 := by
  have hdays : days_from_civil m.year m.month m.day = d.number := by
    rw [← days_from_civil_eq d (by rw [hd.year]; omega), hd.year, hd.month, hd.day]
  rw [instantOf_eq, hdays]
  push_cast
  rw [nanoseconds_fraction hshort]
  unfold localSecond NANOS_PER_SECOND
  push_cast
  ring

theorem IsMoment.second_range {m : DateTime} (h : IsMoment m) (hall : figures.All m.fraction) :
    -86400 < localSecond m - offsetSecond m ∧ localSecond m - offsetSecond m < 172800 := by
  have hf0 := Digits.fraction_nonneg (D := figures) m.fraction
  have hf1 := Digits.fraction_lt_one hall
  have hhour : (m.hour : ℚ) ≤ 23 := by exact_mod_cast h.hour
  have hminute : (m.minute : ℚ) ≤ 59 := by exact_mod_cast h.minute
  have hsecond : (m.second : ℚ) ≤ 59 := by exact_mod_cast h.second
  have hoffset : -86400 < offsetSecond m ∧ offsetSecond m < 86400 := by
    unfold offsetSecond
    cases ho : m.offset with
    | none => simp
    | some o =>
      obtain ⟨plus, hours, minutes⟩ := o
      have : hours ≤ 23 ∧ minutes ≤ 59 := h.offset _ ho
      cases plus <;> simp only [Bool.false_eq_true, if_true, if_false] <;> omega
  have hlow : (-86400 : ℚ) < offsetSecond m := by exact_mod_cast hoffset.1
  have hhigh : (offsetSecond m : ℚ) < 86400 := by exact_mod_cast hoffset.2
  have := Nat.cast_nonneg (α := ℚ) m.hour
  have := Nat.cast_nonneg (α := ℚ) m.minute
  have := Nat.cast_nonneg (α := ℚ) m.second
  unfold localSecond
  constructor <;> linarith

theorem is_date_time_iff_denotes (t : Str) : is_date_time t = true ↔ ∃ u, Denotes t u := by
  rw [is_date_time_iff]
  constructor
  · rintro ⟨m, hm, hmoment⟩
    obtain ⟨y, mo, d, h, n, s, a, z, htext⟩ := exists_isText hm
    obtain ⟨date, hdate⟩ := hmoment.date
    obtain ⟨u, hu⟩ := exists_isAt date (hmoment.second_range htext.all_fraction)
    exact ⟨u, m, date, hm, hmoment, hdate, hu⟩
  · rintro ⟨u, m, d, hm, hmoment, -⟩
    exact ⟨m, hm, hmoment⟩

theorem instant_of_date_time_eq {t : Str} {m : DateTime} (hm : date_time t = some m)
    (h : IsMoment m) : instant (.str t) = .ok (instantOf m) := by
  have hvalid : is_date_time t = true := (is_date_time_iff t).mpr ⟨m, hm, h⟩
  unfold instant
  dsimp only
  rw [if_pos hvalid, hm]

theorem instantOf_of_instant {t : Str} {m : DateTime} {i : Int} (hm : date_time t = some m)
    (hi : instant (.str t) = .ok i) : IsMoment m ∧ i = instantOf m := by
  unfold instant at hi
  dsimp only at hi
  by_cases hvalid : is_date_time t = true
  · obtain ⟨m', hm', h⟩ := (is_date_time_iff t).mp hvalid
    rw [hm, Option.some.injEq] at hm'
    subst hm'
    rw [if_pos hvalid, hm] at hi
    cases hi
    exact ⟨h, rfl⟩
  · rw [if_neg hvalid] at hi
    cases hi

theorem instant_denotes {t : Str} {u : Moment} (h : Denotes t u) :
    ∃ i, instant (.str t) = .ok i ∧ (i : ℚ) = u.nanoseconds := by
  obtain ⟨m, d, hm, hmoment, hd, hu⟩ := h
  obtain ⟨_, _, _, _, _, _, _, _, htext⟩ := exists_isText hm
  refine ⟨instantOf m, instant_of_date_time_eq hm hmoment, ?_⟩
  rw [instantOf_exact hd htext.short_fraction, hu.nanoseconds_eq]

/-- Two texts have one instant exactly when they denote one moment. -/
theorem instant_eq_iff {t t' : Str} {u u' : Moment} (h : Denotes t u) (h' : Denotes t' u') :
    instant (.str t) = instant (.str t') ↔ u = u' := by
  obtain ⟨i, hi, hu⟩ := instant_denotes h
  obtain ⟨i', hi', hu'⟩ := instant_denotes h'
  rw [hi, hi', Except.ok.injEq]
  constructor
  · rintro rfl
    exact Moment.nanoseconds_injective (hu.symm.trans hu')
  · rintro rfl
    exact_mod_cast hu.trans hu'.symm

/-! ## The order of the texts -/

theorem offset?_zulu {zone : Str} {o : Option (Bool × Nat × Nat)} (h : offset? zone = some o) :
    zone ≠ [] ∧ (zone.getLast? = some (.scalar 'Z') → zone = lit "Z" ∧ o = none) := by
  unfold offset? at h
  split at h
  · cases h
    exact ⟨by simp, fun _ => ⟨rfl, rfl⟩⟩
  · rename_i sign h1 h2 m1 m2
    refine ⟨by simp, fun hlast => ?_⟩
    simp only [Option.bind_eq_bind, Option.bind_eq_some_iff] at h
    obtain ⟨hours, -, minutes, hminutes, -⟩ := h
    have hdigit := (number?_eq_some hminutes).digits m2 (by simp)
    simp only [List.getLast?_cons_cons, List.getLast?_singleton, Option.some.injEq] at hlast
    subst hlast
    cases hdigit
  · cases h

theorem fractionText_lt_iff {a b : Str} (h : a.length = b.length) :
    fractionText a < fractionText b ↔ a < b := by
  unfold fractionText
  by_cases ha : a = []
  · subst ha
    rw [List.length_nil, eq_comm, List.length_eq_zero_iff] at h
    subst h
    simp
  · have hb : b ≠ [] := by
      rintro rfl
      exact ha (List.length_eq_zero_iff.mp h)
    rw [if_neg ha, if_neg hb, List.cons_lt_cons_iff]
    simp

theorem length_fractionText {a b : Str} (h : a.length = b.length) :
    (fractionText a).length = (fractionText b).length := by
  unfold fractionText
  by_cases ha : a = []
  · subst ha
    rw [List.length_nil, eq_comm, List.length_eq_zero_iff] at h
    subst h
    rfl
  · have hb : b ≠ [] := by
      rintro rfl
      exact ha (List.length_eq_zero_iff.mp h)
    rw [if_neg ha, if_neg hb, List.length_cons, List.length_cons, h]

/-- The groups in turn, the largest unit first. -/
def Earlier (m m' : DateTime) : Prop :=
  m.year < m'.year ∨ m.year = m'.year ∧ (m.month < m'.month ∨ m.month = m'.month ∧
    (m.day < m'.day ∨ m.day = m'.day ∧ (m.hour < m'.hour ∨ m.hour = m'.hour ∧
      (m.minute < m'.minute ∨ m.minute = m'.minute ∧ (m.second < m'.second ∨
        m.second = m'.second ∧ nanoseconds m.fraction < nanoseconds m'.fraction)))))

theorem HasLetters.nanoseconds_lt_iff {t t' : Str} {m m' : DateTime}
    {y mo d h n s a z y' mo' d' h' n' s' a' z' : Str} (ht : HasLetters t m y mo d h n s a z)
    (ht' : HasLetters t' m' y' mo' d' h' n' s' a' z') (hlen : a.length = a'.length) :
    nanoseconds m.fraction < nanoseconds m'.fraction ↔ a < a' := by
  have hlen' : m.fraction.length = m'.fraction.length := by
    rw [← ht.fraction, ← ht'.fraction, List.length_map, List.length_map, hlen]
  have hnumber : ∀ a : Str, figures.number (a.map gate.decimals.value) = gate.decimals.number a :=
    fun a => List.foldl_map
  rw [nanoseconds_eq ht.short_fraction, nanoseconds_eq ht'.short_fraction, hlen',
    Nat.mul_lt_mul_right (Nat.pow_pos (by omega)), ← ht.fraction, ← ht'.fraction, hnumber, hnumber,
    Digits.number_lt_number ht.digits ht'.digits hlen]

/-- The order of the texts is the order of their groups. -/
theorem HasLetters.lt_iff {t t' : Str} {m m' : DateTime}
    {y mo d h n s a y' mo' d' h' n' s' a' z : Str} (ht : HasLetters t m y mo d h n s a z)
    (ht' : HasLetters t' m' y' mo' d' h' n' s' a' z) (hlen : a.length = a'.length) :
    t < t' ↔ Earlier m m' := by
  have hwidth : ∀ {width : Nat} {s t : Str} {m n : Nat}, IsGroup width s m → IsGroup width t n →
      s.length = t.length := fun hs ht => hs.length.trans ht.length.symm
  have hlit : ∀ s p q : Str, s ++ p < s ++ q ↔ p < q := fun s p q => by
    rw [Digits.append_lt_append_iff rfl]
    simp
  rw [ht.text, ht'.text]
  simp only [List.append_assoc]
  rw [Digits.append_lt_append_iff (hwidth ht.year ht'.year), hlit,
    Digits.append_lt_append_iff (hwidth ht.month ht'.month), hlit,
    Digits.append_lt_append_iff (hwidth ht.day ht'.day), hlit,
    Digits.append_lt_append_iff (hwidth ht.hour ht'.hour), hlit,
    Digits.append_lt_append_iff (hwidth ht.minute ht'.minute), hlit,
    Digits.append_lt_append_iff (hwidth ht.second ht'.second),
    Digits.append_lt_append_iff (length_fractionText hlen), fractionText_lt_iff hlen,
    ht.year.lt_iff ht'.year, ht.year.eq_iff ht'.year, ht.month.lt_iff ht'.month,
    ht.month.eq_iff ht'.month, ht.day.lt_iff ht'.day, ht.day.eq_iff ht'.day,
    ht.hour.lt_iff ht'.hour, ht.hour.eq_iff ht'.hour, ht.minute.lt_iff ht'.minute,
    ht.minute.eq_iff ht'.minute, ht.second.lt_iff ht'.second, ht.second.eq_iff ht'.second,
    ← ht.nanoseconds_lt_iff ht' hlen]
  simp only [lt_irrefl, and_false, or_false]
  rfl

theorem HasLetters.nanoseconds_lt {t : Str} {m : DateTime} {y mo d h n s a z : Str}
    (ht : HasLetters t m y mo d h n s a z) : nanoseconds m.fraction < 1000000000 := by
  have hfraction := Digits.fraction_lt_one ht.all_fraction
  have hnanos := nanoseconds_fraction ht.short_fraction
  have : (nanoseconds m.fraction : ℚ) < 1000000000 := by
    rw [hnanos]
    linarith
  exact_mod_cast this

/-- The order of the instants in UTC is the order of their groups. -/
theorem instantOf_lt_iff {m m' : DateTime} (hm : IsMoment m) (hm' : IsMoment m')
    (ho : m.offset = none) (ho' : m'.offset = none)
    (hf : nanoseconds m.fraction < 1000000000) (hf' : nanoseconds m'.fraction < 1000000000) :
    instantOf m < instantOf m' ↔ Earlier m m' := by
  obtain ⟨d, hd⟩ := hm.date
  obtain ⟨d', hd'⟩ := hm'.date
  have hlt := @Date.number_lt_iff d d'
  have hgt := @Date.number_lt_iff d' d
  unfold Date.Before at hlt hgt
  rw [hd.year, hd.month, hd.day, hd'.year, hd'.month, hd'.day] at hlt hgt
  have hdays := days_from_civil_eq d (by rw [hd.year]; omega)
  have hdays' := days_from_civil_eq d' (by rw [hd'.year]; omega)
  rw [hd.year, hd.month, hd.day] at hdays
  rw [hd'.year, hd'.month, hd'.day] at hdays'
  have hzero : offsetSecond m = 0 ∧ offsetSecond m' = 0 := by
    unfold offsetSecond
    rw [ho, ho']
    exact ⟨rfl, rfl⟩
  obtain ⟨-, hhour, hminute, hsecond, -⟩ := hm
  obtain ⟨-, hhour', hminute', hsecond', -⟩ := hm'
  rw [instantOf_eq, instantOf_eq, hdays, hdays', hzero.1, hzero.2]
  unfold Earlier NANOS_PER_SECOND
  omega

theorem HasLetters.zulu {t : Str} {m : DateTime} {y mo d h n s a z : Str}
    (ht : HasLetters t m y mo d h n s a z) (hlast : t.getLast? = some (.scalar 'Z')) :
    z = lit "Z" ∧ m.offset = none := by
  obtain ⟨hne, hzulu⟩ := offset?_zulu ht.zone
  apply hzulu
  rw [ht.text, List.getLast?_append_of_ne_nil _ hne] at hlast
  exact hlast

/-- For texts that end in `Z`, with fractions of one length, the order of the
instants is the order of the texts. -/
theorem instant_lt_iff {t t' : Str} {m m' : DateTime} (hm : date_time t = some m)
    (hm' : date_time t' = some m') (h : IsMoment m) (h' : IsMoment m')
    (hlast : t.getLast? = some (.scalar 'Z')) (hlast' : t'.getLast? = some (.scalar 'Z'))
    (hlen : m.fraction.length = m'.fraction.length) : instantOf m < instantOf m' ↔ t < t' := by
  obtain ⟨_, _, _, _, _, _, a, z, ht⟩ := exists_isText hm
  obtain ⟨_, _, _, _, _, _, a', z', ht'⟩ := exists_isText hm'
  obtain ⟨rfl, ho⟩ := ht.zulu hlast
  obtain ⟨rfl, ho'⟩ := ht'.zulu hlast'
  have hafter : a.length = a'.length := by
    rw [← ht.fraction, ← ht'.fraction, List.length_map, List.length_map] at hlen
    exact hlen
  rw [ht.lt_iff ht' hafter, instantOf_lt_iff h h' ho ho' ht.nanoseconds_lt ht'.nanoseconds_lt]

/-- The instant is the exact count of nanoseconds: the days of the calendar
are counted one by one from 1970-01-01, the accepted texts are those that
denote a moment, two of them have one instant exactly when the moment is one,
and the order of the UTC texts is the order of their instants. -/
theorem instant_is_exact :
    (days_from_civil 1970 1 1 = 0 ∧ ∀ d : Date, 0 ≤ d.year →
      days_from_civil d.next.year d.next.month d.next.day =
        days_from_civil d.year d.month d.day + 1) ∧
    (∀ t, is_date_time t = true ↔ ∃ m, date_time t = some m ∧ IsMoment m) ∧
    (∀ t, is_date_time t = true ↔ ∃ u, Denotes t u) ∧
    (∀ t u, Denotes t u → ∃ i, instant (.str t) = .ok i ∧ (i : ℚ) = u.nanoseconds) ∧
    (∀ t t' u u', Denotes t u → Denotes t' u' →
      (instant (.str t) = instant (.str t') ↔ u = u')) ∧
    (∀ t t' m m' i i', date_time t = some m → date_time t' = some m' →
      instant (.str t) = .ok i → instant (.str t') = .ok i' →
      t.getLast? = some (.scalar 'Z') → t'.getLast? = some (.scalar 'Z') →
      m.fraction.length = m'.fraction.length → (i < i' ↔ t < t')) := by
  refine ⟨⟨by decide, ?_⟩, is_date_time_iff, is_date_time_iff_denotes,
    fun t u => instant_denotes, fun t t' u u' => instant_eq_iff, ?_⟩
  · intro d hd
    have hnext : 0 ≤ d.next.year := by
      unfold Date.next
      split
      · exact hd
      · split
        · exact hd
        · dsimp only
          omega
    rw [days_from_civil_eq d hd, days_from_civil_eq d.next hnext, Date.number_next]
  · intro t t' m m' i i' hm hm' hi hi' hlast hlast' hlen
    obtain ⟨h, hval⟩ := instantOf_of_instant hm hi
    obtain ⟨h', hval'⟩ := instantOf_of_instant hm' hi'
    rw [hval, hval']
    exact instant_lt_iff hm hm' h h' hlast hlast' hlen

end vfy.rulebook

namespace vfy.authorization

open rulebook schema gregorian outcomes

/-! ## The way back -/

/-- The first date that the way back covers. -/
def firstDate : Date := ⟨0, 3, 1, by decide, by decide⟩

/-- The first date after the years of four digits. -/
def endDate : Date := ⟨10000, 1, 1, by decide, by decide⟩

/-- The instant at which a date begins in UTC. -/
def startOf (d : Date) : Int := d.number * 86400 * NANOS_PER_SECOND

theorem startOf_firstDate : startOf firstDate = -719468 * 86400 * NANOS_PER_SECOND := by decide

theorem startOf_endDate : startOf endDate = 2932897 * 86400 * NANOS_PER_SECOND := by decide

/-- No date of a year of five digits is counted before the end. -/
theorem days_from_civil_late {year month day : Int} (hy : 9999 < year)
    (hm : 1 ≤ month ∧ month ≤ 12) (hd : 1 ≤ day) : 2932897 ≤ days_from_civil year month day := by
  unfold days_from_civil
  dsimp only
  by_cases h : month ≤ 2
  · simp only [if_pos h, if_neg (show ¬ month > 2 by omega), if_pos (show year - 1 ≥ 0 by omega)]
    omega
  · simp only [if_neg h, if_pos (show month > 2 by omega), if_pos (show year ≥ 0 by omega)]
    omega

theorem is_date_time_of_instant {s : Str} {i : Int} (h : instant (.str s) = .ok i) :
    is_date_time s = true := by
  by_contra hnot
  unfold instant at h
  dsimp only at h
  rw [if_neg hnot] at h
  cases h

/-- A second of the covered years is rendered in the grammar, and reads back
as itself. -/
theorem instant_civil {second : Int} (hlow : -719468 * 86400 ≤ second)
    (hhigh : second < 2932897 * 86400) :
    instant (.str (rendered (civil (second / 86400)) (second % 86400))) =
      .ok (second * NANOS_PER_SECOND) := by
  obtain ⟨hdate, hyear, hdays⟩ := @civil_date (second / 86400) (by omega)
  have hlast : (civil (second / 86400)).1 ≤ 9999 := by
    by_contra hlate
    have := days_from_civil_late (not_le.mp hlate) hdate.month hdate.day.1
    omega
  rw [instant_rendered hdate ⟨hyear, hlast⟩ (by omega), hdays]
  congr 2
  omega

/-- Adding seconds is the inverse of reading an instant: whatever the offset
and the fraction of the text, the text that is rendered is in the grammar and
its instant is the whole second, that many seconds later. -/
theorem add_seconds_inverts_instant (t : Str) (h : is_date_time t = true) :
    ∃ i, instant (.str t) = .ok i ∧ ∀ n : Int,
      startOf firstDate ≤ i + n * NANOS_PER_SECOND →
      i + n * NANOS_PER_SECOND < startOf endDate →
      ∃ s, add_seconds (.str t) n = .ok s ∧ is_date_time s = true ∧
        instant (.str s) = .ok ((i / NANOS_PER_SECOND + n) * NANOS_PER_SECOND) := by
  obtain ⟨i, hi⟩ := instant_of_date_time h
  refine ⟨i, hi, fun n hlow hhigh => ?_⟩
  rw [startOf_firstDate] at hlow
  rw [startOf_endDate] at hhigh
  unfold NANOS_PER_SECOND at hlow hhigh
  have hback := @instant_civil (expirySecond i n)
    (by unfold expirySecond NANOS_PER_SECOND; omega)
    (by unfold expirySecond NANOS_PER_SECOND; omega)
  exact ⟨_, add_seconds_eq hi, is_date_time_of_instant hback, hback⟩

/-- A leap day that the offset moves to the day before it. -/
theorem add_seconds_inverts_leap_day :
    ∃ i, instant (.str "2024-02-29T00:30:00.25+01:00") = .ok i ∧ ∀ n : Int,
      startOf firstDate ≤ i + n * NANOS_PER_SECOND →
      i + n * NANOS_PER_SECOND < startOf endDate →
      ∃ s, add_seconds (.str "2024-02-29T00:30:00.25+01:00") n = .ok s ∧ is_date_time s = true ∧
        instant (.str s) = .ok ((i / NANOS_PER_SECOND + n) * NANOS_PER_SECOND) :=
  add_seconds_inverts_instant _ (by decide)

end vfy.authorization
