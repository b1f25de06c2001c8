-- Anchored patterns: what the anchors that the registry looks for in the text
-- of a pattern mean for its alternatives, and when a search for an accepted
-- pattern finds what a full match matches.
import VerifyRun.SchemaRegistry

namespace vfy.re

/-! ## Searching -/

/-- `re.search(pattern, string)` for a compiled pattern, as a truth value. -/
def findsIn (r : Re) (s : Str) : Bool :=
  (List.range (s.length + 1)).any fun i => decide (ends r (i, s.drop i) ≠ [])

theorem findsIn_iff {r : Re} {s : Str} :
    findsIn r s = true ↔ ∃ u v q, s = u ++ v ∧ q ∈ ends r (u.length, v) := by
  simp only [findsIn, List.any_eq_true, List.mem_range, decide_eq_true_eq]
  constructor
  · rintro ⟨i, hi, hne⟩
    obtain ⟨q, hq⟩ := List.exists_mem_of_ne_nil _ hne
    refine ⟨s.take i, s.drop i, q, (List.take_append_drop i s).symm, ?_⟩
    rwa [List.length_take, Nat.min_eq_left (by omega)]
  · rintro ⟨u, v, q, rfl, hq⟩
    refine ⟨u.length, by simp, ?_⟩
    rw [List.drop_left]
    exact List.ne_nil_of_mem hq

theorem matchesWhole_iff {r : Re} {s : Str} :
    matchesWhole r s = true ↔ ∃ i, (i, []) ∈ ends r (0, s) := by
  simp only [matchesWhole, List.any_eq_true, decide_eq_true_eq]
  constructor
  · rintro ⟨⟨i, _⟩, hq, rfl⟩
    exact ⟨i, hq⟩
  · rintro ⟨i, hq⟩
    exact ⟨_, hq, rfl⟩

/-- A full match is found. -/
theorem findsIn_of_matchesWhole {r : Re} {s : Str} (h : matchesWhole r s = true) :
    findsIn r s = true := by
  obtain ⟨i, hi⟩ := matchesWhole_iff.mp h
  exact findsIn_iff.mpr ⟨[], s, _, rfl, hi⟩

/-! ## Alternatives and their items -/

/-- The alternatives of a pattern at its top. -/
def Re.alternatives : Re → List Re
  | .alt a b => a :: b.alternatives
  | r => [r]

/-- What an alternative matches one after another. -/
def Re.items : Re → List Re
  | .seq a b => a :: b.items
  | .empty => []
  | r => [r]

/-- The alternative starts with `^` and ends with `$`. -/
structure Re.Anchored (r : Re) : Prop where
  start : r.items.head? = some .start
  stop : r.items.getLast? = some .stop

instance (r : Re) : Decidable r.Anchored :=
  decidable_of_iff (r.items.head? = some .start ∧ r.items.getLast? = some .stop)
    ⟨fun h => ⟨h.1, h.2⟩, fun h => ⟨h.start, h.stop⟩⟩

theorem mem_ends_alternatives {r : Re} {p q : Place} :
    q ∈ ends r p ↔ ∃ a ∈ r.alternatives, q ∈ ends a p := by
  induction r with
  | alt a b _ ihb =>
    simp only [ends, List.mem_append, Re.alternatives, List.mem_cons, exists_eq_or_imp, ihb]
  | _ => simp [Re.alternatives]

theorem findsIn_alternatives {r : Re} {s : Str} :
    findsIn r s = true ↔ ∃ a ∈ r.alternatives, findsIn a s = true := by
  simp only [findsIn_iff]
  constructor
  · rintro ⟨u, v, q, hs, hq⟩
    obtain ⟨a, ha, hqa⟩ := mem_ends_alternatives.mp hq
    exact ⟨a, ha, u, v, q, hs, hqa⟩
  · rintro ⟨a, ha, u, v, q, hs, hq⟩
    exact ⟨u, v, q, hs, mem_ends_alternatives.mpr ⟨a, ha, hq⟩⟩

theorem matchesWhole_alternatives {r : Re} {s : Str} :
    matchesWhole r s = true ↔ ∃ a ∈ r.alternatives, matchesWhole a s = true := by
  simp only [matchesWhole_iff]
  constructor
  · rintro ⟨i, hi⟩
    obtain ⟨a, ha, hia⟩ := mem_ends_alternatives.mp hi
    exact ⟨a, ha, i, hia⟩
  · rintro ⟨a, ha, i, hi⟩
    exact ⟨i, mem_ends_alternatives.mpr ⟨a, ha, hi⟩⟩

/-! ## What the anchors mean -/

theorem suffix_times {step : Place → List Place} (h : ∀ p q, q ∈ step p → q.2 <:+ p.2) (n : Nat)
    {p q : Place} (hq : q ∈ times step n p) : q.2 <:+ p.2 := by
  induction n generalizing p with
  | zero =>
    rw [times, List.mem_singleton] at hq
    rw [hq]
  | succ n ih =>
    obtain ⟨m, hm, hq⟩ := List.mem_flatMap.mp hq
    exact (ih hq).trans (h p m hm)

theorem suffix_upTo {step : Place → List Place} (h : ∀ p q, q ∈ step p → q.2 <:+ p.2) (n : Nat)
    {p q : Place} (hq : q ∈ upTo step n p) : q.2 <:+ p.2 := by
  induction n generalizing p with
  | zero =>
    rw [upTo, List.mem_singleton] at hq
    rw [hq]
  | succ n ih =>
    rcases List.mem_cons.mp hq with rfl | hq
    · exact List.suffix_refl _
    · obtain ⟨m, hm, hq⟩ := List.mem_flatMap.mp hq
      exact (ih hq).trans (h p m hm)

/-- A match leaves an end of the string that it started in. -/
theorem suffix_of_mem_ends {r : Re} : ∀ {p q : Place}, q ∈ ends r p → q.2 <:+ p.2 := by
  have hnext : ∀ {b : Prop} [Decidable b] {i : Nat} {d : CodePoint} {rest : Str} {q : Place},
      q ∈ (if b then [(i + 1, rest)] else []) → q.2 <:+ d :: rest := by
    intro b _ i d rest q hq
    split at hq
    · rw [List.mem_singleton.mp hq]
      exact List.suffix_cons _ _
    · cases hq
  have hhere : ∀ {b : Prop} [Decidable b] {p q : Place}, q ∈ (if b then [p] else []) →
      q.2 <:+ p.2 := by
    intro b _ p q hq
    split at hq
    · rw [List.mem_singleton.mp hq]
    · cases hq
  induction r with
  | empty =>
    intro p q hq
    rw [List.mem_singleton.mp hq]
  | char c =>
    rintro ⟨i, s⟩ q hq
    cases s with
    | nil => cases hq
    | cons d rest => exact hnext hq
  | any =>
    rintro ⟨i, s⟩ q hq
    cases s with
    | nil => cases hq
    | cons d rest =>
      rw [ends, ← ite_not] at hq
      exact hnext hq
  | set negated ranges =>
    rintro ⟨i, s⟩ q hq
    cases s with
    | nil => cases hq
    | cons d rest => exact hnext hq
  | start => exact fun hq => hhere hq
  | stop => exact fun hq => hhere hq
  | seq a b iha ihb =>
    intro p q hq
    obtain ⟨m, hm, hq⟩ := List.mem_flatMap.mp hq
    exact (ihb hq).trans (iha hm)
  | alt a b iha ihb =>
    intro p q hq
    rcases List.mem_append.mp hq with hq | hq
    · exact iha hq
    · exact ihb hq
  | rep r least most ih =>
    intro p q hq
    obtain ⟨m, hm, hq⟩ := List.mem_flatMap.mp hq
    exact (suffix_upTo (fun _ _ => ih) _ hq).trans (suffix_times (fun _ _ => ih) _ hm)

/-- An alternative that starts with `^` matches at the start only. -/
theorem start_of_head {r : Re} (h : r.items.head? = some .start) {p q : Place}
    (hq : q ∈ ends r p) : p.1 = 0 := by
  have hstart : ∀ {m : Place}, m ∈ ends .start p → p.1 = 0 := by
    intro m hm
    by_contra hne
    rw [ends, if_neg hne] at hm
    cases hm
  cases r with
  | seq a b =>
    cases h
    obtain ⟨m, hm, _⟩ := List.mem_flatMap.mp hq
    exact hstart hm
  | start => exact hstart hq
  | _ => cases h

theorem items_eq_nil {r : Re} (h : r.items = []) : r = .empty := by
  cases r <;> simp [Re.items] at h ⊢

/-- An alternative that ends with `$` matches up to the end, in a string with no line break. -/
theorem stop_of_getLast {r : Re} (h : r.items.getLast? = some .stop) {p q : Place}
    (hp : .scalar '\n' ∉ p.2) (hq : q ∈ ends r p) : q.2 = [] := by
  have hstop : ∀ {p m : Place}, .scalar '\n' ∉ p.2 → m ∈ ends .stop p → m.2 = [] := by
    rintro ⟨i, s⟩ m hs hm
    by_cases hrest : s = [] ∨ s = [.scalar '\n']
    · rw [ends, if_pos hrest] at hm
      rw [List.mem_singleton.mp hm]
      rcases hrest with rfl | rfl
      · rfl
      · exact absurd (List.mem_singleton_self _) hs
    · rw [ends, if_neg hrest] at hm
      cases hm
  induction r generalizing p with
  | seq a b _ ihb =>
    obtain ⟨m, hm, hqb⟩ := List.mem_flatMap.mp hq
    have hmp : .scalar '\n' ∉ m.2 := fun hmem => hp ((suffix_of_mem_ends hm).subset hmem)
    by_cases hb : b.items = []
    · rw [Re.items, hb] at h
      cases h
      rw [items_eq_nil hb, ends, List.mem_singleton] at hqb
      rw [hqb]
      exact hstop hp hm
    · rw [Re.items, List.getLast?_cons_of_ne_nil hb] at h
      exact ihb h hmp hqb
  | stop => exact hstop hp hq
  | _ => cases h

/-- Where an anchored alternative is found, it matches the whole string. -/
theorem Re.Anchored.matchesWhole {r : Re} (h : r.Anchored) {s : Str} (hs : .scalar '\n' ∉ s)
    (hf : findsIn r s = true) : matchesWhole r s = true := by
  obtain ⟨u, v, ⟨i, rest⟩, rfl, hq⟩ := findsIn_iff.mp hf
  have hu : u = [] := List.length_eq_zero_iff.mp (start_of_head h.start hq)
  subst hu
  have hrest : rest = [] := stop_of_getLast h.stop hs hq
  subst hrest
  exact matchesWhole_iff.mpr ⟨i, hq⟩

/-- A search and a full match say the same of a string exactly when no
alternative that lacks an anchor is found in a string that does not match. -/
theorem search_agrees {r : Re} {s : Str} (hs : .scalar '\n' ∉ s) :
    findsIn r s = matchesWhole r s ↔ ∀ a ∈ r.alternatives, ¬ a.Anchored → findsIn a s = true →
      ∃ b ∈ r.alternatives, re.matchesWhole b s = true := by
  rw [Bool.eq_iff_iff, findsIn_alternatives, matchesWhole_alternatives]
  constructor
  · intro h a ha _ hf
    exact h.mp ⟨a, ha, hf⟩
  · intro h
    constructor
    · rintro ⟨a, ha, hf⟩
      by_cases hanchored : a.Anchored
      · exact ⟨a, ha, hanchored.matchesWhole hs hf⟩
      · exact h a ha hanchored hf
    · rintro ⟨a, ha, hm⟩
      exact ⟨a, ha, findsIn_of_matchesWhole hm⟩

example : (compile "^x$|b{,}c|^d$").map (fun r => (findsIn r "bbca", matchesWhole r "bbca")) =
    some (true, false) := by decide +kernel

/-! ## What the parser consumes -/

theorem hexDigit?_ne {c : CodePoint} {d : Nat} (h : hexDigit? c = some d) : c ≠ .scalar '$' := by
  rintro rfl
  cases h

theorem digit?_ne {c : CodePoint} {d : Nat} (h : digit? c = some d) : c ≠ .scalar '$' := by
  rintro rfl
  cases h

/-- The text before the rest, which does not end in a dollar sign. -/
def Before (s rest : Str) : Prop :=
  ∃ u, s = u ++ rest ∧ u.getLast? ≠ some (.scalar '$')

theorem Before.refl (s : Str) : Before s s := ⟨[], rfl, by simp⟩

theorem Before.cons {c : CodePoint} (hc : c ≠ .scalar '$') {s rest : Str} (h : Before s rest) :
    Before (c :: s) rest := by
  obtain ⟨u, rfl, hu⟩ := h
  refine ⟨c :: u, rfl, ?_⟩
  cases u with
  | nil => simpa using hc
  | cons d u => rwa [List.getLast?_cons_cons]

theorem Before.trans {s t rest : Str} (h : Before s t) (h' : Before t rest) : Before s rest := by
  obtain ⟨u, rfl, hu⟩ := h
  obtain ⟨v, rfl, hv⟩ := h'
  refine ⟨u ++ v, by simp, ?_⟩
  by_cases hnil : v = []
  · rwa [hnil, List.append_nil]
  · rwa [List.getLast?_append_of_ne_nil _ hnil]

theorem hexadecimal?_before {k n m : Nat} {s rest : Str} (h : hexadecimal? k n s = some (m, rest)) :
    Before s rest := by
  induction k generalizing n s with
  | zero =>
    cases h
    exact .refl _
  | succ k ih =>
    cases s with
    | nil => cases h
    | cons c s =>
      simp only [hexadecimal?, Option.bind_eq_bind, Option.bind_eq_some_iff] at h
      obtain ⟨d, hd, h⟩ := h
      exact (ih h).cons (hexDigit?_ne hd)

theorem octal_before (k n : Nat) (s : Str) : Before s (octal k n s).2 := by
  induction k generalizing n s with
  | zero => exact .refl _
  | succ k ih =>
    cases s with
    | nil => exact .refl _
    | cons c s =>
      rw [octal]
      split
      · rename_i d hd
        split
        · exact (ih _ _).cons (digit?_ne hd)
        · exact .refl _
      · exact .refl _

theorem numbered_before {k : Nat} {s rest : Str} {c : CodePoint}
    (h : numbered k s = some (c, rest)) : Before s rest := by
  simp only [numbered, Option.bind_eq_bind, Option.bind_eq_some_iff] at h
  obtain ⟨⟨n, r⟩, hn, c', _, hc⟩ := h
  cases hc
  exact hexadecimal?_before hn

theorem before_of_suffix {c : CodePoint} (hc : c ≠ .scalar '$') {s rest : Str}
    (h : c :: rest <:+ s) : Before s rest := by
  obtain ⟨u, rfl⟩ := h
  refine ⟨u ++ [c], by simp, ?_⟩
  simpa using hc

theorem untilBrace_suffix {s name rest : Str} (h : untilBrace s = some (name, rest)) :
    .scalar '}' :: rest <:+ s := by
  fun_induction untilBrace s generalizing name with
  | case1 rest =>
    cases h
    exact List.suffix_refl _
  | case2 c rest ih =>
    obtain ⟨⟨name', rest'⟩, hrest, hc⟩ := Option.map_eq_some_iff.mp h
    cases hc
    exact ((ih hrest).trans (List.suffix_cons _ _)).trans (List.suffix_cons _ _)
  | case3 c rest _ _ ih =>
    obtain ⟨⟨name', rest'⟩, hrest, hc⟩ := Option.map_eq_some_iff.mp h
    cases hc
    exact (ih hrest).trans (List.suffix_cons _ _)
  | case4 => cases h

theorem named_before {unicode : Option Unicode} {s rest : Str} {c : CodePoint}
    (h : named unicode s = some (c, rest)) : Before s rest := by
  simp only [named, Option.bind_eq_bind, Option.bind_eq_some_iff] at h
  obtain ⟨⟨name, t⟩, hname, c', _, hc⟩ := h
  cases hc
  exact before_of_suffix (by simp) (untilBrace_suffix hname)

/-- An escape writes a dollar sign if it ends in one. -/
theorem escaped_consumes {unicode : Option Unicode} {s rest : Str} {c : CodePoint}
    (h : escaped unicode s = some (c, rest)) : Before s rest ∨ s = c :: rest := by
  unfold escaped at h
  split at h
  · exact Or.inl ((numbered_before h).cons (by simp))
  · exact Or.inl ((numbered_before h).cons (by simp))
  · exact Or.inl ((numbered_before h).cons (by simp))
  · exact Or.inl (((named_before h).cons (by simp)).cons (by simp))
  · simp only [Option.map_eq_some_iff] at h
    obtain ⟨c', _, hc⟩ := h
    cases hc
    exact Or.inl ((octal_before _ _ _).cons (by simp))
  · rename_i d r _ _ _ _ _
    simp only [Option.map_eq_some_iff] at h
    obtain ⟨e, he, hc⟩ := h
    cases hc
    by_cases hd : d = .scalar '$'
    · subst hd
      cases he
      exact Or.inr rfl
    · exact Or.inl ((Before.refl _).cons hd)
  · cases h

theorem escaped_suffix {unicode : Option Unicode} {s rest : Str} {c : CodePoint}
    (h : escaped unicode s = some (c, rest)) : rest <:+ s := by
  rcases escaped_consumes h with ⟨u, rfl, _⟩ | rfl
  · exact List.suffix_append _ _
  · exact List.suffix_cons _ _

theorem category_consumes {unicode : Option Unicode} {s rest : Str}
    {ranges : List (CodePoint × CodePoint)} (h : category unicode s = some (ranges, rest)) :
    ∃ c, c ≠ .scalar '$' ∧ s = .scalar '\\' :: c :: rest := by
  unfold category at h
  split at h
  all_goals first
    | (simp only [Option.map_eq_some_iff] at h
       obtain ⟨_, _, hc⟩ := h
       cases hc
       exact ⟨_, by simp, rfl⟩)
    | cases h

theorem classCharacter_suffix {unicode : Option Unicode} {s rest : Str} {c : CodePoint}
    (h : classCharacter unicode s = some (c, rest)) : rest <:+ s := by
  unfold classCharacter at h
  split at h
  · exact (escaped_suffix h).trans (List.suffix_cons _ _)
  · cases h
    exact List.suffix_cons _ _
  · cases h

theorem classRange_suffix {unicode : Option Unicode} {s rest : Str}
    {range : CodePoint × CodePoint} (h : classRange unicode s = some (range, rest)) : rest <:+ s := by
  simp only [classRange, Option.bind_eq_bind, Option.bind_eq_some_iff] at h
  obtain ⟨⟨c, t⟩, hc, h⟩ := h
  have ht := classCharacter_suffix hc
  dsimp only at h
  split at h
  · cases h
    exact ht
  · simp only [Option.bind_eq_some_iff] at h
    obtain ⟨⟨d, t'⟩, hd, h⟩ := h
    dsimp only at h
    split at h
    · cases h
    · cases h
      exact (classCharacter_suffix hd).trans ((List.suffix_cons _ _).trans ht)
  · cases h
    exact ht

theorem classItem_suffix {unicode : Option Unicode} {s rest : Str}
    {ranges : List (CodePoint × CodePoint)} (h : classItem unicode s = some (ranges, rest)) :
    rest <:+ s := by
  unfold classItem at h
  split at h
  · rename_i r t hr
    obtain ⟨c, _, rfl⟩ := category_consumes hr
    have ht : t <:+ .scalar '\\' :: c :: t := ⟨[.scalar '\\', c], rfl⟩
    split at h
    · cases h
      exact ht
    · cases h
    · cases h
      exact ht
  · simp only [Option.map_eq_some_iff] at h
    obtain ⟨⟨range, t⟩, hrange, hc⟩ := h
    cases hc
    exact classRange_suffix hrange

/-- A class ends with its bracket. -/
theorem classRanges_suffix {unicode : Option Unicode} {fuel : Nat} {first : Bool}
    {s rest : Str} {ranges : List (CodePoint × CodePoint)}
    (h : classRanges unicode fuel first s = some (ranges, rest)) :
    .scalar ']' :: rest <:+ s := by
  induction fuel generalizing first s ranges with
  | zero => cases h
  | succ fuel ih =>
    unfold classRanges at h
    split at h
    · cases h
      exact List.suffix_refl _
    · simp only [Option.bind_eq_bind, Option.bind_eq_some_iff] at h
      obtain ⟨⟨item, t⟩, hitem, ⟨ranges', t'⟩, hranges, hc⟩ := h
      cases hc
      exact (ih hranges).trans (classItem_suffix hitem)

theorem decimal?_before {s rest : Str} {n : Option Nat} (h : decimal? s = (n, rest)) :
    Before s rest := by
  have hgo : ∀ (s : Str) (k : Nat), Before s (decimal?.go k s).2 := by
    intro s
    induction s with
    | nil => exact fun _ => .refl _
    | cons c s ih =>
      intro k
      rw [decimal?.go]
      split
      · rename_i d hd
        exact (ih _).cons (digit?_ne hd)
      · exact .refl _
  unfold decimal? at h
  split at h
  · split at h
    · rename_i c r _ d hd
      have := hgo r d
      rw [h] at this
      exact this.cons (digit?_ne hd)
    · cases h
      exact .refl _
  · cases h
    exact .refl _

theorem bounds?_before {s rest : Str} {b : Nat × Option Nat} (h : bounds? s = some (b, rest)) :
    ∃ c t, s = c :: t ∧ c ≠ .scalar '$' ∧ Before t rest := by
  unfold bounds? at h
  split at h
  · cases h
    exact ⟨_, _, rfl, by simp, .refl _⟩
  · cases h
    exact ⟨_, _, rfl, by simp, .refl _⟩
  · cases h
    exact ⟨_, _, rfl, by simp, .refl _⟩
  · refine ⟨_, _, rfl, by simp, ?_⟩
    split at h
    · rename_i n r hn
      cases h
      exact (decimal?_before hn).trans ((Before.refl _).cons (by simp))
    · rename_i least r _ hleast
      split at h
      · rename_i most r' hmost
        cases h
        exact (decimal?_before hleast).trans (((decimal?_before hmost).trans
          ((Before.refl _).cons (by simp))).cons (by simp))
      · cases h
    · cases h
  · cases h

theorem length_of_before {s rest : Str} (h : Before s rest) : rest.length ≤ s.length := by
  obtain ⟨u, rfl, _⟩ := h
  simp

theorem afterComment_suffix {s rest : Str} (h : afterComment s = some rest) :
    .scalar ')' :: rest <:+ s := by
  fun_induction afterComment s with
  | case1 rest =>
    cases h
    exact List.suffix_refl _
  | case2 c rest ih => exact ((ih h).trans (List.suffix_cons _ _)).trans (List.suffix_cons _ _)
  | case3 c rest _ _ ih => exact (ih h).trans (List.suffix_cons _ _)
  | case4 => cases h

/-- A comment does not end in a dollar sign. -/
theorem skipComments_before (n : Nat) (s : Str) : Before s (skipComments n s) := by
  fun_induction skipComments n s with
  | case1 n rest rest' h ih =>
    have hrest := before_of_suffix (by simp) (afterComment_suffix h)
    exact (((hrest.cons (by simp)).cons (by simp)).cons (by simp)).trans ih
  | case2 => exact .refl _
  | case3 => exact .refl _

theorem Before.length_lt_or {s rest : Str} (h : Before s rest) :
    rest.length < s.length ∨ rest = s := by
  obtain ⟨u, rfl, _⟩ := h
  cases u with
  | nil => exact Or.inr rfl
  | cons c u => exact Or.inl (by simp)

/-- With no quantifier the item stays; a quantifier does not end in a dollar sign. -/
theorem quantified_consumes {item r : Re} {s rest : Str} (h : quantified item s = some (r, rest)) :
    r = item ∧ rest = s ∨ rest.length < s.length ∧ Before s rest := by
  unfold quantified at h
  split at h
  · cases h
    exact Or.inl ⟨rfl, rfl⟩
  · rename_i least most t hb
    obtain ⟨c, t', hs, hc, ht⟩ := bounds?_before hb
    have hskip := skipComments_before s.length s
    rw [hs] at hskip
    have hrest : ∀ t₂, Before t t₂ → t₂.length < s.length ∧ Before s t₂ := by
      intro t₂ h₂
      have hle := length_of_before (ht.trans h₂)
      have hlt := length_of_before hskip
      exact ⟨by simp at hlt; omega, hskip.trans ((ht.trans h₂).cons hc)⟩
    right
    dsimp only at h
    split at h
    · rename_i t₂
      split at h
      · cases h
      · split at h
        · cases h
        · cases h
          exact hrest _ ((Before.refl _).cons (by simp))
    · split at h
      · cases h
      · split at h
        · cases h
        · cases h
          exact hrest _ (.refl _)

/-! ## The last item -/

/-- The alternative ends with `$`, or with an escaped dollar sign. -/
def Re.Dollar (r : Re) : Prop :=
  r.items.getLast? = some .stop ∨ r.items.getLast? = some (.char (.scalar '$'))

/-- What a parser of items reads: the text before the rest, and if that ends in
a dollar sign, the property. -/
def Ends (s rest : Str) (P : Prop) : Prop :=
  ∃ u, s = u ++ rest ∧ (u.getLast? = some (.scalar '$') → P)

theorem Before.ends {s rest : Str} (h : Before s rest) (P : Prop) : Ends s rest P := by
  obtain ⟨u, hs, hu⟩ := h
  exact ⟨u, hs, fun hd => absurd hd hu⟩

/-- What the parsers of a pattern read at this fuel. -/
structure Consumed (unicode : Option Unicode) (fuel : Nat) : Prop where
  alternatives : ∀ {s rest : Str} {r : Re}, alternatives unicode fuel s = some (r, rest) →
    Ends s rest (∃ a, r.alternatives.getLast? = some a ∧ a.Dollar)
  branch : ∀ {s rest : Str} {r : Re}, branch unicode fuel s = some (r, rest) →
    Ends s rest r.Dollar ∧ r.alternatives = [r] ∧ (rest.length < s.length ∨ r = .empty ∧ rest = s)
  atom : ∀ {s rest : Str} {r : Re}, atom unicode fuel s = some (r, rest) →
    rest.length < s.length ∧ Ends s rest (r = .stop ∨ r = .char (.scalar '$'))
  group : ∀ {s rest : Str} {r : Re}, group unicode fuel s = some (r, rest) → Before s rest

section

variable {unicode : Option Unicode} {fuel : Nat} {s t rest : Str} {r : Re} {P : Prop}

/-- Text before a reader that reads something does not matter. -/
theorem Ends.after (h : Ends t rest P) (hlen : rest.length < t.length) (hs : t <:+ s) :
    Ends s rest P := by
  obtain ⟨u, rfl, hu⟩ := h
  obtain ⟨w, rfl⟩ := hs
  have hne : u ≠ [] := by
    rintro rfl
    simp at hlen
  refine ⟨w ++ u, by simp, ?_⟩
  rwa [List.getLast?_append_of_ne_nil _ hne]

theorem Ends.suffix (h : Ends s rest P) : rest <:+ s := by
  obtain ⟨u, rfl, _⟩ := h
  exact List.suffix_append _ _

theorem Ends.mono {Q : Prop} (h : Ends s rest P) (hPQ : P → Q) : Ends s rest Q := by
  obtain ⟨u, hs, hu⟩ := h
  exact ⟨u, hs, fun hd => hPQ (hu hd)⟩

theorem Ends.cons {c : CodePoint} (hc : c ≠ .scalar '$') (h : Ends s rest P) :
    Ends (c :: s) rest P := by
  obtain ⟨u, rfl, hu⟩ := h
  refine ⟨c :: u, rfl, ?_⟩
  cases u with
  | nil =>
    intro hd
    exact absurd (Option.some.inj hd) hc
  | cons d u => rwa [List.getLast?_cons_cons]

theorem Re.alternatives_ne_nil (r : Re) : r.alternatives ≠ [] := by
  cases r <;> simp [Re.alternatives]

theorem Re.Dollar.seq (h : r.Dollar) (item : Re) : (Re.seq item r).Dollar := by
  have hne : r.items ≠ [] := by
    intro hnil
    rcases h with h | h <;>
    · rw [hnil] at h
      cases h
  unfold Re.Dollar at h ⊢
  rwa [Re.items, List.getLast?_cons_of_ne_nil hne]

theorem alternatives_consumed (ih : Consumed unicode fuel)
    (h : alternatives unicode (fuel + 1) s = some (r, rest)) :
    Ends s rest (∃ a, r.alternatives.getLast? = some a ∧ a.Dollar) := by
  rw [alternatives] at h
  simp only [Option.bind_eq_bind, Option.bind_eq_some_iff] at h
  obtain ⟨⟨a, t⟩, ha, h⟩ := h
  obtain ⟨hends, hself, _⟩ := ih.branch ha
  dsimp only at h
  split at h
  · rename_i t'
    simp only [Option.bind_eq_some_iff] at h
    obtain ⟨⟨b, t₂⟩, hb, hc⟩ := h
    cases hc
    have hrest := ih.alternatives hb
    have hlen := hrest.suffix.length_le
    refine (((hrest.cons (c := .scalar '|') (by simp)).after (by simp; omega) hends.suffix)).mono ?_
    rintro ⟨a', ha', hd⟩
    refine ⟨a', ?_, hd⟩
    rwa [Re.alternatives, List.getLast?_cons_of_ne_nil (Re.alternatives_ne_nil b)]
  · cases h
    exact hends.mono fun hd => ⟨r, by rw [hself]; rfl, hd⟩

theorem branch_consumed (ih : Consumed unicode fuel)
    (h : branch unicode (fuel + 1) s = some (r, rest)) :
    Ends s rest r.Dollar ∧ r.alternatives = [r] ∧ (rest.length < s.length ∨ r = .empty ∧ rest = s) := by
  -- nothing but comments is read before an empty alternative
  have hskip := skipComments_before s.length s
  have hempty : skipComments s.length s = rest → some (Re.empty, rest) = some (r, rest) →
      Ends s rest r.Dollar ∧ r.alternatives = [r] ∧
        (rest.length < s.length ∨ r = .empty ∧ rest = s) := by
    rintro rfl hr
    cases hr
    exact ⟨hskip.ends _, rfl, hskip.length_lt_or.imp_right fun h => ⟨rfl, h⟩⟩
  unfold branch at h
  split at h
  · rename_i hs
    cases h
    exact hempty hs rfl
  · rename_i hs
    cases h
    exact hempty hs rfl
  · rename_i hs
    cases h
    exact hempty hs rfl
  · simp only [Option.bind_eq_bind, Option.bind_eq_some_iff] at h
    obtain ⟨⟨item, t⟩, hatom, ⟨item', t'⟩, hquantified, ⟨more, t₂⟩, hmore, hc⟩ := h
    cases hc
    obtain ⟨hlen, hitem⟩ := ih.atom hatom
    obtain ⟨hends, _, hmore⟩ := ih.branch hmore
    have ht' : t' <:+ t := by
      rcases quantified_consumes hquantified with ⟨_, rfl⟩ | ⟨_, u, rfl, _⟩
      · exact List.suffix_refl _
      · exact List.suffix_append _ _
    have hle := ht'.length_le
    have hle' := hends.suffix.length_le
    have hs := hskip.ends True
    have hsle := hs.suffix.length_le
    refine ⟨?_, rfl, Or.inl (by simp only at hle hle' hlen hsle ⊢; omega)⟩
    rcases hmore with hshort | ⟨rfl, rfl⟩
    · exact (hends.after hshort (ht'.trans (hitem.suffix.trans hs.suffix))).mono fun hd =>
        hd.seq item'
    · rcases quantified_consumes hquantified with ⟨rfl, rfl⟩ | ⟨hshort, hbefore⟩
      · refine (hitem.after hlen hs.suffix).mono fun hd => ?_
        rcases hd with rfl | rfl
        · exact Or.inl rfl
        · exact Or.inr rfl
      · exact (hbefore.ends _).after hshort (hitem.suffix.trans hs.suffix)

theorem atom_consumed (ih : Consumed unicode fuel)
    (h : atom unicode (fuel + 1) s = some (r, rest)) :
    rest.length < s.length ∧ Ends s rest (r = .stop ∨ r = .char (.scalar '$')) := by
  have hbefore : ∀ {c : CodePoint} {t : Str}, c ≠ .scalar '$' → Before t rest →
      rest.length < (c :: t).length ∧ Ends (c :: t) rest (r = .stop ∨ r = .char (.scalar '$')) := by
    intro c t hc ht
    have := length_of_before ht
    exact ⟨by simp; omega, (ht.cons hc).ends _⟩
  cases s with
  | nil => cases h
  | cons c s =>
    unfold atom at h
    split at h
    · refine hbefore (by simp) ?_
      split at h
      · exact ((ih.group h).cons (by simp)).cons (by simp)
      · cases h
      · exact ih.group h
    · refine hbefore (by simp) ?_
      split at h
      · simp only [Option.map_eq_some_iff] at h
        obtain ⟨⟨ranges, t⟩, hr, hc⟩ := h
        cases hc
        exact (before_of_suffix (by simp) (classRanges_suffix hr)).cons (by simp)
      · simp only [Option.map_eq_some_iff] at h
        obtain ⟨⟨ranges, t⟩, hr, hc⟩ := h
        cases hc
        exact before_of_suffix (by simp) (classRanges_suffix hr)
    · cases h
      exact hbefore (by simp) (.refl _)
    · cases h
      exact hbefore (by simp) (.refl _)
    · cases h
      exact ⟨by simp, [.scalar '$'], rfl, fun _ => Or.inl rfl⟩
    · cases h
    · cases h
    · cases h
    · split at h
      · cases h
      · cases h
        exact hbefore (by simp) (.refl _)
    · split at h
      · rename_i ranges t hcategory
        cases h
        obtain ⟨d, hd, hs⟩ := category_consumes hcategory
        cases hs
        exact hbefore (by simp) ((Before.refl _).cons hd)
      · simp only [Option.map_eq_some_iff] at h
        obtain ⟨⟨e, t⟩, he, hc⟩ := h
        cases hc
        rcases escaped_consumes he with ht | rfl
        · exact hbefore (by simp) ht
        · refine ⟨by simp, [.scalar '\\', e], rfl, fun hd => Or.inr ?_⟩
          rw [show e = .scalar '$' from Option.some.inj hd]
    · cases h
      refine ⟨by simp, [c], rfl, fun hd => Or.inr ?_⟩
      rw [show c = .scalar '$' from Option.some.inj hd]

theorem group_consumed (ih : Consumed unicode fuel)
    (h : group unicode (fuel + 1) s = some (r, rest)) : Before s rest := by
  rw [group] at h
  simp only [Option.bind_eq_bind, Option.bind_eq_some_iff] at h
  obtain ⟨⟨r', t⟩, hr, h⟩ := h
  dsimp only at h
  split at h
  · cases h
    obtain ⟨u, rfl, _⟩ := ih.alternatives hr
    exact ⟨u ++ [.scalar ')'], by simp, by simp⟩
  · cases h

end

theorem consumed (unicode : Option Unicode) (fuel : Nat) : Consumed unicode fuel := by
  induction fuel with
  | zero =>
    constructor <;>
    · intro s rest r h
      cases h
  | succ fuel ih =>
    exact ⟨alternatives_consumed ih, branch_consumed ih, atom_consumed ih, group_consumed ih⟩

/-! ## The first item -/

/-- A pattern that starts with a caret has a first alternative that starts with `^`. -/
theorem head_of_caret {unicode : Option Unicode} {fuel : Nat} {s rest : Str} {r : Re}
    (h : alternatives unicode fuel (.scalar '^' :: s) = some (r, rest)) :
    ∃ a, r.alternatives.head? = some a ∧ a.items.head? = some .start := by
  have hbranch : ∀ {fuel : Nat} {t : Str} {a : Re},
      branch unicode fuel (.scalar '^' :: s) = some (a, t) → a.items.head? = some .start := by
    intro fuel t a ha
    obtain ⟨fuel, rfl⟩ : ∃ f, fuel = f + 1 := by
      cases fuel with
      | zero => cases ha
      | succ f => exact ⟨f, rfl⟩
    unfold branch at ha
    rw [show skipComments (CodePoint.scalar '^' :: s).length (.scalar '^' :: s) = .scalar '^' :: s
      from rfl] at ha
    split at ha
    · rename_i hs
      cases hs
    · rename_i hs
      cases hs
    · rename_i hs
      cases hs
    · simp only [Option.bind_eq_bind, Option.bind_eq_some_iff] at ha
      obtain ⟨⟨item, t'⟩, hatom, ⟨item', t''⟩, hquantified, ⟨more, t₂⟩, _, hc⟩ := ha
      cases hc
      have hitem : item = .start := by
        cases fuel with
        | zero => cases hatom
        | succ fuel =>
          unfold atom at hatom
          cases hatom
          rfl
      subst hitem
      unfold quantified at hquantified
      split at hquantified
      · cases hquantified
        rfl
      · simp at hquantified
  obtain ⟨fuel, rfl⟩ : ∃ f, fuel = f + 1 := by
    cases fuel with
    | zero => cases h
    | succ f => exact ⟨f, rfl⟩
  rw [alternatives] at h
  simp only [Option.bind_eq_bind, Option.bind_eq_some_iff] at h
  obtain ⟨⟨a, t⟩, ha, h⟩ := h
  have hself := ((consumed unicode fuel).branch ha).2.1
  dsimp only at h
  split at h
  · simp only [Option.bind_eq_some_iff] at h
    obtain ⟨⟨b, t₂⟩, _, hc⟩ := h
    cases hc
    exact ⟨a, rfl, hbranch ha⟩
  · cases h
    exact ⟨r, by rw [hself]; rfl, hbranch ha⟩

/-- Where the text of a pattern starts with a caret and ends with a dollar
sign, the first alternative starts with `^`, and the last one ends with `$` or
with an escaped dollar sign. -/
theorem ends_of_text {unicode : Option Unicode} {pattern : Str} {r : Re}
    (h : compileWith unicode pattern = some r) (hcaret : [.scalar '^'] <+: pattern)
    (hdollar : [.scalar '$'] <:+ pattern) :
    (∃ a, r.alternatives.head? = some a ∧ a.items.head? = some .start) ∧
    ∃ a, r.alternatives.getLast? = some a ∧ a.Dollar := by
  unfold compileWith at h
  split at h
  · rename_i r' hr
    cases h
    constructor
    · obtain ⟨t, rfl⟩ := hcaret
      exact head_of_caret hr
    · obtain ⟨u, hu, hlast⟩ := (consumed unicode _).alternatives hr
      obtain ⟨w, rfl⟩ := hdollar
      refine hlast ?_
      rw [List.append_nil] at hu
      rw [← hu]
      simp
  · cases h

end vfy.re

namespace vfy.schema

open python outcomes

/-- An accepted pattern compiles to alternatives, of which the first starts
with `^` and the last ends with `$` or with an escaped dollar sign. In a string
with no line break a search for it succeeds exactly when a full match does,
unless an alternative that lacks one of the two anchors is found in a string
that no alternative matches whole. -/
theorem pattern_search_agrees (repr : Value → Str) (unicode : Option re.Unicode)
    (text identifier : Str)
    (h : check_schema_pattern repr (re.compileWith unicode) (.str text) identifier = .ok ()) :
    ∃ r, re.compileWith unicode text = some r ∧
      (∃ a, r.alternatives.head? = some a ∧ a.items.head? = some .start) ∧
      (∃ a, r.alternatives.getLast? = some a ∧ a.Dollar) ∧
      ∀ s : Str, .scalar '\n' ∉ s → (re.findsIn r s = re.matchesWhole r s ↔
        ∀ a ∈ r.alternatives, ¬ a.Anchored → re.findsIn a s = true →
          ∃ b ∈ r.alternatives, re.matchesWhole b s = true) := by
  obtain ⟨hcaret, hdollar, r, hr⟩ := pattern_of_ok h
  obtain ⟨hfirst, hlast⟩ := re.ends_of_text hr hcaret hdollar
  exact ⟨r, hr, hfirst, hlast, fun s hs => re.search_agrees hs⟩

/-- The pattern `^a$`, on the string `a`. -/
theorem pattern_search_agrees_anchored :
    re.findsIn (.seq .start (.seq (.char (.scalar 'a')) (.seq .stop .empty))) (ofText ['a']) =
      re.matchesWhole (.seq .start (.seq (.char (.scalar 'a')) (.seq .stop .empty)))
        (ofText ['a']) := by
  obtain ⟨r, hr, _, _, hiff⟩ := pattern_search_agrees (fun _ => []) none (ofText ['^', 'a', '$'])
    (ofText ['x']) (by decide +kernel)
  have hcompile : re.compileWith none (ofText ['^', 'a', '$']) =
      some (.seq .start (.seq (.char (.scalar 'a')) (.seq .stop .empty))) := by decide +kernel
  rw [hcompile] at hr
  cases hr
  exact (hiff (ofText ['a']) (by decide)).mpr (by decide)

/-- The precedence of `|` defeats the anchors of `^a|b$`, and an escape the
dollar sign of `^a\$`: both are accepted and found in a string that they do
not match. -/
theorem pattern_search_disagrees :
    (check_schema_pattern (fun _ => []) re.compile (.str (ofText ['^', 'a', '|', 'b', '$']))
        (ofText ['x']) = .ok () ∧
      ∃ r, re.compile (ofText ['^', 'a', '|', 'b', '$']) = some r ∧
        re.findsIn r (ofText ['a', 'c']) = true ∧ re.matchesWhole r (ofText ['a', 'c']) = false) ∧
    check_schema_pattern (fun _ => []) re.compile (.str (ofText ['^', 'a', '\\', '$']))
        (ofText ['x']) = .ok () ∧
      ∃ r, re.compile (ofText ['^', 'a', '\\', '$']) = some r ∧
        re.findsIn r (ofText ['a', '$', 'c']) = true ∧
        re.matchesWhole r (ofText ['a', '$', 'c']) = false := by
  refine ⟨⟨by decide +kernel, .alt (.seq .start (.seq (.char (.scalar 'a')) .empty))
      (.seq (.char (.scalar 'b')) (.seq .stop .empty)), ?_⟩, by decide +kernel,
    .seq .start (.seq (.char (.scalar 'a')) (.seq (.char (.scalar '$')) .empty)), ?_⟩
  · decide +kernel
  · decide +kernel

end vfy.schema
