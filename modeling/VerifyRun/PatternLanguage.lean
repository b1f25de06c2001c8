-- What a pattern with no anchor matches is a regular language, whatever
-- comes before or after it.
import VerifyRun.Lib.Regular
import VerifyRun.Pattern

namespace vfy.re

open regular

def ordinals (ranges : List (CodePoint × CodePoint)) : List (Nat × Nat) :=
  ranges.map fun r => (r.1.ord, r.2.ord)

/-- One expression before another, where an empty one leaves no trace. -/
def join (r : Regex Ranges) : Regex Ranges → Regex Ranges
  | .empty => r
  | s => andThen s r

/-- A pattern repeated so often. -/
def power (r : Regex Ranges) : Nat → Regex Ranges
  | 0 => .empty
  | n + 1 => join r (power r n)

/-- A pattern repeated at most so often. -/
def atMost (r : Regex Ranges) : Nat → Regex Ranges
  | 0 => .empty
  | n + 1 => .alt .empty (join r (atMost r n))

/-- The expression of a pattern, over the numbers of its characters. -/
def Re.regex : Re → Regex Ranges
  | .empty => .empty
  | .char c => .letter (false, [(c.ord, c.ord)])
  | .any => .letter (true, [(10, 10)])
  | .set negated ranges => .letter (negated, ordinals ranges)
  | .start => .empty
  | .stop => .empty
  | .seq a b => join a.regex b.regex
  | .alt a b => .alt a.regex b.regex
  | .rep r least none => join (power r.regex least) (.star r.regex)
  | .rep r least (some most) => join (power r.regex least) (atMost r.regex (most - least))

/-- No anchor stands in the pattern. -/
def Re.free : Re → Bool
  | .start => false
  | .stop => false
  | .seq a b => a.free && b.free
  | .alt a b => a.free && b.free
  | .rep r _ _ => r.free
  | _ => true

/-- The characters between two places are a word of the expression. -/
def Spans (r : Regex Ranges) (p q : Place) : Prop :=
  ∃ w, p.2 = w ++ q.2 ∧ q.1 = p.1 + w.length ∧ Matches inside r (w.map CodePoint.ord)

theorem spans_empty {p q : Place} : Spans .empty p q ↔ q = p := by
  unfold Spans
  simp only [matches_empty, List.map_eq_nil_iff]
  constructor
  · rintro ⟨w, hs, hi, rfl⟩
    exact Prod.ext hi hs.symm
  · rintro rfl
    exact ⟨[], rfl, rfl, rfl⟩

theorem spans_letter_nil {k : Ranges} {i : Nat} {q : Place} : ¬ Spans (.letter k) (i, []) q := by
  rintro ⟨w, hs, -, hw⟩
  obtain ⟨rfl, -⟩ := List.nil_eq_append_iff.mp hs
  simp at hw

theorem spans_letter_cons {k : Ranges} {i : Nat} {c : CodePoint} {rest : Str} {q : Place} :
    Spans (.letter k) (i, c :: rest) q ↔ inside k c.ord = true ∧ q = (i + 1, rest) := by
  unfold Spans
  simp only [matches_letter]
  constructor
  · rintro ⟨w, hs, hi, a, ha, hw⟩
    obtain ⟨d, w', rfl, rfl, hnil⟩ := List.map_eq_cons_iff.mp hw
    rw [List.map_eq_nil_iff] at hnil
    subst hnil
    obtain ⟨rfl, rfl⟩ := List.cons.inj hs
    exact ⟨ha, Prod.ext hi rfl⟩
  · rintro ⟨hc, rfl⟩
    exact ⟨[c], rfl, rfl, c.ord, hc, rfl⟩

theorem spans_seq {r s : Regex Ranges} {p q : Place} :
    Spans (.seq r s) p q ↔ ∃ m, Spans r p m ∧ Spans s m q := by
  constructor
  · rintro ⟨w, hs, hi, hw⟩
    obtain ⟨u', v', hu, hv, huv⟩ := (matches_seq inside).mp hw
    obtain ⟨u, v, rfl, rfl, rfl⟩ := List.map_eq_append_iff.mp huv
    refine ⟨(p.1 + u.length, v ++ q.2), ⟨u, ?_, rfl, hu⟩, v, rfl, ?_, hv⟩
    · rw [hs, List.append_assoc]
    · rw [hi, List.length_append, Nat.add_assoc]
  · rintro ⟨m, ⟨u, hs, hi, hu⟩, v, hs', hi', hv⟩
    refine ⟨u ++ v, ?_, ?_, ?_⟩
    · rw [hs, hs', List.append_assoc]
    · rw [hi', hi, List.length_append, Nat.add_assoc]
    · rw [List.map_append]
      exact .seq hu hv

@[simp] theorem matches_join {r s : Regex Ranges} {w : List Nat} :
    Matches inside (join r s) w ↔ Matches inside (.seq r s) w := by
  cases s <;> simp [join]

@[simp] theorem spans_join {r s : Regex Ranges} {p q : Place} :
    Spans (join r s) p q ↔ Spans (.seq r s) p q := by
  unfold Spans
  simp only [matches_join]

theorem spans_alt {r s : Regex Ranges} {p q : Place} :
    Spans (.alt r s) p q ↔ Spans r p q ∨ Spans s p q := by
  unfold Spans
  simp only [matches_alt, and_or_left, exists_or]

theorem spans_power {step : Place → List Place} {r : Regex Ranges}
    (h : ∀ p q, q ∈ step p ↔ Spans r p q) (n : Nat) :
    ∀ p q, q ∈ times step n p ↔ Spans (power r n) p q := by
  induction n with
  | zero =>
    intro p q
    simp [times, power, spans_empty]
  | succ n ih =>
    intro p q
    simp only [times, power, List.mem_flatMap, spans_join, spans_seq, h, ih]

theorem spans_atMost {step : Place → List Place} {r : Regex Ranges}
    (h : ∀ p q, q ∈ step p ↔ Spans r p q) (n : Nat) :
    ∀ p q, q ∈ upTo step n p ↔ Spans (atMost r n) p q := by
  induction n with
  | zero =>
    intro p q
    simp [upTo, atMost, spans_empty]
  | succ n ih =>
    intro p q
    simp only [upTo, atMost, List.mem_cons, List.mem_flatMap, spans_alt, spans_empty, spans_join,
      spans_seq, h, ih]

/-- A word that is repeated needs no more turns than it has characters. -/
theorem matches_atMost_of_star {r : Regex Ranges} {w : List Nat} (h : Matches inside (.star r) w) :
    ∀ n, w.length ≤ n → Matches inside (atMost r n) w := by
  generalize hl : w.length = l
  induction l using Nat.strongRecOn generalizing w with
  | ind l ih =>
    intro n hn
    cases w with
    | nil => cases n <;> simp [atMost]
    | cons a w =>
      obtain ⟨u, v, hu, hv, rfl⟩ := (matches_star_cons inside).mp h
      simp only [List.length_cons, List.length_append] at hl
      cases n with
      | zero => omega
      | succ n =>
        rw [atMost, matches_alt, matches_join]
        exact Or.inr (.seq hu (ih v.length (by omega) hv rfl n (by omega)))

theorem matches_star_of_atMost {r : Regex Ranges} (n : Nat) {w : List Nat}
    (h : Matches inside (atMost r n) w) : Matches inside (.star r) w := by
  induction n generalizing w with
  | zero =>
    rw [atMost, matches_empty] at h
    exact h ▸ .done
  | succ n ih =>
    rw [atMost, matches_alt, matches_empty, matches_join] at h
    rcases h with rfl | h
    · exact .done
    · obtain ⟨u, v, hu, hv, rfl⟩ := (matches_seq inside).mp h
      exact .more hu (ih hv)

theorem inside_char (c d : CodePoint) :
    inside (false, [(c.ord, c.ord)]) d.ord = true ↔ c = d := by
  simp only [inside, List.any_cons, List.any_nil, Bool.or_false, Bool.bne_false, Bool.and_eq_true,
    decide_eq_true_eq]
  constructor
  · rintro ⟨h, h'⟩
    exact CodePoint.ord_injective (le_antisymm h h')
  · rintro rfl
    exact ⟨le_rfl, le_rfl⟩

theorem inside_any (d : CodePoint) : inside (true, [(10, 10)]) d.ord = true ↔ d ≠ .scalar '\n' := by
  rw [ne_comm, Ne, ← inside_char, show (CodePoint.scalar '\n').ord = 10 from rfl]
  simp only [inside, List.any_cons, List.any_nil, Bool.or_false, Bool.bne_true, Bool.bne_false,
    Bool.not_eq_eq_eq_not, Bool.not_true, Bool.not_eq_true]

theorem inside_ordinals (negated : Bool) (ranges : List (CodePoint × CodePoint)) (d : CodePoint) :
    inside (negated, ordinals ranges) d.ord = (inRanges ranges d != negated) := by
  simp only [inside, ordinals, inRanges, List.any_map]
  congr 1
  refine congrArg _ (funext fun r => ?_)
  exact (Bool.decide_and _ _).symm

/-- The places where a pattern with no anchor can end are those that one of its
words leads to. -/
theorem mem_ends_iff {r : Re} (hr : r.free = true) :
    ∀ p q, q ∈ ends r p ↔ Spans r.regex p q := by
  induction r with
  | empty =>
    intro p q
    simp [ends, Re.regex, spans_empty]
  | char c =>
    rintro ⟨i, s⟩ q
    cases s with
    | nil => simp [ends, Re.regex, spans_letter_nil]
    | cons d rest =>
      rw [Re.regex, spans_letter_cons, inside_char, ends]
      by_cases h : c = d <;> simp [h]
  | any =>
    rintro ⟨i, s⟩ q
    cases s with
    | nil => simp [ends, Re.regex, spans_letter_nil]
    | cons d rest =>
      rw [Re.regex, spans_letter_cons, inside_any, ends]
      by_cases h : d = .scalar '\n' <;> simp [h]
  | set negated ranges =>
    rintro ⟨i, s⟩ q
    cases s with
    | nil => simp [ends, Re.regex, spans_letter_nil]
    | cons d rest =>
      rw [Re.regex, spans_letter_cons, inside_ordinals, ends]
      by_cases h : (inRanges ranges d != negated) = true <;> simp only [h] <;> simp
  | start => cases hr
  | stop => cases hr
  | seq a b iha ihb =>
    intro p q
    rw [Re.free, Bool.and_eq_true] at hr
    simp only [ends, Re.regex, List.mem_flatMap, spans_join, spans_seq, iha hr.1, ihb hr.2]
  | alt a b iha ihb =>
    intro p q
    rw [Re.free, Bool.and_eq_true] at hr
    simp only [ends, Re.regex, List.mem_append, spans_alt, iha hr.1, ihb hr.2]
  | rep r least most ih =>
    intro p q
    have hr' := ih hr
    simp only [ends, List.mem_flatMap, spans_power hr']
    cases most with
    | some m => simp only [Re.regex, spans_join, spans_seq, spans_atMost hr']
    | none =>
      simp only [Re.regex, spans_join, spans_seq, spans_atMost hr']
      refine exists_congr fun m => and_congr_right fun _ => ?_
      constructor
      · rintro ⟨w, hs, hi, hw⟩
        exact ⟨w, hs, hi, matches_star_of_atMost _ hw⟩
      · rintro ⟨w, hs, hi, hw⟩
        refine ⟨w, hs, hi, matches_atMost_of_star hw _ ?_⟩
        rw [hs, List.length_map, List.length_append]
        omega

/-- A literal as its list of characters, which is fast to compute with. -/
theorem lit_ofList (l : List Char) : lit (String.ofList l) = ofText l := by
  rw [lit, String.toList_ofList]

/-- A property of a literal, checked on its list of characters. -/
theorem of_literal {P : Str → Prop} {s : Str} {l : List Char} (h : s = lit (String.ofList l))
    (hP : P (ofText l)) : P s := by
  rw [h, lit_ofList]
  exact hP

/-! ## Whole matches -/

/-- `re.match(pattern, string)`, as a truth value. -/
def matchAtStart (pattern s : Str) : Option Bool :=
  (compile pattern).map fun r => decide (ends r (0, s) ≠ [])

/-- The expression of a pattern in its source text. -/
def regexOf (pattern : Str) : Regex Ranges := ((compile pattern).getD .empty).regex

/-- The pattern compiles, and no anchor stands in it. -/
def isFree (pattern : Str) : Bool := (compile pattern).any Re.free

/-- A string in the alphabet of the expressions. -/
def wordOf (s : Str) : List Nat := s.map CodePoint.ord

theorem spans_whole {r : Regex Ranges} {s rest : Str} :
    (∃ i, Spans r (0, s) (i, rest)) ↔ ∃ w, s = w ++ rest ∧ Matches inside r (wordOf w) := by
  constructor
  · rintro ⟨i, w, hs, -, hw⟩
    exact ⟨w, hs, hw⟩
  · rintro ⟨w, hs, hw⟩
    exact ⟨0 + w.length, w, hs, rfl, hw⟩

theorem exists_of_isFree {pattern : Str} (h : isFree pattern = true) :
    ∃ r, compile pattern = some r ∧ r.free = true := by
  unfold isFree at h
  cases hc : compile pattern with
  | none => rw [hc] at h; cases h
  | some r => rw [hc] at h; exact ⟨r, rfl, h⟩

/-- A pattern with no anchor matches the words of its expression. -/
theorem fullmatch_iff {pattern s : Str} (h : isFree pattern = true) :
    fullmatch pattern s = some true ↔ Matches inside (regexOf pattern) (wordOf s) := by
  obtain ⟨r, hc, hr⟩ := exists_of_isFree h
  have hwhole := @spans_whole r.regex s []
  simp only [List.append_nil, exists_eq_left'] at hwhole
  simp only [fullmatch_eq_map, regexOf, hc, Option.map_some, Option.getD_some, Option.some.injEq,
    matchesWhole, List.any_eq_true, decide_eq_true_eq, ← hwhole, ← mem_ends_iff hr]
  constructor
  · rintro ⟨⟨i, rest⟩, hq, rfl⟩
    exact ⟨i, hq⟩
  · rintro ⟨i, hq⟩
    exact ⟨_, hq, rfl⟩

/-- A pattern between the two anchors matches at the start a word of its
expression, or such a word and a line break at the end. -/
theorem matchAtStart_iff {pattern body s : Str} (hb : isFree body = true)
    (hc : compile pattern = (compile body).map fun r => .seq .start (.seq r (.seq .stop .empty))) :
    matchAtStart pattern s = some true ↔ Matches inside (regexOf body) (wordOf s) ∨
      ∃ w, s = w ++ [.scalar '\n'] ∧ Matches inside (regexOf body) (wordOf w) := by
  obtain ⟨r, hr, hfree⟩ := exists_of_isFree hb
  have hends : ends (.seq .start (.seq r (.seq .stop .empty))) (0, s) ≠ [] ↔
      ∃ rest, (∃ i, Spans r.regex (0, s) (i, rest)) ∧ (rest = [] ∨ rest = [.scalar '\n']) := by
    refine Iff.trans ⟨List.exists_mem_of_ne_nil _, fun ⟨_, h⟩ => List.ne_nil_of_mem h⟩ ?_
    simp only [ends, if_true, List.flatMap_cons, List.flatMap_nil, List.append_nil, List.mem_flatMap,
      mem_ends_iff hfree]
    constructor
    · rintro ⟨q, ⟨i, rest⟩, hm, q', hq', -⟩
      refine ⟨rest, ⟨i, hm⟩, ?_⟩
      by_contra hrest
      rw [if_neg hrest] at hq'
      cases hq'
    · rintro ⟨rest, ⟨i, hm⟩, hrest⟩
      exact ⟨(i, rest), (i, rest), hm, (i, rest), by rw [if_pos hrest]; exact List.mem_singleton_self _,
        List.mem_singleton_self _⟩
  rw [matchAtStart, hc, hr, Option.map_some, Option.map_some, Option.some.injEq,
    decide_eq_true_eq, hends]
  simp only [spans_whole, regexOf, hr, Option.getD_some]
  constructor
  · rintro ⟨rest, ⟨w, hs, hw⟩, rfl | rfl⟩
    · rw [List.append_nil] at hs
      exact Or.inl (hs ▸ hw)
    · exact Or.inr ⟨w, hs, hw⟩
  · rintro (hw | ⟨w, hs, hw⟩)
    · exact ⟨[], ⟨s, (List.append_nil s).symm, hw⟩, Or.inl rfl⟩
    · exact ⟨_, ⟨w, hs, hw⟩, Or.inr rfl⟩

/-! ## Finite languages -/

def wordRegex (s : Str) : Regex Ranges :=
  s.foldr (fun c r => .seq (.letter (false, [(c.ord, c.ord)])) r) .empty

/-- The expression of a list of words. -/
def wordsRegex (words : List Str) : Regex Ranges :=
  words.foldr (fun s r => .alt (wordRegex s) r) (.letter (false, []))

/-- The expression of the words that have some character in them. -/
def hasRegex (c : CodePoint) : Regex Ranges :=
  .seq (.star (.letter (true, []))) (.seq (.letter (false, [(c.ord, c.ord)])) (.star (.letter (true, []))))

theorem matches_wordRegex {s : Str} {w : List Nat} :
    Matches inside (wordRegex s) w ↔ w = wordOf s := by
  induction s generalizing w with
  | nil => simp [wordRegex, wordOf]
  | cons c s ih =>
    rw [wordRegex, List.foldr_cons, ← wordRegex, matches_seq]
    simp only [ih, matches_letter]
    constructor
    · rintro ⟨u, v, ⟨a, ha, rfl⟩, rfl, rfl⟩
      simp only [inside, List.any_cons, List.any_nil, Bool.or_false, Bool.bne_false,
        Bool.and_eq_true, decide_eq_true_eq] at ha
      rw [le_antisymm ha.2 ha.1]
      rfl
    · rintro rfl
      exact ⟨[c.ord], wordOf s, ⟨c.ord, (inside_char c c).mpr rfl, rfl⟩, rfl, rfl⟩

theorem wordOf_injective : Function.Injective wordOf :=
  List.map_injective_iff.mpr CodePoint.ord_injective

theorem matches_wordsRegex {words : List Str} {s : Str} :
    Matches inside (wordsRegex words) (wordOf s) ↔ s ∈ words := by
  induction words with
  | nil => simp [wordsRegex, inside]
  | cons t words ih =>
    rw [wordsRegex, List.foldr_cons, ← wordsRegex, matches_alt, ih, matches_wordRegex,
      wordOf_injective.eq_iff, List.mem_cons]

theorem matches_all (w : List Nat) : Matches inside (.star (.letter (true, []))) w := by
  induction w with
  | nil => exact .done
  | cons a w ih => exact .more (.letter (by simp [inside])) ih

theorem matches_hasRegex {c : CodePoint} {s : Str} :
    Matches inside (hasRegex c) (wordOf s) ↔ c ∈ s := by
  rw [hasRegex, matches_seq]
  simp only [matches_seq, matches_letter, matches_all, true_and]
  constructor
  · rintro ⟨u, _, ⟨_, v, ⟨a, ha, rfl⟩, rfl⟩, hs⟩
    have hmem : a ∈ wordOf s := by
      rw [hs]
      simp
    obtain ⟨d, hd, rfl⟩ := List.mem_map.mp hmem
    rw [(inside_char c d).mp ha]
    exact hd
  · intro hc
    obtain ⟨u, v, rfl⟩ := List.append_of_mem hc
    exact ⟨wordOf u, wordOf (c :: v), ⟨[c.ord], wordOf v, ⟨c.ord, (inside_char c c).mpr rfl, rfl⟩, rfl⟩,
      List.map_append⟩

end vfy.re
