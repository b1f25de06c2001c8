-- Patterns of two kinds of element: one that takes exactly one character, and
-- one that takes any run of them. The laws say why a matcher that goes back to
-- the last run alone misses nothing.
import Mathlib

namespace wildcard

variable {α : Type}

/-- An element of a pattern over an alphabet. -/
inductive Element (α : Type) where
  /-- Any run of characters. -/
  | run
  /-- One character that it accepts. -/
  | one (accepts : α → Bool)

/-- The pattern matches the whole text. -/
def Matches : List (Element α) → List α → Prop
  | [], text => text = []
  | .run :: rest, text => ∃ n ≤ text.length, Matches rest (text.drop n)
  | .one _ :: _, [] => False
  | .one accepts :: rest, c :: text => accepts c = true ∧ Matches rest text

/-- The pattern matches the text from a position on. -/
def MatchesFrom (pattern : List (Element α)) (text : List α) (k : Nat) : Prop :=
  k ≤ text.length ∧ Matches pattern (text.drop k)

theorem matchesFrom_nil {text : List α} {k : Nat} : MatchesFrom [] text k ↔ k = text.length := by
  unfold MatchesFrom Matches
  rw [List.drop_eq_nil_iff]
  omega

/-- A run takes the text up to any later position. -/
theorem matchesFrom_run {rest : List (Element α)} {text : List α} {k : Nat} :
    MatchesFrom (.run :: rest) text k ↔ ∃ n ≥ k, MatchesFrom rest text n := by
  constructor
  · rintro ⟨hk, n, hn, h⟩
    rw [List.length_drop] at hn
    rw [List.drop_drop] at h
    exact ⟨k + n, by omega, by omega, h⟩
  · rintro ⟨n, hkn, hn, h⟩
    refine ⟨by omega, n - k, by rw [List.length_drop]; omega, ?_⟩
    rw [List.drop_drop, Nat.add_sub_cancel' hkn]
    exact h

/-- An element of one character takes the character at the position. -/
theorem matchesFrom_one {accepts : α → Bool} {rest : List (Element α)} {text : List α} {k : Nat} :
    MatchesFrom (.one accepts :: rest) text k ↔
      ∃ c, text[k]? = some c ∧ accepts c = true ∧ MatchesFrom rest text (k + 1) := by
  constructor
  · rintro ⟨hk, h⟩
    by_cases hlt : k < text.length
    · rw [List.drop_eq_getElem_cons hlt] at h
      exact ⟨text[k], List.getElem?_eq_getElem hlt, h.1, hlt, h.2⟩
    · rw [List.drop_eq_nil_of_le (by omega)] at h
      exact h.elim
  · rintro ⟨c, hc, ha, hk, h⟩
    obtain ⟨hlt, rfl⟩ := List.getElem?_eq_some_iff.mp hc
    refine ⟨hlt.le, ?_⟩
    rw [List.drop_eq_getElem_cons hlt]
    exact ⟨ha, h⟩

/-- A run can start earlier: it takes the characters in between too. -/
theorem MatchesFrom.earlier {rest : List (Element α)} {text : List α} {j k : Nat}
    (h : MatchesFrom (.run :: rest) text k) (hjk : j ≤ k) : MatchesFrom (.run :: rest) text j := by
  rw [matchesFrom_run] at h ⊢
  obtain ⟨n, hn, h⟩ := h
  exact ⟨n, by omega, h⟩

/-! ## The last run -/

/-- Every match of the first pattern is, so many characters later, a match of
the second one. -/
def Leads (text : List α) (first second : List (Element α)) (n : Nat) : Prop :=
  ∀ k, MatchesFrom first text k → MatchesFrom second text (k + n)

theorem Leads.refl (text : List α) (pattern : List (Element α)) : Leads text pattern pattern 0 :=
  fun _ h => h

/-- An element of one character leads one character on. -/
theorem Leads.one {text : List α} {first rest : List (Element α)} {accepts : α → Bool} {n : Nat}
    (h : Leads text first (.one accepts :: rest) n) : Leads text first rest (n + 1) := by
  intro k hk
  obtain ⟨c, _, _, hrest⟩ := matchesFrom_one.mp (h k hk)
  exact hrest

/-- What a matcher has left to try: the pattern from here on, or what comes
after the last run, from a later position than the one it resumed from. -/
def Open (text : List α) (here : List (Element α)) (consumed : Nat)
    (last : Option (List (Element α))) (resume : Nat) : Prop :=
  MatchesFrom here text consumed ∨ ∃ after ∈ last, ∃ k > resume, MatchesFrom after text k

/-- At a new run, what is after the last run need not be tried again: the new
run takes what the last one would have given up. -/
theorem open_run {text : List α} {rest : List (Element α)} {consumed resume : Nat}
    {last : Option (List (Element α))} (hr : resume ≤ consumed)
    (h : ∀ after ∈ last, Leads text after (.run :: rest) (consumed - resume)) :
    Open text (.run :: rest) consumed last resume ↔ Open text rest consumed (some rest) consumed := by
  have hsplit : MatchesFrom (.run :: rest) text consumed ↔
      Open text rest consumed (some rest) consumed := by
    rw [matchesFrom_run]
    unfold Open
    simp only [Option.mem_def, Option.some.injEq, exists_eq_left']
    constructor
    · rintro ⟨n, hn, hm⟩
      rcases Nat.eq_or_lt_of_le hn with rfl | hlt
      · exact Or.inl hm
      · exact Or.inr ⟨n, hlt, hm⟩
    · rintro (hm | ⟨n, hn, hm⟩)
      · exact ⟨consumed, le_rfl, hm⟩
      · exact ⟨n, hn.le, hm⟩
  rw [← hsplit]
  constructor
  · rintro (hm | ⟨after, hlast, k, hk, hm⟩)
    · exact hm
    · exact (h after hlast k hm).earlier (by omega)
  · exact Or.inl

/-- Where the pattern from here on does not match, the last run takes one
more character. -/
theorem open_retry {text : List α} {here after : List (Element α)} {consumed resume : Nat}
    (h : ¬ MatchesFrom here text consumed) :
    Open text here consumed (some after) resume ↔
      Open text after (resume + 1) (some after) (resume + 1) := by
  unfold Open
  simp only [Option.mem_def, Option.some.injEq, exists_eq_left', h, false_or]
  constructor
  · rintro ⟨k, hk, hm⟩
    rcases Nat.eq_or_lt_of_le hk with rfl | hlt
    · exact Or.inl hm
    · exact Or.inr ⟨k, hlt, hm⟩
  · rintro (hm | ⟨k, hk, hm⟩)
    · exact ⟨resume + 1, Nat.lt_succ_self _, hm⟩
    · exact ⟨k, by omega, hm⟩

/-- An element of one character that accepts this one. -/
theorem open_one {text : List α} {rest : List (Element α)} {accepts : α → Bool}
    {consumed resume : Nat} {last : Option (List (Element α))} {c : α}
    (hc : text[consumed]? = some c) (ha : accepts c = true) :
    Open text (.one accepts :: rest) consumed last resume ↔
      Open text rest (consumed + 1) last resume := by
  unfold Open
  rw [matchesFrom_one]
  refine or_congr_left ?_
  constructor
  · rintro ⟨_, _, _, h⟩
    exact h
  · exact fun h => ⟨c, hc, ha, h⟩

/-- At the end of the text the last run has nothing more to take. -/
theorem open_end {text : List α} {here : List (Element α)} {consumed resume : Nat}
    {last : Option (List (Element α))} (hr : resume ≤ consumed) (hend : text.length ≤ consumed)
    (h : ∀ after ∈ last, Leads text after here (consumed - resume)) :
    Open text here consumed last resume ↔ MatchesFrom here text consumed := by
  constructor
  · rintro (hm | ⟨after, hlast, k, hk, hm⟩)
    · exact hm
    · have := (h after hlast k hm).1
      omega
  · exact Or.inl

/-- Only runs match nothing at all. -/
theorem matchesFrom_length {pattern : List (Element α)} {text : List α} :
    MatchesFrom pattern text text.length ↔ ∀ e ∈ pattern, e = .run := by
  induction pattern with
  | nil => simp [matchesFrom_nil]
  | cons e rest ih =>
    cases e with
    | run =>
      rw [matchesFrom_run]
      simp only [List.mem_cons, forall_eq_or_imp, true_and, ← ih]
      constructor
      · rintro ⟨n, hn, hm⟩
        have := hm.1
        rwa [show n = text.length by omega] at hm
      · exact fun hm => ⟨_, le_rfl, hm⟩
    | one accepts =>
      rw [matchesFrom_one]
      simp

end wildcard
