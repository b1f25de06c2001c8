-- The glob of a rule, set against its recursive meaning. The matcher walks
-- positions of the pattern and remembers the last star alone; the meaning
-- reads the pattern as a list of elements and tries every split.
import VerifyRun.Operands
import VerifyRun.Lib.Wildcard

namespace vfy.gate

open wildcard

/-! ## What a pattern means -/

/-- An element of a glob pattern. -/
inductive GlobElement where
  /-- `*`: any run of characters. -/
  | any_run
  /-- `?`: any one character. -/
  | any_one
  /-- A class: the ranges of its members, and whether it takes the characters
  outside them. -/
  | class_of (negated : Bool) (ranges : List (CodePoint × CodePoint))
  /-- Any other character itself. -/
  | literal (c : CodePoint)

/-- The ranges of the body of a class. A character that no hyphen ties to
another one is a range of its own. -/
def ranges : Str → List (CodePoint × CodePoint)
  | a :: b :: c :: rest =>
    if b = .scalar '-' then (a, c) :: ranges rest else (a, a) :: ranges (b :: c :: rest)
  | a :: rest => (a, a) :: ranges rest
  | [] => []

/-- What is before the first `]`, and what is after it. -/
def closed : Str → Option (Str × Str)
  | [] => none
  | c :: s => if c = .scalar ']' then some ([], s) else (closed s).map fun p => (c :: p.1, p.2)

/-- The body of a class and what follows the class. The first character is a
member whatever it is. -/
def body_of : Str → Option (Str × Str)
  | [] => none
  | c :: s => (closed s).map fun p => (c :: p.1, p.2)

/-- A class after its bracket, and what follows it, if it is closed. -/
def class_at (s : Str) : Option (GlobElement × Str) :=
  match s with
  | .scalar '!' :: s => (body_of s).map fun p => (.class_of true (ranges p.1), p.2)
  | s => (body_of s).map fun p => (.class_of false (ranges p.1), p.2)

theorem closed_length {s : Str} {p : Str × Str} (h : closed s = some p) :
    p.2.length < s.length := by
  induction s generalizing p with
  | nil => cases h
  | cons c s ih =>
    rw [closed] at h
    split at h
    · cases h
      exact Nat.lt_succ_self _
    · obtain ⟨q, hq, rfl⟩ := Option.map_eq_some_iff.mp h
      exact (ih hq).trans (Nat.lt_succ_self _)

theorem body_of_length {s : Str} {p : Str × Str} (h : body_of s = some p) :
    p.2.length < s.length := by
  unfold body_of at h
  split at h
  · cases h
  · obtain ⟨q, hq, rfl⟩ := Option.map_eq_some_iff.mp h
    have := closed_length hq
    simp only [List.length_cons]
    omega

theorem class_at_length {s : Str} {e : GlobElement} {rest : Str} (h : class_at s = some (e, rest)) :
    rest.length < s.length := by
  unfold class_at at h
  split at h
  · obtain ⟨q, hq, he⟩ := Option.map_eq_some_iff.mp h
    cases he
    exact (body_of_length hq).trans (Nat.lt_succ_self _)
  · obtain ⟨q, hq, he⟩ := Option.map_eq_some_iff.mp h
    cases he
    exact body_of_length hq

/-- The elements of a pattern. A bracket that nothing closes is itself. -/
def elements (pattern : Str) : List GlobElement :=
  match pattern with
  | [] => []
  | c :: rest =>
    if c = .scalar '*' then .any_run :: elements rest
    else if c = .scalar '?' then .any_one :: elements rest
    else if c = .scalar '[' then
      match _h : class_at rest with
      | some (e, after) => e :: elements after
      | none => .literal c :: elements rest
    else .literal c :: elements rest
termination_by pattern.length
decreasing_by
  all_goals simp only [List.length_cons]
  all_goals first
    | exact Nat.lt_succ_of_lt (class_at_length ‹_›)
    | omega

/-- The characters that an element of one character accepts. -/
def GlobElement.accepts : GlobElement → CodePoint → Bool
  | .any_run, _ => false
  | .any_one, _ => true
  | .class_of negated ranges, c => (ranges.any fun r => r.1 ≤ c ∧ c ≤ r.2) != negated
  | .literal d, c => c = d

def GlobElement.wild : GlobElement → Element CodePoint
  | .any_run => .run
  | e => .one e.accepts

/-- What the pattern means: the whole text is split among its elements. -/
def GlobMatches (pattern text : Str) : Prop := Matches ((elements pattern).map GlobElement.wild) text

/-! ## The classes of the matcher -/

theorem class_loop_eq (x : CodePoint) (body : Str) (matched : Bool) :
    class_loop x body matched = (matched || (ranges body).any fun r => r.1 ≤ x ∧ x ≤ r.2) := by
  have hself : ∀ a : CodePoint, decide (a ≤ x ∧ x ≤ a) = decide (a = x) := by
    intro a
    rw [decide_eq_decide]
    exact ⟨fun h => le_antisymm h.1 h.2, fun h => ⟨h.le, h.ge⟩⟩
  induction body, matched using class_loop.induct x with
  | case1 a c rest matched ih =>
    rw [class_loop, ranges, if_pos rfl, if_pos rfl, ih, List.any_cons, Bool.or_assoc]
  | case2 a b c rest matched hb ih =>
    rw [class_loop, ranges, if_neg hb, if_neg hb, ih, List.any_cons, hself, Bool.or_assoc]
  | case3 a rest matched hrest ih =>
    rw [class_loop, ranges]
    · rw [ih, List.any_cons, hself, Bool.or_assoc]
    · exact hrest
    · exact hrest
  | case4 matched => simp [class_loop, ranges]

/-- Where the class ends, counted from the character after its bracket. -/
def class_offset (s : Str) : Option Nat :=
  let index := if s[0]? = some (.scalar '!') then 1 else 0
  let index := if s[index]? = some (.scalar ']') then index + 1 else index
  ((s.drop index).findIdx? (· = .scalar ']')).map (index + ·)

theorem class_end_eq (pattern : Str) (start : Nat) : class_end pattern start =
    (class_offset (pattern.drop (start + 1))).map (start + 1 + ·) := by
  unfold class_end class_offset
  simp only [List.getElem?_drop, List.drop_drop, Option.map_map, Nat.add_zero]
  by_cases hneg : pattern[start + 1]? = some (.scalar '!')
  · by_cases hclose : pattern[start + 1 + 1]? = some (.scalar ']')
    · simp only [hneg, hclose, if_true, Function.comp_def, Nat.add_assoc]
    · simp only [hneg, hclose, if_true, if_false, Function.comp_def, Nat.add_assoc]
  · by_cases hclose : pattern[start + 1]? = some (.scalar ']')
    · simp only [hclose, if_true, Option.some_inj, CodePoint.scalar.injEq, Char.reduceEq, if_false,
        Function.comp_def, Nat.add_assoc, Nat.add_zero, Nat.zero_add]
    · simp only [hneg, hclose, if_false, Function.comp_def, Nat.add_assoc, Nat.add_zero, Nat.zero_add]

/-- The first closing bracket is after the text that `closed` splits off. -/
theorem closed_cases (s : Str) :
    (closed s = none ∧ s.findIdx? (· = .scalar ']') = none) ∨
    ∃ body rest, closed s = some (body, rest) ∧ s = body ++ .scalar ']' :: rest ∧
      s.findIdx? (· = .scalar ']') = some body.length := by
  induction s with
  | nil => exact Or.inl ⟨rfl, rfl⟩
  | cons c s ih =>
    rw [closed, List.findIdx?_cons]
    by_cases hc : c = .scalar ']'
    · subst hc
      exact Or.inr ⟨[], s, by simp, rfl, by simp⟩
    · rcases ih with ⟨hn, hf⟩ | ⟨body, rest, hs, rfl, hf⟩
      · exact Or.inl ⟨by simp [hc, hn], by simp [hc, hf]⟩
      · exact Or.inr ⟨c :: body, rest, by simp [hc, hs], rfl, by simp [hc, hf]⟩

/-- The end of a class with no mark, counted from its first character. -/
def body_offset (s : Str) : Option Nat :=
  let index := if s[0]? = some (.scalar ']') then 1 else 0
  ((s.drop index).findIdx? (· = .scalar ']')).map (index + ·)

/-- The first character of the body does not close the class. -/
theorem body_cases (s : Str) :
    (body_of s = none ∧ body_offset s = none) ∨
    ∃ body rest, body_of s = some (body, rest) ∧ s = body ++ .scalar ']' :: rest ∧ body ≠ [] ∧
      body_offset s = some body.length := by
  cases s with
  | nil => exact Or.inl ⟨rfl, rfl⟩
  | cons c s =>
    have hoffset : body_offset (c :: s) = (s.findIdx? (· = .scalar ']')).map (1 + ·) := by
      unfold body_offset
      by_cases hc : c = .scalar ']'
      · simp [hc]
      · simp [hc, List.findIdx?_cons, Nat.add_comm, Function.comp_def]
    rw [hoffset, body_of]
    rcases closed_cases s with ⟨hn, hf⟩ | ⟨body, rest, hs, rfl, hf⟩
    · exact Or.inl ⟨by simp [hn], by simp [hf]⟩
    · exact Or.inr ⟨c :: body, rest, by simp [hs], rfl, by simp, by simp [hf, Nat.add_comm]⟩

theorem class_offset_negated (s : Str) :
    class_offset (.scalar '!' :: s) = (body_offset s).map (1 + ·) := by
  unfold class_offset body_offset
  by_cases hc : s[0]? = some (.scalar ']')
  · simp [hc, Function.comp_def, ← Nat.add_assoc]
  · simp [hc]

theorem class_offset_plain {s : Str} (h : s[0]? ≠ some (.scalar '!')) :
    class_offset s = body_offset s := by
  unfold class_offset body_offset
  simp only [h, if_false, Nat.zero_add]

theorem in_class_plain {body : Str} (h : body[0]? ≠ some (.scalar '!')) (x : CodePoint) :
    in_class body x = class_loop x body false := by
  unfold in_class
  split
  · simp at h
  · rfl

theorem class_at_plain {s : Str} (h : s[0]? ≠ some (.scalar '!')) :
    class_at s = (body_of s).map fun p => (.class_of false (ranges p.1), p.2) := by
  unfold class_at
  split
  · simp at h
  · rfl

/-- The class that the matcher finds is the one that the pattern means. -/
theorem class_cases (s : Str) :
    (class_at s = none ∧ class_offset s = none) ∨
    ∃ e body rest, class_at s = some (e, rest) ∧ s = body ++ .scalar ']' :: rest ∧
      class_offset s = some body.length ∧ e.wild = .one e.accepts ∧
      ∀ x, in_class body x = e.accepts x := by
  by_cases hneg : s[0]? = some (.scalar '!')
  · obtain ⟨t, rfl⟩ : ∃ t, s = .scalar '!' :: t := by
      cases s with
      | nil => simp at hneg
      | cons c t => exact ⟨t, by simpa using hneg⟩
    rw [class_offset_negated, class_at]
    rcases body_cases t with ⟨hn, hf⟩ | ⟨body, rest, hb, rfl, _, hf⟩
    · exact Or.inl ⟨by simp [hn], by simp [hf]⟩
    · refine Or.inr ⟨.class_of true (ranges body), .scalar '!' :: body, rest, by simp [hb], rfl,
        by simp [hf, Nat.add_comm], rfl, ?_⟩
      intro x
      simp [in_class, class_loop_eq, GlobElement.accepts]
  · rw [class_offset_plain hneg, class_at_plain hneg]
    rcases body_cases s with ⟨hn, hf⟩ | ⟨body, rest, hb, rfl, hne, hf⟩
    · exact Or.inl ⟨by simp [hn], hf⟩
    · refine Or.inr ⟨.class_of false (ranges body), body, rest, by simp [hb], rfl, hf, rfl, ?_⟩
      intro x
      have hhead : body[0]? ≠ some (.scalar '!') := by
        rwa [List.getElem?_append_left (List.length_pos_iff.mpr hne)] at hneg
      rw [in_class_plain hhead, class_loop_eq]
      simp [GlobElement.accepts]

/-! ## One element of the matcher -/

/-- The pattern from a position on, as elements. -/
def from_position (pattern : Str) (position : Nat) : List (Element CodePoint) :=
  (elements (pattern.drop position)).map GlobElement.wild

theorem from_position_end {pattern : Str} {position : Nat} (h : pattern[position]? = none) :
    from_position pattern position = [] := by
  rw [List.getElem?_eq_none_iff] at h
  rw [from_position, List.drop_eq_nil_of_le h, elements, List.map_nil]

theorem from_position_star {pattern : Str} {position : Nat}
    (h : pattern[position]? = some (.scalar '*')) :
    from_position pattern position = .run :: from_position pattern (position + 1) := by
  obtain ⟨hlt, hc⟩ := List.getElem?_eq_some_iff.mp h
  rw [from_position, List.drop_eq_getElem_cons hlt, hc, elements, if_pos rfl]
  rfl

/-- Any other element takes one character, and it is the one that `_single`
looks at. -/
theorem from_position_one {pattern : Str} {position : Nat} {m : CodePoint}
    (h : pattern[position]? = some m) (hm : m ≠ .scalar '*') :
    ∃ (accepts : CodePoint → Bool) (next : Nat),
      from_position pattern position = .one accepts :: from_position pattern next ∧
        ∀ c, single pattern position c = if accepts c then some next else none := by
  obtain ⟨hlt, rfl⟩ := List.getElem?_eq_some_iff.mp h
  have hdrop := List.drop_eq_getElem_cons hlt
  generalize pattern[position] = m at hm hdrop h
  unfold from_position single
  rw [hdrop, elements, h]
  simp only [if_neg hm]
  by_cases hany : m = .scalar '?'
  · exact ⟨_, position + 1, by rw [if_pos hany]; rfl, fun c => by simp [hany, GlobElement.accepts]⟩
  · simp only [if_neg hany]
    by_cases hclass : m = .scalar '['
    · simp only [if_pos hclass, class_end_eq]
      rcases class_cases (pattern.drop (position + 1)) with
        ⟨hn, hoff⟩ | ⟨e, body, rest, hat, hsplit, hoff, hwild, haccepts⟩
      · refine ⟨(GlobElement.literal m).accepts, position + 1, ?_, ?_⟩
        · split
          · rename_i hat
            rw [hn] at hat
            cases hat
          · rfl
        · intro c
          simp [hoff, hclass, GlobElement.accepts]
      · have hrest : pattern.drop (position + 1 + body.length + 1) = rest := by
          rw [Nat.add_assoc, ← List.drop_drop, hsplit, List.append_cons]
          exact List.drop_left' (by simp)
        have hbody : (pattern.take (position + 1 + body.length)).drop (position + 1) = body := by
          rw [List.drop_take, hsplit, Nat.add_sub_cancel_left, List.take_left]
        refine ⟨e.accepts, position + 1 + body.length + 1, ?_, ?_⟩
        · split
          · rename_i hat'
            rw [hat] at hat'
            cases hat'
            rw [hrest, List.map_cons, hwild]
          · rename_i hat'
            rw [hat] at hat'
            cases hat'
        · intro c
          simp only [hoff, Option.map_some, hbody, haccepts]
    · simp only [if_neg hclass]
      exact ⟨_, position + 1, rfl, fun c => by simp [GlobElement.accepts]⟩

/-! ## The loop -/

/-- What is after the last star, where there is one. -/
def Walk.last (w : Walk) (pattern : Str) : Option (List (Element CodePoint)) :=
  w.star.map fun s => from_position pattern (s + 1)

/-- Between the last star and the position there are only elements of one
character, and the text has been consumed through them. -/
structure Walk.Good (w : Walk) (pattern text : Str) : Prop where
  within : w.consumed ≤ text.length
  leads : ∀ after ∈ w.last pattern,
    Leads text after (from_position pattern w.position) (w.consumed - w.resume)

/-- The walk can still match. -/
def Walk.CanMatch (w : Walk) (pattern text : Str) : Prop :=
  Open text (from_position pattern w.position) w.consumed (w.last pattern) w.resume

theorem good_match {pattern text : Str} {w : Walk} {next : Nat} {accepts : CodePoint → Bool}
    (hgood : w.Good pattern text) (hc : w.consumed < text.length) (hlt : w.position < next)
    (hone : from_position pattern w.position = .one accepts :: from_position pattern next) :
    (w.match_ hlt).Good pattern text := by
  constructor
  · exact hc
  · intro after hlast
    have hlead := hgood.leads after hlast
    rw [hone] at hlead
    have := w.resume_le
    show Leads text after (from_position pattern next) (w.consumed + 1 - w.resume)
    rw [Nat.sub_add_comm this]
    exact hlead.one

theorem good_open {pattern text : Str} {w : Walk} (hc : w.consumed < text.length) :
    w.open_.Good pattern text := by
  constructor
  · exact hc.le
  · intro after hlast
    simp only [Walk.last, Walk.open_, Option.map_some, Option.mem_def, Option.some.injEq] at hlast
    subst hlast
    show Leads text _ (from_position pattern (w.position + 1)) (w.consumed - w.consumed)
    rw [Nat.sub_self]
    exact Leads.refl _ _

theorem good_retry {pattern text : Str} {w : Walk} (hc : w.consumed < text.length) (s : Nat) : (w.retry s).Good pattern text := by
  constructor
  · have := w.resume_le
    show w.resume + 1 ≤ text.length
    omega
  · intro after hlast
    simp only [Walk.last, Walk.retry, Option.map_some, Option.mem_def, Option.some.injEq] at hlast
    subst hlast
    show Leads text _ (from_position pattern (s + 1)) (w.resume + 1 - (w.resume + 1))
    rw [Nat.sub_self]
    exact Leads.refl _ _

/-- What is left of the pattern matches nothing more when it is all stars. -/
theorem glob_rest_iff (pattern text : Str) (position : Nat) :
    glob_rest pattern position = true ↔
      MatchesFrom (from_position pattern position) text text.length := by
  rw [matchesFrom_length]
  unfold glob_rest from_position
  generalize pattern.drop position = rest
  induction rest with
  | nil => simp [elements]
  | cons c rest ih =>
    by_cases hc : c = .scalar '*'
    · rw [elements, if_pos hc, List.all_cons, List.map_cons]
      simp only [hc, decide_true, Bool.true_and, ih, List.mem_cons, forall_eq_or_imp,
        GlobElement.wild, true_and]
    · obtain ⟨accepts, next, hone, -⟩ := @from_position_one (c :: rest) 0 _ rfl hc
      rw [from_position, List.drop_zero] at hone
      rw [hone]
      simp [hc]

theorem single_some {pattern : Str} {position next : Nat} {c : CodePoint}
    (h : single pattern position c = some next) : ∃ accepts : CodePoint → Bool,
      from_position pattern position = .one accepts :: from_position pattern next ∧
        accepts c = true := by
  cases hm : pattern[position]? with
  | none => simp [single, hm] at h
  | some m =>
    by_cases hstar : m = .scalar '*'
    · simp [single, hm, hstar] at h
    · obtain ⟨accepts, n, hone, hsingle⟩ := from_position_one hm hstar
      rw [hsingle] at h
      split at h
      · cases h
        exact ⟨accepts, hone, ‹_›⟩
      · cases h

theorem single_none {pattern text : Str} {position k : Nat} {c : CodePoint}
    (h : single pattern position c = none) (hstar : pattern[position]? ≠ some (.scalar '*'))
    (hc : text[k]? = some c) : ¬ MatchesFrom (from_position pattern position) text k := by
  have hk := (List.getElem?_eq_some_iff.mp hc).1
  cases hm : pattern[position]? with
  | none =>
    rw [from_position_end hm, matchesFrom_nil]
    omega
  | some m =>
    obtain ⟨accepts, n, hone, hsingle⟩ := from_position_one hm (by rintro rfl; exact hstar hm)
    rw [hsingle] at h
    rw [hone, matchesFrom_one]
    rintro ⟨d, hd, ha, -⟩
    rw [hc, Option.some_inj] at hd
    subst hd
    simp [ha] at h

/-- The loop of `_glob` says whether the walk can still match. -/
theorem glob_loop_iff {pattern text : Str} (w : Walk) (hgood : w.Good pattern text) :
    glob_loop pattern text w = true ↔ w.CanMatch pattern text := by
  induction w using glob_loop.induct pattern text with
  | case1 w hc next hstep ih =>
    obtain ⟨accepts, hone, ha⟩ := single_some hstep
    have hchar := List.getElem?_eq_getElem hc
    rw [glob_loop, dif_pos hc]
    split
    · rename_i next' hstep'
      rw [hstep, Option.some_inj] at hstep'
      subst hstep'
      rw [ih (good_match hgood hc _ hone), Walk.CanMatch, Walk.CanMatch, hone]
      exact (open_one hchar ha).symm
    · rename_i hstep'
      rw [hstep] at hstep'
      cases hstep'
  | case2 w hc hstep hstar ih =>
    have hrun := from_position_star hstar
    rw [glob_loop, dif_pos hc]
    split
    · rename_i next' hstep'
      rw [hstep] at hstep'
      cases hstep'
    · rw [dif_pos hstar, ih (good_open hc), Walk.CanMatch, Walk.CanMatch, hrun]
      have hleads := hgood.leads
      rw [hrun] at hleads
      exact (open_run w.resume_le hleads).symm
  | case3 w hc hstep hstar hs =>
    have hno := single_none hstep hstar (List.getElem?_eq_getElem hc)
    have hfalse : glob_loop pattern text w = false := by
      rw [glob_loop, dif_pos hc]
      split
      · rename_i hstep'
        rw [hstep] at hstep'
        cases hstep'
      · rw [dif_neg hstar]
        split
        · rfl
        · rename_i hs'
          rw [hs] at hs'
          cases hs'
    rw [hfalse, Walk.CanMatch, Open, Walk.last, hs]
    simp [hno]
  | case4 w hc hstep hstar s hs ih =>
    have hno := single_none hstep hstar (List.getElem?_eq_getElem hc)
    have hretry : glob_loop pattern text w = glob_loop pattern text (w.retry s) := by
      rw [glob_loop, dif_pos hc]
      split
      · rename_i hstep'
        rw [hstep] at hstep'
        cases hstep'
      · rw [dif_neg hstar]
        split
        · rename_i hs'
          rw [hs] at hs'
          cases hs'
        · rename_i s' hs'
          rw [hs, Option.some_inj] at hs'
          rw [hs']
    rw [hretry, ih (good_retry hc s), Walk.CanMatch, Walk.CanMatch]
    unfold Walk.last
    rw [hs]
    exact (open_retry hno).symm
  | case5 w hc =>
    have hend : w.consumed = text.length := by
      have := hgood.within
      omega
    rw [glob_loop, dif_neg hc, glob_rest_iff pattern text, ← hend, Walk.CanMatch]
    exact (open_end w.resume_le (by omega) hgood.leads).symm

/-- `_glob` ends, and it says whether the pattern matches the whole text. -/
theorem glob_matches (pattern text : Str) : glob pattern text = true ↔ GlobMatches pattern text := by
  unfold glob
  rw [glob_loop_iff _ ⟨Nat.zero_le _, fun after hlast => by cases hlast⟩]
  unfold Walk.CanMatch Open Walk.last GlobMatches MatchesFrom from_position
  simp

end vfy.gate
