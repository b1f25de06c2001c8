-- What the JSON scanner returns and raises, for any hooks: it never runs out
-- of fuel, it leaves less text than it was given, and it raises only a syntax
-- error or what a hook raises.
import VerifyRun.Json

namespace vfy.json

open calls python

/-- What the hooks raise is `E`, and what they build of values `V` is `V`. -/
structure HookRules (hooks : Hooks) (E : Exn → Prop) (V : Value → Prop) : Prop where
  pairs : ∀ ms : List (Str × Value), (∀ m ∈ ms, V m.2) →
    (hooks.object_pairs_hook ms).Sat Answers E V
  float : ∀ t, (hooks.parse_float t).Sat Answers E V
  int : ∀ t, (hooks.parse_int t).Sat Answers E V
  constant : ∀ t, (hooks.parse_constant t).Sat Answers E V
  syntax_error : E .json_decode_error
  null : V .null
  bool : ∀ b, V (.bool b)
  str : ∀ s, V (.str s)
  list : ∀ vs : List Value, (∀ v ∈ vs, V v) → V (.list vs)

theorem skip_space_length (s : Text) : (skip_space s).length ≤ s.length :=
  (List.dropWhile_suffix _).length_le

theorem after_length {word s rest : Text} (h : after word s = some rest) :
    rest.length + word.length = s.length := by
  induction word generalizing s with
  | nil => cases h; rfl
  | cons c word ih =>
    cases s with
    | nil => simp [after] at h
    | cons d s =>
      simp only [after] at h
      split at h
      · simp [← ih h]
        omega
      · cases h

theorem takeDigits_length (s : Text) : (takeDigits s).2.length ≤ s.length :=
  (List.dropWhile_suffix _).length_le

/-- The digits at a digit are at least one. -/
theorem takeDigits_length_lt {c : Char} {s : Text} (h : c.isDigit = true) :
    (takeDigits (c :: s)).2.length < (c :: s).length := by
  simp only [takeDigits, List.dropWhile_cons, h, if_true, List.length_cons]
  have := takeDigits_length s
  simp only [takeDigits] at this
  omega

theorem integerPart_length {s t rest : Text} (h : integerPart s = some (t, rest)) :
    rest.length < s.length := by
  unfold integerPart at h
  split at h
  · cases h
    simp only [List.length_cons]
    omega
  · rename_i c s' _
    split at h
    · rename_i hc
      cases h
      have := takeDigits_length_lt (s := s') hc
      simp only [List.length_cons] at this ⊢
      omega
    · cases h
  · cases h; simp
  · rename_i c s' _ _ _
    split at h
    · rename_i hc
      simp only [Option.some.injEq] at h
      have := takeDigits_length_lt (s := s') hc
      rw [h] at this
      exact this
    · cases h
  · cases h

theorem fractionPart_length (s : Text) : (fractionPart s).2.length ≤ s.length := by
  unfold fractionPart
  split
  · split
    · rename_i c rest hc
      have := takeDigits_length_lt (s := rest) hc
      simp only [List.length_cons] at this ⊢
      omega
    · rfl
  · rfl

theorem signPart_length (s : Text) : (signPart s).2.length ≤ s.length := by
  unfold signPart
  split
  · split <;> simp
  · rfl

theorem exponentPart_length (s : Text) : (exponentPart s).2.length ≤ s.length := by
  unfold exponentPart
  split
  · rename_i e rest
    split
    · have h1 := signPart_length rest
      have h2 := takeDigits_length (signPart rest).2
      simp only [List.length_cons]
      split
      · simp
      · simp only
        omega
    · rfl
  · rfl

section

variable {hooks : Hooks} {E : Exn → Prop} {V : Value → Prop}

theorem scanstring_sat (hE : E .json_decode_error) (s : Text) :
    (scanstring s).Sat Answers E fun p => p.2.length < s.length := by
  induction s using scanstring.induct with
  | case1 => exact hE
  | case2 rest => exact Prog.Sat.pure (by simp)
  | case3 a b c d rest n hn ih =>
    simp only [scanstring, hn]
    refine Prog.Sat.bind ih fun p hp => Prog.Sat.pure ?_
    simp only [List.length_cons] at hp ⊢
    omega
  | case4 a b c d rest hn =>
    simp only [scanstring, hn]
    exact hE
  | case5 mark rest hnot c hc ih =>
    rw [scanstring]
    · simp only [hc]
      refine Prog.Sat.bind ih fun p hp => Prog.Sat.pure ?_
      simp only [List.length_cons] at hp ⊢
      omega
    · exact hnot
  | case6 mark rest hnot hc =>
    rw [scanstring]
    · simp only [hc]
      exact hE
    · exact hnot
  | case7 c rest h1 h2 h3 hlt =>
    rw [scanstring]
    · simp only [hlt, if_true]
      exact hE
    all_goals assumption
  | case8 c rest h1 h2 h3 hlt ih =>
    rw [scanstring]
    · simp only [hlt, if_false]
      refine Prog.Sat.bind ih fun p hp => Prog.Sat.pure ?_
      simp only [List.length_cons] at hp ⊢
      omega
    all_goals assumption

theorem scan_number_sat (h : HookRules hooks E V) (s : Text) :
    (scan_number hooks s).Sat Answers E fun p => V p.1 ∧ p.2.length < s.length := by
  unfold scan_number
  split
  · exact h.syntax_error
  · rename_i integer rest hi
    have h1 := integerPart_length hi
    have h2 := fractionPart_length rest
    have h3 := exponentPart_length (fractionPart rest).2
    simp only
    split
    · refine Prog.Sat.bind (h.int _) fun v hv => Prog.Sat.pure ⟨hv, ?_⟩
      simp only
      omega
    · refine Prog.Sat.bind (h.float _) fun v hv => Prog.Sat.pure ⟨hv, ?_⟩
      simp only
      omega

theorem scan_word_sat (hE : E .json_decode_error) (word s : Text) {value : Py Value}
    (hv : value.Sat Answers E V) :
    (scan_word word s value).Sat Answers E fun p => V p.1 ∧ p.2.length ≤ s.length := by
  unfold scan_word
  split
  · rename_i rest hr
    have := after_length hr
    exact Prog.Sat.bind hv fun v hv => Prog.Sat.pure ⟨hv, by simp only; omega⟩
  · exact hE

/-- One turn of fuel of the scanner, for every kind of text it reads. -/
theorem scan_sat (h : HookRules hooks E V) (fuel : Nat) :
    (∀ s : Text, 3 * s.length + 1 ≤ fuel →
      (scan_once hooks fuel s).Sat Answers E fun p => V p.1 ∧ p.2.length < s.length) ∧
    (∀ s : Text, 3 * s.length + 3 ≤ fuel →
      (scan_object hooks fuel s).Sat Answers E fun p => V p.1 ∧ p.2.length < s.length) ∧
    (∀ s : Text, 3 * s.length + 2 ≤ fuel →
      (scan_members hooks fuel s).Sat Answers E fun p =>
        (∀ m ∈ p.1, V m.2) ∧ p.2.length < s.length) ∧
    (∀ s : Text, 3 * s.length + 3 ≤ fuel →
      (scan_array hooks fuel s).Sat Answers E fun p => V p.1 ∧ p.2.length < s.length) ∧
    (∀ s : Text, 3 * s.length + 2 ≤ fuel →
      (scan_items hooks fuel s).Sat Answers E fun p =>
        (∀ v ∈ p.1, V v) ∧ p.2.length < s.length) := by
  induction fuel with
  | zero => refine ⟨?_, ?_, ?_, ?_, ?_⟩ <;> intro s hs <;> omega
  | succ fuel ih =>
    obtain ⟨ihOnce, ihObject, ihMembers, ihArray, ihItems⟩ := ih
    refine ⟨?_, ?_, ?_, ?_, ?_⟩
    · intro s hs
      cases s with
      | nil => exact h.syntax_error
      | cons c rest =>
        simp only [List.length_cons] at hs ⊢
        have hsp := skip_space_length rest
        have hword : ∀ (word : Text) (value : Py Value), value.Sat Answers E V →
            (scan_word word rest value).Sat Answers E fun p =>
              V p.1 ∧ p.2.length < rest.length + 1 := fun word value hv =>
          (scan_word_sat h.syntax_error word rest hv).mono (fun _ he => he)
            fun p hp => ⟨hp.1, by omega⟩
        rw [scan_once]
        split
        · exact Prog.Sat.bind (scanstring_sat h.syntax_error rest) fun p hp =>
            Prog.Sat.pure ⟨h.str _, by simp only; omega⟩
        split
        · exact (ihObject _ (by omega)).mono (fun _ he => he)
            fun p hp => ⟨hp.1, by omega⟩
        split
        · exact (ihArray _ (by omega)).mono (fun _ he => he)
            fun p hp => ⟨hp.1, by omega⟩
        split
        · exact hword _ _ (Prog.Sat.pure h.null)
        split
        · exact hword _ _ (Prog.Sat.pure (h.bool _))
        split
        · exact hword _ _ (Prog.Sat.pure (h.bool _))
        split
        · exact hword _ _ (h.constant _)
        split
        · exact hword _ _ (h.constant _)
        split
        · rename_i rest' hr
          have := after_length hr
          simp only [List.length_cons] at this
          exact Prog.Sat.bind (h.constant _) fun v hv =>
            Prog.Sat.pure ⟨hv, by simp only; omega⟩
        · exact scan_number_sat h (c :: rest)
    · intro s hs
      rw [scan_object]
      split
      · rename_i rest hr
        have := after_length hr
        exact Prog.Sat.bind (h.pairs [] (by simp)) fun v hv =>
          Prog.Sat.pure ⟨hv, by simp at this; simp only; omega⟩
      · exact Prog.Sat.bind (ihMembers s (by omega)) fun p hp =>
          Prog.Sat.bind (h.pairs _ hp.1) fun v hv => Prog.Sat.pure ⟨hv, hp.2⟩
    · intro s hs
      rw [scan_members]
      split
      · exact h.syntax_error
      rename_i rest hr
      have h0 := after_length hr
      refine Prog.Sat.bind (scanstring_sat h.syntax_error rest) fun p hp => ?_
      have h1 := skip_space_length p.2
      simp only
      split
      · exact h.syntax_error
      rename_i rest1 hr1
      have h2 := after_length hr1
      have h3 := skip_space_length rest1
      simp only [List.length_cons, List.length_nil] at h0 h2
      refine Prog.Sat.bind (ihOnce _ (by omega)) fun q hq => ?_
      have h4 := skip_space_length q.2
      split
      · rename_i rest2 hr2
        have h5 := after_length hr2
        simp only [List.length_cons, List.length_nil] at h5
        exact Prog.Sat.pure ⟨by simpa using hq.1, by simp only; omega⟩
      split
      · exact h.syntax_error
      rename_i rest2 hr2
      have h5 := after_length hr2
      have h6 := skip_space_length rest2
      simp only [List.length_cons, List.length_nil] at h5
      refine Prog.Sat.bind (ihMembers _ (by omega)) fun r hr => Prog.Sat.pure ⟨?_, ?_⟩
      · intro m hm
        rcases List.mem_cons.mp hm with rfl | hm
        · exact hq.1
        · exact hr.1 m hm
      · simp only
        omega
    · intro s hs
      rw [scan_array]
      split
      · rename_i rest hr
        have := after_length hr
        exact Prog.Sat.pure ⟨h.list _ (by simp), by simp at this; simp only; omega⟩
      · exact Prog.Sat.bind (ihItems s (by omega)) fun p hp =>
          Prog.Sat.pure ⟨h.list _ hp.1, hp.2⟩
    · intro s hs
      rw [scan_items]
      refine Prog.Sat.bind (ihOnce s (by omega)) fun q hq => ?_
      have h1 := skip_space_length q.2
      simp only
      split
      · rename_i rest1 hr1
        have h2 := after_length hr1
        simp only [List.length_cons, List.length_nil] at h2
        exact Prog.Sat.pure ⟨by simpa using hq.1, by simp only; omega⟩
      split
      · exact h.syntax_error
      rename_i rest1 hr1
      have h2 := after_length hr1
      have h3 := skip_space_length rest1
      simp only [List.length_cons, List.length_nil] at h2
      refine Prog.Sat.bind (ihItems _ (by omega)) fun r hr => Prog.Sat.pure ⟨?_, ?_⟩
      · intro v hv
        rcases List.mem_cons.mp hv with rfl | hv
        · exact hq.1
        · exact hr.1 v hv
      · simp only
        omega

/-- A text without a byte-order mark is scanned. -/
theorem loads_eq {s : Text} (h : ∀ rest, s ≠ '\uFEFF' :: rest) : loads hooks s = (do
    let (value, rest) ← scan_once hooks (fuelFor s) (skip_space s)
    match skip_space rest with
    | [] => pure value
    | _ => raise .json_decode_error) := by
  unfold loads
  split
  · exact absurd rfl (h _)
  · rfl

/-- `loads` raises only a syntax error or what a hook raises. -/
theorem loads_sat (h : HookRules hooks E V) (s : Text) : (loads hooks s).Sat Answers E V := by
  unfold loads
  split
  · exact h.syntax_error
  · have hs := skip_space_length s
    refine Prog.Sat.bind ((scan_sat h _).1 _ (by unfold fuelFor; omega)) fun p hp => ?_
    simp only
    split
    · exact Prog.Sat.pure hp.1
    · exact h.syntax_error

end

end vfy.json
