-- The textual depth bound bounds the parser. The check counts brackets of any
-- kind and may go below zero, but as long as the parser goes on, its count is
-- the number of containers that the parser has open.
import VerifyRun.RoundTrip
import VerifyRun.Lib.JsonText

namespace vfy.load

open calls python json keys outcomes jsontext

/-! ## The parser with a bound -/

section

variable (hooks : Hooks) (refuse : Exn)

mutual

/-- `scan_once` with room for this many open arrays and objects: where it would
open one more, it raises `refuse`. -/
def scan_once_within : Nat → Nat → Text → Py (Value × Text)
  | _, 0, _ => raise .recursion_error
  | _, _ + 1, [] => raise .json_decode_error
  | room, fuel + 1, c :: rest =>
    if c = '"' then do
      let (s, rest) ← scanstring rest
      pure (.str s, rest)
    else if c = '{' then
      if room = 0 then raise refuse else scan_object_within (room - 1) fuel (skip_space rest)
    else if c = '[' then
      if room = 0 then raise refuse else scan_array_within (room - 1) fuel (skip_space rest)
    else if c = 'n' then scan_word ['u', 'l', 'l'] rest (pure .null)
    else if c = 't' then scan_word ['r', 'u', 'e'] rest (pure (.bool true))
    else if c = 'f' then scan_word ['a', 'l', 's', 'e'] rest (pure (.bool false))
    else if c = 'N' then scan_word ['a', 'N'] rest (hooks.parse_constant "NaN")
    else if c = 'I' then
      scan_word ['n', 'f', 'i', 'n', 'i', 't', 'y'] rest (hooks.parse_constant "Infinity")
    else
      match after ['-', 'I', 'n', 'f', 'i', 'n', 'i', 't', 'y'] (c :: rest) with
      | some rest => do
        let v ← hooks.parse_constant "-Infinity"
        pure (v, rest)
      | none => scan_number hooks (c :: rest)

/-- `scan_object`, with room for what its members open. -/
def scan_object_within : Nat → Nat → Text → Py (Value × Text)
  | _, 0, _ => raise .recursion_error
  | room, fuel + 1, s =>
    match after ['}'] s with
    | some rest => do
      let v ← hooks.object_pairs_hook []
      pure (v, rest)
    | none => do
      let (pairs, rest) ← scan_members_within room fuel s
      let v ← hooks.object_pairs_hook pairs
      pure (v, rest)

def scan_members_within : Nat → Nat → Text → Py (List (Str × Value) × Text)
  | _, 0, _ => raise .recursion_error
  | room, fuel + 1, s =>
    match after ['"'] s with
    | none => raise .json_decode_error
    | some rest => do
      let (key, rest) ← scanstring rest
      match after [':'] (skip_space rest) with
      | none => raise .json_decode_error
      | some rest => do
        let (value, rest) ← scan_once_within room fuel (skip_space rest)
        match after ['}'] (skip_space rest) with
        | some rest => pure ([(key, value)], rest)
        | none =>
          match after [','] (skip_space rest) with
          | none => raise .json_decode_error
          | some rest => do
            let (pairs, rest) ← scan_members_within room fuel (skip_space rest)
            pure ((key, value) :: pairs, rest)

/-- `scan_array`, with room for what its items open. -/
def scan_array_within : Nat → Nat → Text → Py (Value × Text)
  | _, 0, _ => raise .recursion_error
  | room, fuel + 1, s =>
    match after [']'] s with
    | some rest => pure (.list [], rest)
    | none => do
      let (items, rest) ← scan_items_within room fuel s
      pure (.list items, rest)

def scan_items_within : Nat → Nat → Text → Py (List Value × Text)
  | _, 0, _ => raise .recursion_error
  | room, fuel + 1, s => do
    let (value, rest) ← scan_once_within room fuel s
    match after [']'] (skip_space rest) with
    | some rest => pure ([value], rest)
    | none =>
      match after [','] (skip_space rest) with
      | none => raise .json_decode_error
      | some rest => do
        let (values, rest) ← scan_items_within room fuel (skip_space rest)
        pure (value :: values, rest)

end

/-- `json.loads` with room for this many open arrays and objects. -/
def loads_within (room : Nat) (s : Text) : Py Value :=
  match s with
  | '\uFEFF' :: _ => raise .json_decode_error
  | _ => do
    let (value, rest) ← scan_once_within hooks refuse room (fuelFor s) (skip_space s)
    match skip_space rest with
    | [] => pure value
    | _ => raise .json_decode_error

end

/-! ## What the check lets through -/

/-- The check goes through the text, outside strings, from this depth. -/
def Clear (d : Nat) (s : Text) : Prop := depth_loop s d false false = .ok ()

/-- What stands between the two texts leaves the depth as it is. -/
def Passes (s rest : Text) : Prop := ∀ d ≤ 64, Clear d s → Clear d rest

/-- What stands between the two texts closes one bracket more than it opens. -/
def Leaves (s rest : Text) : Prop := ∀ d, d + 1 ≤ 64 → Clear (d + 1) s → Clear d rest

theorem Clear.opened {c : Char} (hc : c = '{' ∨ c = '[') {d : Nat} {s : Text}
    (h : Clear d (c :: s)) : d + 1 ≤ 64 ∧ Clear (d + 1) s := by
  unfold Clear at h
  rw [depth_loop_open hc] at h
  split at h
  · exact ⟨‹_›, h⟩
  · cases h

theorem Passes.refl (s : Text) : Passes s s := fun _ _ h => h

theorem Passes.trans {s t u : Text} (hs : Passes s t) (ht : Passes t u) : Passes s u :=
  fun d hd h => ht d hd (hs d hd h)

theorem passes_of_opens {p : Text} {k : Nat} (h : Opens p k) (rest : Text) :
    Passes (p ++ rest) rest := by
  intro d hd hc
  unfold Clear at hc
  rw [h rest d hd] at hc
  split at hc
  · exact hc
  · cases hc

theorem passes_plain {p : Text} (h : ∀ c ∈ p, Inert c) (rest : Text) : Passes (p ++ rest) rest :=
  passes_of_opens (.inert h) rest

theorem Passes.leaves {s t rest : Text} (hs : Passes s t) (ht : Leaves t rest) : Leaves s rest :=
  fun d hd h => ht d hd (hs (d + 1) hd h)

theorem leaves_close {c : Char} (hc : c = '}' ∨ c = ']') (rest : Text) : Leaves (c :: rest) rest := by
  intro d _ h
  unfold Clear at h ⊢
  rwa [depth_loop_close hc] at h

theorem Leaves.bracket {c : Char} (hc : c = '{' ∨ c = '[') {s rest : Text} (h : Leaves s rest) :
    Passes (c :: s) rest := by
  intro d _ hs
  obtain ⟨hd1, hopen⟩ := hs.opened hc
  exact h d hd1 hopen

/-! ## What the scanner consumes -/

/-- Whatever is answered and raised, what the computation returns is in `Q`. -/
def Yields {α : Type} (p : Py α) (Q : α → Prop) : Prop :=
  p.Sat (fun _ _ => True) (fun _ => True) Q

theorem yields_any {α : Type} (p : Py α) : Yields p fun _ => True := Prog.sat_true p

theorem Yields.bind {α β : Type} {p : Py α} {f : α → Py β} {Q : α → Prop} {R : β → Prop}
    (hp : Yields p Q) (hf : ∀ a, Q a → Yields (f a) R) : Yields (p >>= f) R :=
  Prog.Sat.bind hp hf

theorem Yields.mono {α : Type} {p : Py α} {Q R : α → Prop} (hp : Yields p Q) (h : ∀ a, Q a → R a) :
    Yields p R :=
  Prog.Sat.mono hp (fun _ he => he) h

theorem inert_of_not_structural {c : Char} (h : ¬ Structural c) : Inert c := by
  simpa only [Structural, Inert, not_or] using h

theorem passes_skip_space (s : Text) : Passes s (skip_space s) := by
  have hplain : ∀ c ∈ s.takeWhile isSpace, Inert c := by
    intro c hc
    have hs := List.mem_takeWhile_imp hc
    simp only [isSpace, decide_eq_true_eq] at hs
    rcases hs with rfl | rfl | rfl | rfl <;> simp [Inert]
  have h := passes_plain hplain (skip_space s)
  rwa [skip_space, List.takeWhile_append_dropWhile] at h

theorem after_eq {word s rest : Text} (h : after word s = some rest) : s = word ++ rest := by
  induction word generalizing s with
  | nil =>
    cases h
    rfl
  | cons c word ih =>
    cases s with
    | nil => cases h
    | cons d s =>
      simp only [after] at h
      split at h
      · rw [ih h, List.cons_append]
        simp_all
      · cases h

theorem passes_after {word s rest : Text} (h : after word s = some rest)
    (hw : ∀ c ∈ word, Inert c) : Passes s rest := by
  rw [after_eq h]
  exact passes_plain hw rest

theorem leaves_after {c : Char} (hc : c = '}' ∨ c = ']') {s rest : Text}
    (h : after [c] s = some rest) : Leaves s rest := by
  rw [after_eq h]
  exact leaves_close hc rest

theorem passes_digits (s : Text) : Passes s (takeDigits s).2 := by
  have hplain : ∀ c ∈ (takeDigits s).1, Inert c := fun c hc =>
    inert_of_digit (List.mem_takeWhile_imp hc)
  have h := passes_plain hplain (takeDigits s).2
  rwa [takeDigits, List.takeWhile_append_dropWhile] at h

theorem passes_cons {c : Char} (hc : Inert c) (rest : Text) : Passes (c :: rest) rest :=
  passes_plain (p := [c]) (by simpa using hc) rest

theorem passes_integerPart {s t rest : Text} (h : integerPart s = some (t, rest)) :
    Passes s rest := by
  have hminus : Inert '-' := by simp [Inert]
  have hzero : Inert '0' := inert_of_digit (by decide)
  unfold integerPart at h
  split at h
  · cases h
    exact (passes_cons hminus _).trans (passes_cons hzero _)
  · split at h
    · cases h
      exact (passes_cons hminus _).trans (passes_digits _)
    · cases h
  · cases h
    exact passes_cons hzero _
  · split at h
    · cases h
      exact passes_digits _
    · cases h
  · cases h

theorem passes_fractionPart (s : Text) : Passes s (fractionPart s).2 := by
  unfold fractionPart
  split
  · split
    · exact (passes_cons (by simp [Inert]) _).trans (passes_digits _)
    · exact .refl _
  · exact .refl _

theorem passes_signPart (s : Text) : Passes s (signPart s).2 := by
  unfold signPart
  split
  · split
    · rename_i hc
      refine passes_cons ?_ _
      rcases hc with rfl | rfl <;> simp [Inert]
    · exact .refl _
  · exact .refl _

theorem passes_exponentPart (s : Text) : Passes s (exponentPart s).2 := by
  unfold exponentPart
  split
  · rename_i e rest
    split
    · rename_i he
      simp only
      split
      · exact .refl _
      · have hinert : Inert e := by rcases he with rfl | rfl <;> simp [Inert]
        exact (passes_cons hinert _).trans ((passes_signPart _).trans (passes_digits _))
    · exact .refl _
  · exact .refl _

theorem scan_number_passes (hooks : Hooks) (s : Text) :
    Yields (scan_number hooks s) fun p => Passes s p.2 := by
  unfold scan_number
  split
  · exact trivial
  · rename_i integer rest hi
    have hpass := (passes_integerPart hi).trans
      ((passes_fractionPart rest).trans (passes_exponentPart (fractionPart rest).2))
    simp only
    split
    · exact (yields_any _).bind fun _ _ => hpass
    · exact (yields_any _).bind fun _ _ => hpass

theorem scan_word_passes {word s : Text} (hw : ∀ c ∈ word, Inert c) (value : Py Value) :
    Yields (scan_word word s value) fun p => Passes s p.2 := by
  unfold scan_word
  split
  · rename_i rest hr
    exact (yields_any _).bind fun _ _ => passes_after hr hw
  · exact trivial

/-- A hexadecimal digit ends no string and starts no escape. -/
theorem plain_of_hexValue {c : Char} (h : (hexValue c).isSome) : c ≠ '"' ∧ c ≠ '\\' := by
  constructor
  · rintro rfl
    exact absurd h (by decide)
  · rintro rfl
    exact absurd h (by decide)

theorem plain_of_hexNumber {a b c d : Char} {n : Nat} (h : hexNumber a b c d = some n) :
    ∀ x ∈ [a, b, c, d], x ≠ '"' ∧ x ≠ '\\' := by
  unfold hexNumber at h
  simp only [Option.bind_eq_bind, Option.bind_eq_some_iff] at h
  obtain ⟨_, ha, _, hb, _, hc, _, hd, _⟩ := h
  intro x hx
  refine plain_of_hexValue ?_
  simp only [List.mem_cons, List.not_mem_nil, or_false] at hx
  rcases hx with rfl | rfl | rfl | rfl <;> simp [*]

/-- Inside a string the check looks only for its end, where the scanner finds it. -/
theorem scanstring_passes (s : Text) :
    Yields (scanstring s) fun p =>
      ∀ d : Int, depth_loop s d true false = depth_loop p.2 d false false := by
  induction s using scanstring.induct with
  | case1 => exact trivial
  | case2 rest =>
    intro d
    simp [depth_loop]
  | case3 a b c d rest n hn ih =>
    simp only [scanstring, hn]
    refine Yields.bind ih fun p hp depth => ?_
    have hplain := plain_of_hexNumber hn
    simp only [List.mem_cons, List.not_mem_nil, or_false, forall_eq_or_imp, forall_eq] at hplain
    simpa [depth_loop, hplain] using hp depth
  | case4 a b c d rest hn =>
    simp only [scanstring, hn]
    exact trivial
  | case5 mark rest hnot c hc ih =>
    rw [scanstring]
    · simp only [hc]
      refine Yields.bind ih fun p hp depth => ?_
      simpa [depth_loop] using hp depth
    · exact hnot
  | case6 mark rest hnot hc =>
    rw [scanstring]
    · simp only [hc]
      exact trivial
    · exact hnot
  | case7 c rest h1 h2 h3 hlt =>
    rw [scanstring]
    · simp only [hlt, if_true]
      exact trivial
    all_goals assumption
  | case8 c rest h1 h2 h3 hlt ih =>
    rw [scanstring]
    · simp only [hlt, if_false]
      cases rest with
      | nil =>
        -- a backslash may end the text here: the scanner fails on the empty rest
        exact trivial
      | cons mark rest =>
        have hquote : c ≠ '"' := h1
        have hback : c ≠ '\\' := fun hc => h3 mark rest hc rfl
        refine Yields.bind ih fun p hp depth => ?_
        rw [← hp depth]
        simp [depth_loop, hquote, hback]
    all_goals assumption

section

variable (hooks : Hooks)

/-- One turn of fuel of the scanner: it leaves the depth where it found it, or
closes the bracket that its caller opened. -/
theorem scan_passes (fuel : Nat) :
    (∀ s, Yields (scan_once hooks fuel s) fun p => Passes s p.2) ∧
    (∀ s, Yields (scan_object hooks fuel s) fun p => Leaves s p.2) ∧
    (∀ s, Yields (scan_members hooks fuel s) fun p => Leaves s p.2) ∧
    (∀ s, Yields (scan_array hooks fuel s) fun p => Leaves s p.2) ∧
    (∀ s, Yields (scan_items hooks fuel s) fun p => Leaves s p.2) := by
  induction fuel with
  | zero => exact ⟨fun _ => trivial, fun _ => trivial, fun _ => trivial, fun _ => trivial,
      fun _ => trivial⟩
  | succ fuel ih =>
    obtain ⟨ihOnce, ihObject, ihMembers, ihArray, ihItems⟩ := ih
    have hstring : ∀ rest, Yields (scanstring rest) fun p => Passes ('"' :: rest) p.2 := by
      intro rest
      refine (scanstring_passes rest).mono fun p hp d _ hd => ?_
      unfold Clear at hd ⊢
      rw [← hp d, ← hd]
      simp [depth_loop]
    refine ⟨?_, ?_, ?_, ?_, ?_⟩
    · intro s
      cases s with
      | nil => exact trivial
      | cons c rest =>
        have hword : ∀ (word : Text) (value : Py Value), (∀ c ∈ word, Inert c) → Inert c →
            Yields (scan_word word rest value) fun p => Passes (c :: rest) p.2 :=
          fun word value hw hc => (scan_word_passes hw value).mono fun p hp =>
            (passes_cons hc rest).trans hp
        rw [scan_once]
        split
        · rename_i hc
          subst hc
          exact (hstring rest).bind fun p hp => hp
        split
        · rename_i hc
          exact (ihObject _).mono fun p hp =>
            Leaves.bracket (Or.inl hc) ((passes_skip_space rest).leaves hp)
        split
        · rename_i hc
          exact (ihArray _).mono fun p hp =>
            Leaves.bracket (Or.inr hc) ((passes_skip_space rest).leaves hp)
        split
        · rename_i hc
          exact hword _ _ (by simp [Inert]) (by simp [Inert, hc])
        split
        · rename_i hc
          exact hword _ _ (by simp [Inert]) (by simp [Inert, hc])
        split
        · rename_i hc
          exact hword _ _ (by simp [Inert]) (by simp [Inert, hc])
        split
        · rename_i hc
          exact hword _ _ (by simp [Inert]) (by simp [Inert, hc])
        split
        · rename_i hc
          exact hword _ _ (by simp [Inert]) (by simp [Inert, hc])
        split
        · rename_i rest' hr
          exact (yields_any _).bind fun _ _ => passes_after hr (by simp [Inert])
        · exact scan_number_passes hooks (c :: rest)
    · intro s
      rw [scan_object]
      split
      · rename_i rest hr
        exact (yields_any _).bind fun _ _ => leaves_after (Or.inl rfl) hr
      · exact (ihMembers s).bind fun p hp => (yields_any _).bind fun _ _ => hp
    · intro s
      rw [scan_members]
      split
      · exact trivial
      rename_i rest hr
      rw [after_eq hr]
      refine (hstring rest).bind fun p hp => ?_
      have hkey := hp.trans (passes_skip_space p.2)
      simp only
      split
      · exact trivial
      rename_i rest1 hr1
      have hcolon := (hkey.trans (passes_after hr1 (by simp [Inert]))).trans (passes_skip_space rest1)
      refine (ihOnce _).bind fun q hq => ?_
      have hvalue := (hcolon.trans hq).trans (passes_skip_space q.2)
      split
      · rename_i rest2 hr2
        exact hvalue.leaves (leaves_after (Or.inl rfl) hr2)
      split
      · exact trivial
      rename_i rest2 hr2
      have hcomma := (hvalue.trans (passes_after hr2 (by simp [Inert]))).trans
        (passes_skip_space rest2)
      exact (ihMembers _).bind fun r hr => hcomma.leaves hr
    · intro s
      rw [scan_array]
      split
      · rename_i rest hr
        exact leaves_after (Or.inr rfl) hr
      · exact (ihItems s).bind fun p hp => hp
    · intro s
      rw [scan_items]
      refine (ihOnce s).bind fun q hq => ?_
      have hvalue := hq.trans (passes_skip_space q.2)
      simp only
      split
      · rename_i rest1 hr1
        exact hvalue.leaves (leaves_after (Or.inr rfl) hr1)
      split
      · exact trivial
      rename_i rest1 hr1
      have hcomma := (hvalue.trans (passes_after hr1 (by simp [Inert]))).trans
        (passes_skip_space rest1)
      exact (ihItems _).bind fun r hr => hcomma.leaves hr

/-! ## The bound is never met -/

/-- One turn of fuel of the two scanners: with as much room as the check has
left, they are the same. -/
theorem scan_within (refuse : Exn) (fuel : Nat) :
    (∀ s d room, d + room = 64 → Clear d s →
      scan_once_within hooks refuse room fuel s = scan_once hooks fuel s) ∧
    (∀ s d room, d + room = 64 → Clear d s →
      scan_object_within hooks refuse room fuel s = scan_object hooks fuel s) ∧
    (∀ s d room, d + room = 64 → Clear d s →
      scan_members_within hooks refuse room fuel s = scan_members hooks fuel s) ∧
    (∀ s d room, d + room = 64 → Clear d s →
      scan_array_within hooks refuse room fuel s = scan_array hooks fuel s) ∧
    (∀ s d room, d + room = 64 → Clear d s →
      scan_items_within hooks refuse room fuel s = scan_items hooks fuel s) := by
  induction fuel with
  | zero =>
    refine ⟨?_, ?_, ?_, ?_, ?_⟩ <;> intro s d room _ _
    · rw [scan_once_within, scan_once]
    · rw [scan_object_within, scan_object]
    · rw [scan_members_within, scan_members]
    · rw [scan_array_within, scan_array]
    · rw [scan_items_within, scan_items]
  | succ fuel ih =>
    obtain ⟨ihOnce, ihObject, ihMembers, ihArray, ihItems⟩ := ih
    obtain ⟨passOnce, _⟩ := scan_passes hooks fuel
    refine ⟨?_, ?_, ?_, ?_, ?_⟩ <;> intro s d room hroom hs
    · cases s with
      | nil => rw [scan_once_within, scan_once]
      | cons c rest =>
        rw [scan_once_within, scan_once]
        by_cases hobject : c = '{'
        · subst hobject
          -- the check has counted this bracket, so there is room for it
          obtain ⟨hd, hopen⟩ := hs.opened (Or.inl rfl)
          have hrest := passes_skip_space rest (d + 1) hd hopen
          have hpositive : room ≠ 0 := by omega
          rw [ihObject _ (d + 1) (room - 1) (by omega) hrest]
          simp [hpositive]
        by_cases harray : c = '['
        · subst harray
          obtain ⟨hd, hopen⟩ := hs.opened (Or.inr rfl)
          have hrest := passes_skip_space rest (d + 1) hd hopen
          have hpositive : room ≠ 0 := by omega
          rw [ihArray _ (d + 1) (room - 1) (by omega) hrest]
          simp [hpositive]
        · have hneither : ∀ {a b e : Py (Value × Text)},
              (if c = '{' then a else if c = '[' then b else e) = e := fun {_ _ _} =>
            (if_neg hobject).trans (if_neg harray)
          exact ite_congr rfl (fun _ => rfl) fun _ => hneither.trans hneither.symm
    · rw [scan_object_within, scan_object]
      exact ihMembers s d room hroom hs ▸ rfl
    · rw [scan_members_within, scan_members]
      cases hr : after ['"'] s with
      | none => rfl
      | some rest =>
        simp only
        refine (scanstring_passes rest).bind_congr fun p hp => ?_
        have hkey : Clear d p.2 := by
          unfold Clear at hs ⊢
          rw [← hp d, ← hs, after_eq hr]
          simp [depth_loop]
        cases hr1 : after [':'] (skip_space p.2) with
        | none => rfl
        | some rest1 =>
          have hcolon : Passes p.2 (skip_space rest1) := (passes_skip_space p.2).trans
            ((passes_after hr1 (by simp [Inert])).trans (passes_skip_space rest1))
          have hvalue := hcolon d (by omega) hkey
          simp only
          rw [ihOnce _ d room hroom hvalue]
          refine (passOnce _).bind_congr fun q hq => ?_
          cases hr2 : after ['}'] (skip_space q.2) with
          | some rest2 => rfl
          | none =>
            cases hr3 : after [','] (skip_space q.2) with
            | none => rfl
            | some rest3 =>
              have hcomma : Passes q.2 (skip_space rest3) := (passes_skip_space q.2).trans
                ((passes_after hr3 (by simp [Inert])).trans (passes_skip_space rest3))
              have hnext := hcomma d (by omega) (hq d (by omega) hvalue)
              simp only
              rw [ihMembers _ d room hroom hnext]
    · rw [scan_array_within, scan_array]
      exact ihItems s d room hroom hs ▸ rfl
    · rw [scan_items_within, scan_items, ihOnce s d room hroom hs]
      refine (passOnce s).bind_congr fun q hq => ?_
      simp only
      cases hr2 : after [']'] (skip_space q.2) with
      | some rest2 => rfl
      | none =>
        cases hr3 : after [','] (skip_space q.2) with
        | none => rfl
        | some rest3 =>
          have hcomma : Passes q.2 (skip_space rest3) := (passes_skip_space q.2).trans
            ((passes_after hr3 (by simp [Inert])).trans (passes_skip_space rest3))
          have hnext := hcomma d (by omega) (hq d (by omega) hs)
          simp only
          rw [ihItems _ d room hroom hnext]

theorem loads_within_eq (refuse : Exn) {s : Text} (h : reject_excess_depth s = .ok ()) :
    loads_within hooks refuse 64 s = loads hooks s := by
  have hclear : Clear 0 (skip_space s) := passes_skip_space s 0 (by omega) h
  unfold loads_within
  split
  · rfl
  · rename_i hmark
    have hscan := (scan_within hooks refuse (fuelFor s)).1 (skip_space s) 0 64 rfl hclear
    rw [loads_eq hmark]
    exact hscan ▸ rfl

end

/-! ## Well-formed text -/

theorem opens_blank {t : Text} (h : Blank t) : Opens t 0 :=
  .inert fun _ hc => inert_of_not_structural (h.plain hc)

theorem ne_of_hex {c : Char} (h : Hex c) : c ≠ '"' ∧ c ≠ '\\' := by
  unfold Hex at h
  constructor
  · rintro rfl
    revert h
    decide
  · rintro rfl
    revert h
    decide

/-- The check goes through the body of a string without counting. -/
theorem depth_loop_body {body : Text} (h : Body body) (rest : Text) (d : Int) :
    depth_loop (body ++ rest) d true false = depth_loop rest d true false := by
  induction h with
  | nil => rfl
  | plain hquote hback _ _ ih => simpa [depth_loop, hquote, hback] using ih
  | escape _ _ ih => simpa [depth_loop] using ih
  | unit h1 h2 h3 h4 _ ih =>
    simpa [depth_loop, ne_of_hex h1, ne_of_hex h2, ne_of_hex h3, ne_of_hex h4] using ih

/-- A string in the text is not counted, whatever stands in it. -/
theorem depth_loop_quoted {t : Text} (h : Quoted t) (rest : Text) (d : Int) :
    depth_loop (t ++ rest) d false false = depth_loop rest d false false := by
  obtain ⟨body, hbody, rfl⟩ := h
  have hloop := depth_loop_body hbody ('"' :: rest) d
  simpa [depth_loop] using hloop

theorem opens_quoted {t : Text} (h : Quoted t) : Opens t 0 := by
  intro rest d hd
  rw [depth_loop_quoted h, if_pos (by omega)]

/-- The check sees the nesting of every part of a JSON text. -/
theorem opens_spells {part : Part} {t : Text} {k : Nat} (h : Spells part t k) : Opens t k := by
  induction h with
  | word h => exact .inert fun _ hc => inert_of_not_structural (h.plain hc)
  | number h => exact .inert fun _ hc => inert_of_not_structural (h.plain hc)
  | string h => exact opens_quoted h
  | noMembers h => exact .bracket (Or.inl rfl) (Or.inl rfl) (opens_blank h)
  | object _ ih => exact .bracket (Or.inl rfl) (Or.inl rfl) ih
  | noItems h => exact .bracket (Or.inr rfl) (Or.inr rfl) (opens_blank h)
  | array _ ih => exact .bracket (Or.inr rfl) (Or.inr rfl) ih
  | member ha hkey hb hc _ hd ih =>
    have hcolon : Opens [':'] 0 := .inert (by simp [Inert])
    have hvalue := (opens_blank hc).append (ih.append (opens_blank hd))
    have hkey := (opens_quoted hkey).append ((opens_blank hb).append (hcolon.append hvalue))
    simpa using (opens_blank ha).append hkey
  | members _ _ iht ihu =>
    have hcomma : Opens [','] 0 := .inert (by simp [Inert])
    simpa using iht.append (hcomma.append ihu)
  | item ha _ hb ih =>
    simpa using (opens_blank ha).append (ih.append (opens_blank hb))
  | items _ _ iht ihu =>
    have hcomma : Opens [','] 0 := .inert (by simp [Inert])
    simpa using iht.append (hcomma.append ihu)

theorem reject_excess_depth_document {t : Text} {k : Nat} (h : Document t k) :
    reject_excess_depth t = if k ≤ 64 then .ok () else .error tooDeep := by
  obtain ⟨a, v, b, ha, hv, hb, rfl⟩ := h
  have hopens := (opens_blank ha).append ((opens_spells hv).append (opens_blank hb))
  have hend := hopens [] 0 (by omega)
  simpa [reject_excess_depth, depth_loop] using hend

/-- The depth check bounds the parser. On every text that it lets through, well
formed or not and with any hooks, the parser with room for 64 open containers
does what the parser does: it never has more open. On a JSON text it raises
exactly when the nesting exceeds 64, and it counts nothing inside a string. -/
theorem depth_check_bounds_parsing :
    (∀ (hooks : Hooks) (refuse : Exn) (text : Text), reject_excess_depth text = .ok () →
      loads_within hooks refuse 64 text = loads hooks text) ∧
    (∀ (text : Text) (nesting : Nat), Document text nesting →
      reject_excess_depth text = if nesting ≤ 64 then .ok () else .error tooDeep) ∧
    ∀ (string rest : Text) (depth : Int), Quoted string →
      depth_loop (string ++ rest) depth false false = depth_loop rest depth false false :=
  ⟨fun hooks refuse _ h => loads_within_eq hooks refuse h,
    fun _ _ h => reject_excess_depth_document h,
    fun _ rest depth h => depth_loop_quoted h rest depth⟩

/-- A text whose brackets do not match, a list in a list, and a string of a
bracket, a quote and a backslash. -/
theorem depth_check_bounds_parsing_small :
    loads_within hooks .recursion_error 64 ['[', '}', ']', '{'] = loads hooks ['[', '}', ']', '{'] ∧
    reject_excess_depth ['[', '[', ']', ']'] = .ok () ∧
    ∀ rest : Text, depth_loop (['"', '[', '\\', '"', '\\', '\\', '"'] ++ rest) 7 false false =
      depth_loop rest 7 false false := by
  obtain ⟨hparser, hdocument, hstring⟩ := depth_check_bounds_parsing
  have hblank : Blank [] := by simp [Blank]
  have hinner : Spells .value ['[', ']'] 1 := .noItems hblank
  have houter : Spells .value ['[', '[', ']', ']'] 2 := .array (.item hblank hinner hblank)
  have hbody : Body ['[', '\\', '"', '\\', '\\'] :=
    .plain (by decide) (by decide) (by decide)
      (.escape (by decide) (.escape (by decide) .nil))
  refine ⟨hparser hooks .recursion_error _ rfl, ?_, fun rest => ?_⟩
  · exact hdocument _ 2 ⟨[], _, [], hblank, houter, hblank, rfl⟩
  · exact hstring _ rest 7 ⟨_, hbody, rfl⟩

/-- With room for one, the second bracket is refused. -/
example : outcome (loads_within hooks .recursion_error 1 ['[', '[']) = .error .recursion_error := by
  simp [loads_within, fuelFor, skip_space, isSpace, scan_once_within, scan_array_within,
    scan_items_within, after, error_bind]

end vfy.load
