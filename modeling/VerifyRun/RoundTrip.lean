-- The round trip of the canonical form: the loader reads every canonical
-- text back as the value it was written for, with the members of its
-- mappings in key order.
import VerifyRun.Load

namespace vfy.load

open calls python json keys outcomes canon

/-! ## Strings -/

theorem hexNumber_hex4 : ∀ n < 32, (match hex4 n with
    | [a, b, c, d] => hexNumber a b c d
    | _ => none) = some n := by
  decide

/-- The scanner reads one written character, then the rest of the string. -/
theorem scanstring_character {c : Char} {t rest : Text}
    (h : character_text (.scalar c) = .ok t) :
    scanstring (t ++ rest) = (scanstring rest).bind fun p => .ret (.scalar c :: p.1, p.2) := by
  simp only [character_text] at h
  split at h
  · rename_i escape he
    cases h
    unfold named_escapes at he
    split at he <;> cases he <;> rfl
  · rename_i hn
    split at h
    · rename_i hlt
      cases h
      have hx := hexNumber_hex4 c.toNat hlt
      have hunit : joinUnit (codeUnit c.toNat) = (.scalar c :: ·) := by
        funext s
        have hlt' : c.toNat < 32 := hlt
        have hcu : codeUnit c.toNat = .scalar c := by
          unfold codeUnit
          rw [dif_neg (by omega), Char.ofNat_toNat]
        rw [hcu]
        rfl
      simp only [hex4] at hx
      simp only [hex4, List.cons_append, List.nil_append]
      rw [scanstring]
      simp only [hx, hunit]
      rfl
    · rename_i hlt
      cases h
      have hq : c ≠ '"' := by rintro rfl; simp [named_escapes] at hn
      have hb : c ≠ '\\' := by rintro rfl; simp [named_escapes] at hn
      rw [List.cons_append, List.nil_append, scanstring]
      · rw [if_neg hlt]
        rfl
      · exact hq
      · intro _ _ _ _ _ hc
        exact absurd hc hb
      · intro _ _ hc
        exact absurd hc hb

theorem scanstring_pieces {s : Str} {pieces : List Text}
    (h : s.mapM character_text = .ok pieces) (rest : Text) :
    scanstring (pieces.flatten ++ '"' :: rest) = .ret (s, rest) := by
  have hf := mapM_eq_ok.mp h
  clear h
  induction hf with
  | nil => rfl
  | @cons c t s ts hc _ ih =>
    cases c with
    | surrogate n => cases hc
    | scalar ch =>
      rw [List.flatten_cons, List.append_assoc, scanstring_character hc, ih]
      rfl

/-- The scanner reads a written string back. -/
theorem scanstring_string_text {s : Str} {t : Text} (h : string_text s = .ok t) (rest : Text) :
    ∃ body, t = '"' :: body ∧ scanstring (body ++ rest) = .ret (s, rest) := by
  obtain ⟨pieces, hp, ht⟩ := bind_eq_ok.mp h
  cases ht
  exact ⟨_, rfl, by simpa using scanstring_pieces hp rest⟩

/-! ## Integers -/

/-- The text after a value starts with no character that a number could go on with. -/
def Stops (rest : Text) : Prop :=
  ∀ c s, rest = c :: s → c.isDigit = false ∧ c ≠ '.' ∧ c ≠ 'e' ∧ c ≠ 'E'

theorem stops_nil : Stops [] := by intro c s h; cases h

theorem stops_cons {c : Char} {s : Text}
    (h : c.isDigit = false ∧ c ≠ '.' ∧ c ≠ 'e' ∧ c ≠ 'E') : Stops (c :: s) := by
  intro c' s' h'
  cases h'
  exact h

theorem takeDigits_append {ds rest : Text} (hd : ∀ c ∈ ds, c.isDigit = true) (hr : Stops rest) :
    takeDigits (ds ++ rest) = (ds, rest) := by
  unfold takeDigits
  induction ds with
  | nil =>
    cases rest with
    | nil => rfl
    | cons c s => simp [(hr c s rfl).1]
  | cons c ds ih =>
    have ih' := ih fun d hd' => hd d (by simp [hd'])
    simp only [Prod.mk.injEq] at ih' ⊢
    simp [hd c (by simp), ih'.1, ih'.2]

/-- The digits of a number, whose first is zero only for zero. -/
theorem toDigits_head (n : Nat) : Nat.toDigits 10 n = ['0'] ∨
    ∃ c ds, Nat.toDigits 10 n = c :: ds ∧ c.isDigit = true ∧ c ≠ '0' := by
  induction n using Nat.strongRecOn with
  | ind n ih =>
    by_cases hn : n < 10
    · rw [Nat.toDigits_of_lt_base hn]
      have hall : ∀ m < 10, [Nat.digitChar m] = ['0'] ∨
          ((Nat.digitChar m).isDigit = true ∧ Nat.digitChar m ≠ '0') := by decide
      rcases hall n hn with h0 | hc
      · exact Or.inl h0
      · exact Or.inr ⟨_, [], rfl, hc⟩
    · right
      rw [Nat.toDigits_of_base_le (by omega) (by omega)]
      rcases ih (n / 10) (by omega) with h0 | ⟨c, ds, he, hc⟩
      · have hz : n / 10 = 0 := by
          rw [← Nat.ofDigitChars_ten_toDigits (n := n / 10), h0]
          rfl
        omega
      · exact ⟨c, ds ++ [Nat.digitChar (n % 10)], by rw [he]; rfl, hc⟩

theorem isDigit_toDigits {n : Nat} : ∀ c ∈ Nat.toDigits 10 n, c.isDigit = true :=
  fun _ hc => Nat.isDigit_of_mem_toDigits (by omega) (by omega) hc

theorem ne_minus_of_digit {c : Char} (h : c.isDigit = true) : c ≠ '-' := by
  rintro rfl
  cases h

theorem integerPart_digit {c : Char} (h : c.isDigit = true) (h0 : c ≠ '0') (s : Text) :
    integerPart (c :: s) = some (takeDigits (c :: s)) := by
  have hm := ne_minus_of_digit h
  unfold integerPart
  simp [hm, h]

theorem integerPart_minus {c : Char} (h : c.isDigit = true) (h0 : c ≠ '0') (s : Text) :
    integerPart ('-' :: c :: s) =
      some ('-' :: (takeDigits (c :: s)).1, (takeDigits (c :: s)).2) := by
  unfold integerPart
  simp [h]

theorem integerPart_decimal (i : Int) {rest : Text} (hr : Stops rest) :
    integerPart (decimal i ++ rest) = some (decimal i, rest) := by
  have hsplit : ∀ n, takeDigits (Nat.toDigits 10 n ++ rest) = (Nat.toDigits 10 n, rest) :=
    fun n => takeDigits_append isDigit_toDigits hr
  cases i with
  | ofNat n =>
    have h := hsplit n
    simp only [decimal]
    rcases toDigits_head n with h0 | ⟨c, ds, he, hc, hne⟩
    · rw [h0]
      rfl
    · rw [he] at h ⊢
      rw [List.cons_append] at h ⊢
      rw [integerPart_digit hc hne, h]
  | negSucc n =>
    have h := hsplit (n + 1)
    simp only [decimal]
    rcases toDigits_head (n + 1) with h0 | ⟨c, ds, he, hc, hne⟩
    · rw [h0]
      rfl
    · rw [he] at h ⊢
      simp only [List.cons_append] at h ⊢
      rw [integerPart_minus hc hne, h]

theorem fractionPart_stops {rest : Text} (hr : Stops rest) : fractionPart rest = ([], rest) := by
  unfold fractionPart
  split
  · rename_i c s
    exact absurd rfl (hr _ _ rfl).2.1
  · rfl

theorem exponentPart_stops {rest : Text} (hr : Stops rest) : exponentPart rest = ([], rest) := by
  unfold exponentPart
  split
  · rename_i e s
    obtain ⟨_, _, he, hE⟩ := hr _ _ rfl
    rw [if_neg (by simp [he, hE])]
  · rfl

theorem scan_number_decimal (hooks : Hooks) (i : Int) {rest : Text} (hr : Stops rest) :
    scan_number hooks (decimal i ++ rest) =
      (hooks.parse_int (decimal i)).bind fun v => .ret (v, rest) := by
  unfold scan_number
  rw [integerPart_decimal i hr]
  simp only [fractionPart_stops hr, exponentPart_stops hr, and_self, if_true]
  rfl

theorem decimalValue_digits (n : Nat) : decimalValue (Nat.toDigits 10 n) = n := by
  have h := Nat.ofDigitChars_ten_toDigits (n := n)
  rcases toDigits_head n with h0 | ⟨c, ds, he, hc, _⟩
  · rw [h0] at h ⊢
    exact congrArg Int.ofNat h
  · have hm := ne_minus_of_digit hc
    rw [he] at h ⊢
    unfold decimalValue
    simp [hm, h]

theorem decimalValue_decimal (i : Int) : decimalValue (decimal i) = i := by
  cases i with
  | ofNat n => exact decimalValue_digits n
  | negSucc n =>
    simp only [decimal, decimalValue, Nat.ofDigitChars_ten_toDigits]
    rfl

theorem digitsOf_digits (n : Nat) : digitsOf (Nat.toDigits 10 n) = Nat.toDigits 10 n := by
  rcases toDigits_head n with h0 | ⟨c, ds, he, hc, _⟩
  · rw [h0]
    rfl
  · have hm := ne_minus_of_digit hc
    rw [he]
    unfold digitsOf
    simp [hm]

theorem digitsOf_decimal (i : Int) : digitsOf (decimal i) = Nat.toDigits 10 i.natAbs := by
  cases i with
  | ofNat n => exact digitsOf_digits n
  | negSucc n => rfl

/-- A safe integer has few digits. -/
theorem convert_decimal {i : Int} (h : Value.SafeInteger i) : convert (decimal i) = .ok i := by
  rw [convert_of_short, decimalValue_decimal]
  rw [digitsOf_decimal]
  obtain ⟨hlo, hhi⟩ := h
  have hlt : i.natAbs < 10 ^ 16 := by omega
  have := Nat.toDigits_length 10 i.natAbs 16 (by omega) hlt
  unfold INT_MAX_STR_DIGITS
  omega

/-! ## Values -/

/-- The text starts with a character that starts a value or a member. -/
def StartsValue (t : Text) : Prop :=
  ∃ c s, t = c :: s ∧ isSpace c = false ∧ c ≠ ']' ∧ c ≠ '}' ∧ c.toNat < 128

theorem isSpace_of_digit {c : Char} (h : c.isDigit = true) : isSpace c = false := by
  simp only [isSpace, decide_eq_false_iff_not, not_or]
  refine ⟨?_, ?_, ?_, ?_⟩ <;> rintro rfl <;> cases h

theorem startsValue_decimal (i : Int) : StartsValue (decimal i) := by
  cases i with
  | ofNat n =>
    simp only [decimal]
    rcases toDigits_head n with h0 | ⟨c, ds, he, hc, _⟩
    · exact ⟨'0', [], h0, by decide, by decide, by decide, by decide⟩
    · refine ⟨c, ds, he, isSpace_of_digit hc, ?_, ?_, ?_⟩
      · rintro rfl
        cases hc
      · rintro rfl
        cases hc
      · have hle : c.toNat ≤ 57 := (Char.isDigit_iff_toNat.mp hc).2
        omega
  | negSucc n => exact ⟨'-', _, rfl, by decide, by decide, by decide, by decide⟩

theorem startsValue_encode {v : Value} {t : Text} (h : encode v = .ok t) : StartsValue t := by
  cases v with
  | null => cases h; exact ⟨_, _, rfl, by decide, by decide, by decide, by decide⟩
  | bool b => cases b <;> cases h <;> exact ⟨_, _, rfl, by decide, by decide, by decide, by decide⟩
  | int i =>
    have hi := integer_text_of_safe (safe_of_integer_text h)
    rw [encode, hi] at h
    cases h
    exact startsValue_decimal i
  | str s =>
    obtain ⟨body, rfl, _⟩ := scanstring_string_text h []
    exact ⟨_, _, rfl, by decide, by decide, by decide, by decide⟩
  | list items =>
    rw [encode_list] at h
    obtain ⟨ts, _, ht⟩ := bind_eq_ok.mp h
    cases ht
    exact ⟨_, _, rfl, by decide, by decide, by decide, by decide⟩
  | dict members =>
    rw [encode_dict] at h
    obtain ⟨ts, _, ht⟩ := bind_eq_ok.mp h
    cases ht
    exact ⟨_, _, rfl, by decide, by decide, by decide, by decide⟩

theorem StartsValue.append {t : Text} (h : StartsValue t) (rest : Text) :
    StartsValue (t ++ rest) := by
  obtain ⟨c, s, rfl, hc⟩ := h
  exact ⟨c, s ++ rest, rfl, hc⟩

theorem StartsValue.skip_space {t : Text} (h : StartsValue t) : skip_space t = t := by
  obtain ⟨c, s, rfl, hc, _⟩ := h
  simp [json.skip_space, hc]

theorem StartsValue.after_bracket {t : Text} (h : StartsValue t) : after [']'] t = none := by
  obtain ⟨c, s, rfl, _, hc, _⟩ := h
  simp [after, Ne.symm hc]

theorem StartsValue.after_brace {t : Text} (h : StartsValue t) : after ['}'] t = none := by
  obtain ⟨c, s, rfl, _, _, hc, _⟩ := h
  simp [after, Ne.symm hc]

/-- Texts joined by commas start as the first of them starts. -/
theorem StartsValue.joined {t : Text} (h : StartsValue t) (ts : List Text) (rest : Text) :
    StartsValue (List.intercalate [','] (t :: ts) ++ rest) := by
  obtain ⟨c, s, rfl, hc⟩ := h
  cases ts with
  | nil => exact ⟨c, s ++ rest, by simp, hc⟩
  | cons u us => exact ⟨c, _, by rw [List.intercalate_cons_cons]; simp; rfl, hc⟩

theorem skip_space_cons {c : Char} (h : isSpace c = false) (s : Text) :
    skip_space (c :: s) = c :: s := by
  simp [skip_space, h]

theorem after_self (c : Char) (s : Text) : after [c] (c :: s) = some s := by
  simp [after]

theorem after_other {c d : Char} (h : c ≠ d) (s : Text) : after [c] (d :: s) = none := by
  simp [after, h]

theorem StartsValue.length_pos {t : Text} (h : StartsValue t) : 0 < t.length := by
  obtain ⟨c, s, rfl, _⟩ := h
  simp

/-- The hooks of the loader, with other readers of numbers. -/
def withNumbers (p f : Text → Py Value) : Hooks := { hooks with parse_int := p, parse_float := f }

/-- The reader of integers takes every safe integer. -/
def ReadsInts (p : Text → Py Value) : Prop :=
  ∀ i, Value.SafeInteger i → outcome (p (decimal i)) = .ok (.int i)

theorem readsInts_within_interval : ReadsInts integer_within_interval := by
  rintro i ⟨hlo, hhi⟩
  unfold integer_within_interval
  simp only [outcome_bind, outcome_int, convert_decimal ⟨hlo, hhi⟩, ok_bind]
  rw [if_neg (by unfold MIN_SAFE_INTEGER MAX_SAFE_INTEGER; omega)]
  rfl

variable {p f : Text → Py Value}

/-- The scanner reads the text of this value back, whatever comes after it. -/
def Reads (p f : Text → Py Value) (v : Value) : Prop :=
  ∀ t rest fuel, encode v = .ok t → Stops rest → 3 * t.length ≤ fuel →
    outcome (scan_once (withNumbers p f) fuel (t ++ rest)) = .ok (v.normalize, rest)

theorem stops_comma (s : Text) : Stops (',' :: s) := stops_cons (by decide)
theorem stops_bracket (s : Text) : Stops (']' :: s) := stops_cons (by decide)
theorem stops_brace (s : Text) : Stops ('}' :: s) := stops_cons (by decide)

/-- The scanner takes a decimal for a number. -/
theorem scan_once_decimal (i : Int) {rest : Text} (hr : Stops rest) (fuel : Nat) :
    scan_once (withNumbers p f) (fuel + 1) (decimal i ++ rest) =
      (p (decimal i)).bind fun v => .ret (v, rest) := by
  refine Eq.trans ?_ (scan_number_decimal (withNumbers p f) i hr)
  have hdigit : ∀ c s, c.isDigit = true →
      scan_once (withNumbers p f) (fuel + 1) (c :: s) = scan_number (withNumbers p f) (c :: s) := by
    intro c s hc
    have hne : ∀ d : Char, d.isDigit = false → c ≠ d := by
      rintro d hd rfl
      rw [hc] at hd
      cases hd
    simp [scan_once, after, hne, (hne '-' rfl).symm]
  cases i with
  | ofNat n =>
    simp only [decimal]
    rcases toDigits_head n with h0 | ⟨c, ds, he, hc, _⟩
    · rw [h0]
      exact hdigit '0' rest rfl
    · rw [he]
      exact hdigit c _ hc
  | negSucc n =>
    simp only [decimal]
    rcases toDigits_head (n + 1) with h0 | ⟨c, ds, he, hc, _⟩
    · rw [h0]
      simp [scan_once, after]
    · have hI : 'I' ≠ c := by
        rintro rfl
        cases hc
      rw [he]
      simp [scan_once, after, hI]

theorem scan_items_encode {items : List Value} {ts : List Text} (hne : items ≠ [])
    (h : List.Forall₂ (fun v t => encode v = .ok t) items ts) (hr : ∀ v ∈ items, Reads p f v)
    (rest : Text) (fuel : Nat) (hf : 3 * (List.intercalate [','] ts).length + 1 ≤ fuel) :
    outcome (scan_items (withNumbers p f) fuel (List.intercalate [','] ts ++ ']' :: rest)) =
      .ok (items.map Value.normalize, rest) := by
  induction h generalizing fuel with
  | nil => exact absurd rfl hne
  | @cons v t items ts hv hts ih =>
    obtain ⟨fuel, rfl⟩ : ∃ f, fuel = f + 1 := ⟨fuel - 1, by omega⟩
    have hread := hr v (by simp) t
    cases hts with
    | nil =>
      simp only [List.intercalate_singleton] at hf ⊢
      rw [scan_items]
      simp only [outcome_bind, hread _ fuel hv (stops_bracket _) (by omega), ok_bind,
        skip_space_cons (c := ']') (by decide), after_self]
      rfl
    | @cons v' t' items' ts' hv' hts' =>
      have hst := startsValue_encode hv'
      rw [List.intercalate_cons_cons] at hf ⊢
      simp only [List.append_assoc, List.cons_append, List.nil_append, List.length_append,
        List.length_cons] at hf ⊢
      have hrest := ih (by simp) (fun w hw => hr w (by simp [hw])) fuel (by omega)
      rw [scan_items]
      simp only [outcome_bind, hread _ fuel hv (stops_comma _) (by omega), ok_bind,
        skip_space_cons (c := ',') (by decide), after_self, after_other (c := ']') (d := ',')
        (by decide), (hst.joined _ _).skip_space, hrest]
      rfl

/-- The text of a member is the text of its key, a colon and the text of its value. -/
theorem memberText_ok {m : Str × Value} {mt : Text} (h : memberText m = .ok mt) :
    ∃ b vt, mt = '"' :: (b ++ ':' :: vt) ∧ encode m.2 = .ok vt ∧
      ∀ rest, scanstring (b ++ rest) = .ret (m.1, rest) := by
  obtain ⟨kt, hkt, h⟩ := bind_eq_ok.mp h
  obtain ⟨vt, hvt, h⟩ := bind_eq_ok.mp h
  cases h
  obtain ⟨b, rfl, _⟩ := scanstring_string_text hkt []
  refine ⟨b, vt, rfl, hvt, fun rest => ?_⟩
  obtain ⟨b', hb, hs⟩ := scanstring_string_text hkt rest
  cases hb
  exact hs

/-- The scanner reads a member and goes on with what comes after it. -/
theorem scan_members_turn {m : Str × Value} {mt : Text} (h : memberText m = .ok mt)
    (hr : Reads p f m.2) {rest : Text} (hs : Stops rest) {fuel : Nat} (hf : 3 * mt.length ≤ fuel) :
    outcome (scan_members (withNumbers p f) (fuel + 1) (mt ++ rest)) =
      outcome (match after ['}'] (skip_space rest) with
        | some rest => pure ([(m.1, m.2.normalize)], rest)
        | none =>
          match after [','] (skip_space rest) with
          | none => raise .json_decode_error
          | some rest => do
            let (pairs, rest) ← scan_members (withNumbers p f) fuel (skip_space rest)
            pure ((m.1, m.2.normalize) :: pairs, rest)) := by
  obtain ⟨b, vt, rfl, hvt, hkey⟩ := memberText_ok h
  simp only [List.length_cons, List.length_append] at hf
  have hread := hr vt rest fuel hvt hs (by omega)
  have hst := ((startsValue_encode hvt).append rest).skip_space
  have hret : ∀ a : Str × Text, (Prog.ret a : Py (Str × Text)) = pure a := fun _ => rfl
  simp only [List.cons_append, List.append_assoc]
  rw [scan_members]
  simp only [after_self, hkey, hret, outcome_bind, outcome_pure, ok_bind,
    skip_space_cons (c := ':') (by decide), hst]
  rw [hread]
  rfl

theorem scan_members_encode {members : List (Str × Value)} {ts : List Text} (hne : members ≠ [])
    (h : List.Forall₂ (fun m t => memberText m = .ok t) members ts)
    (hr : ∀ m ∈ members, Reads p f m.2) (rest : Text) (fuel : Nat)
    (hf : 3 * (List.intercalate [','] ts).length + 1 ≤ fuel) :
    outcome (scan_members (withNumbers p f) fuel (List.intercalate [','] ts ++ '}' :: rest)) =
      .ok (members.map fun m => (m.1, m.2.normalize), rest) := by
  induction h generalizing fuel with
  | nil => exact absurd rfl hne
  | @cons m t members ts hm hts ih =>
    obtain ⟨fuel, rfl⟩ : ∃ f, fuel = f + 1 := ⟨fuel - 1, by omega⟩
    have hread := hr m (by simp)
    cases hts with
    | nil =>
      simp only [List.intercalate_singleton] at hf ⊢
      rw [scan_members_turn hm hread (stops_brace _) (by omega)]
      simp only [skip_space_cons (c := '}') (by decide), after_self]
      rfl
    | @cons m' t' members' ts' hm' hts' =>
      obtain ⟨b, vt, hmt, _, _⟩ := memberText_ok hm'
      have hst : StartsValue t' := ⟨_, _, hmt, by decide, by decide, by decide, by decide⟩
      rw [List.intercalate_cons_cons] at hf ⊢
      simp only [List.append_assoc, List.cons_append, List.nil_append, List.length_append,
        List.length_cons] at hf ⊢
      have hrest := ih (by simp) (fun w hw => hr w (by simp [hw])) fuel (by omega)
      rw [scan_members_turn hm hread (stops_comma _) (by omega)]
      simp only [skip_space_cons (c := ',') (by decide), after_self,
        after_other (c := '}') (d := ',') (by decide), (hst.joined _ _).skip_space, outcome_bind,
        hrest]
      rfl

/-- The scanner reads every canonical text back. -/
theorem reads (hp : ReadsInts p) {v : Value} (hc : v.Canonical) : Reads p f v := by
  induction hc with
  | null =>
    intro t rest fuel h hs hf
    cases h
    obtain ⟨fuel, rfl⟩ : ∃ f, fuel = f + 1 := ⟨fuel - 1, by simp at hf; omega⟩
    simp [scan_once, scan_word, after]
  | bool b =>
    intro t rest fuel h hs hf
    obtain ⟨fuel, rfl⟩ : ∃ f, fuel = f + 1 := by
      cases b <;> cases h <;> exact ⟨fuel - 1, by simp at hf; omega⟩
    cases b <;> cases h <;> simp [scan_once, scan_word, after]
  | @int i hi =>
    intro t rest fuel h hs hf
    rw [encode, integer_text_of_safe hi] at h
    cases h
    have hpos := (startsValue_decimal i).length_pos
    obtain ⟨fuel, rfl⟩ : ∃ f, fuel = f + 1 := ⟨fuel - 1, by omega⟩
    rw [scan_once_decimal i hs]
    show outcome (p _ >>= fun v => pure (v, rest)) = _
    rw [outcome_bind, hp i hi]
    rfl
  | str hs =>
    intro t rest fuel h hst hf
    obtain ⟨body, rfl, hscan⟩ := scanstring_string_text h rest
    obtain ⟨fuel, rfl⟩ : ∃ f, fuel = f + 1 := ⟨fuel - 1, by simp at hf; omega⟩
    rw [List.cons_append, scan_once]
    simp only [if_true, hscan]
    rfl
  | @list items _ ih =>
    intro t rest fuel h hst hf
    rw [encode_list] at h
    obtain ⟨ts, hts, ht⟩ := bind_eq_ok.mp h
    have hall := mapM_eq_ok.mp hts
    cases ht
    simp only [List.length_cons, List.length_append, List.length_nil] at hf
    obtain ⟨fuel, rfl⟩ : ∃ f, fuel = f + 2 := ⟨fuel - 2, by omega⟩
    simp only [List.cons_append, List.append_assoc, List.nil_append]
    rw [scan_once]
    simp only [Char.reduceEq, if_false, if_true]
    cases hall with
    | nil =>
      rw [scan_array]
      simp only [List.intercalate_nil, List.nil_append, skip_space_cons (c := ']') (by decide),
        after_self]
      rfl
    | @cons v t' items' ts' hv hts' =>
      have hst := startsValue_encode hv
      have hscan := scan_items_encode (by simp) (.cons hv hts') ih rest fuel (by omega)
      rw [(hst.joined _ _).skip_space, scan_array, (hst.joined _ _).after_bracket]
      simp only [outcome_bind, hscan, ok_bind, Value.normalize_list]
      rfl
  | @dict members hd hk hv ih =>
    intro t rest fuel h hst hf
    rw [encode_dict] at h
    obtain ⟨ts, hts, ht⟩ := bind_eq_ok.mp h
    have hall := mapM_eq_ok.mp hts
    have hr : ∀ m ∈ sortByKey members, Reads p f m.2 := fun m hm => ih m (mem_sortByKey.mp hm)
    have hpairs : object_from_pairs ((sortByKey members).map fun m => (m.1, m.2.normalize)) =
        .ok (Value.dict members).normalize := by
      unfold object_from_pairs
      rw [if_pos (hd.sortByKey.map_snd _), Value.normalize_dict']
    have hhook : ∀ ps, (withNumbers p f).object_pairs_hook ps = lift (object_from_pairs ps) :=
      fun _ => rfl
    cases ht
    simp only [List.length_cons, List.length_append, List.length_nil] at hf
    obtain ⟨fuel, rfl⟩ : ∃ f, fuel = f + 2 := ⟨fuel - 2, by omega⟩
    simp only [List.cons_append, List.append_assoc, List.nil_append]
    rw [scan_once]
    simp only [Char.reduceEq, if_false, if_true]
    generalize sortByKey members = sorted at hall hr hpairs
    cases hall with
    | nil =>
      rw [scan_object]
      simp only [List.intercalate_nil, List.nil_append, skip_space_cons (c := '}') (by decide),
        after_self, outcome_bind, hhook, outcome_lift]
      rw [List.map_nil] at hpairs
      rw [hpairs]
      rfl
    | @cons m t' members' ts' hm hts' =>
      obtain ⟨b, vt, hmt, _, _⟩ := memberText_ok hm
      have hst : StartsValue t' := ⟨_, _, hmt, by decide, by decide, by decide, by decide⟩
      have hscan := scan_members_encode (by simp) (.cons hm hts') hr rest fuel (by omega)
      rw [(hst.joined _ _).skip_space, scan_object, (hst.joined _ _).after_brace]
      simp only [outcome_bind, hscan, ok_bind, hhook, outcome_lift, hpairs]
      rfl

/-- `json.loads` with hooks of the loader reads every canonical text back. -/
theorem loads_encode_with (hp : ReadsInts p) {v : Value} (hc : v.Canonical) {t : Text}
    (h : encode v = .ok t) : outcome (loads (withNumbers p f) t) = .ok v.normalize := by
  have hst := startsValue_encode h
  have hread := reads (f := f) hp hc t [] (fuelFor t) h stops_nil (by unfold fuelFor; omega)
  rw [List.append_nil] at hread
  have hbom : ∀ s, t ≠ '\uFEFF' :: s := by
    rintro s rfl
    obtain ⟨c, s', hcs, _, _, _, hlt⟩ := hst
    cases hcs
    revert hlt
    decide
  rw [loads_eq hbom, hst.skip_space]
  simp only [outcome_bind, hread, ok_bind]
  rfl

theorem loads_encode {v : Value} (hc : v.Canonical) {t : Text} (h : encode v = .ok t) :
    outcome (loads hooks t) = .ok v.normalize :=
  loads_encode_with (f := hooks.parse_float) readsInts_within_interval hc h

/-- A text that starts with an ASCII character has no byte-order mark, and its
bytes decode to it. -/
theorem decode_text {c : Char} (h : c.toNat ≤ 0x7f) (s : Text) :
    decode_utf8 (c :: s).utf8Encode = .ok (c :: s) := by
  have hsize : c.val.toNat ≤ 0x7f := h
  have hbytes : (c :: s).utf8Encode.data.toList =
      UInt8.ofNat c.val.toNat :: s.flatMap String.utf8EncodeChar := by
    rw [List.utf8Encode, List.toList_data_toByteArray, List.flatMap_cons, String.utf8EncodeChar,
      if_pos hsize]
    rfl
  unfold decode_utf8
  rw [hbytes, if_neg]
  · simp
  · rw [List.take_succ_cons]
    intro heq
    have hhead := congrArg UInt8.toNat (List.cons.inj heq).1
    rw [UInt8.toNat_ofNat_of_lt' (by simp [UInt8.size]; omega)] at hhead
    rw [hhead] at hsize
    exact absurd hsize (by decide)

theorem decode_encode {v : Value} {t : Text} (h : encode v = .ok t) :
    decode_utf8 t.utf8Encode = .ok t := by
  obtain ⟨c, s, rfl, _, _, _, hlt⟩ := startsValue_encode h
  exact decode_text (by omega) s

/-! ## Depth -/

/-- What the depth check raises. -/
def tooDeep : Exn := fail .source_too_deep "Source nests deeper than the declared maximum of 64."

/-- The depth check goes through the text, outside strings, when the text
opens at most this many more mappings and lists than are allowed. -/
def Opens (t : Text) (k : Nat) : Prop :=
  ∀ (rest : Text) (d : Nat), d ≤ 64 → depth_loop (t ++ rest) d false false =
    if d + k ≤ 64 then depth_loop rest d false false else .error tooDeep

theorem Opens.append {t u : Text} {k l : Nat} (ht : Opens t k) (hu : Opens u l) :
    Opens (t ++ u) (max k l) := by
  intro rest d hd
  rw [List.append_assoc, ht _ d hd]
  by_cases hk : d + k ≤ 64
  · rw [if_pos hk, hu rest d hd]
    by_cases hl : d + l ≤ 64
    · rw [if_pos hl, if_pos (by omega)]
    · rw [if_neg hl, if_neg (by omega)]
  · rw [if_neg hk, if_neg (by omega)]

theorem Opens.nil : Opens [] 0 := by
  intro rest d hd
  rw [if_pos (by omega)]
  rfl

/-- A character that the check does not act on. -/
def Inert (c : Char) : Prop := c ≠ '"' ∧ c ≠ '{' ∧ c ≠ '[' ∧ c ≠ '}' ∧ c ≠ ']'

theorem Opens.inert {t : Text} (h : ∀ c ∈ t, Inert c) : Opens t 0 := by
  induction t with
  | nil => exact .nil
  | cons c t ih =>
    intro rest d hd
    obtain ⟨h1, h2, h3, h4, h5⟩ := h c (by simp)
    rw [← ih (fun c hc => h c (by simp [hc])) rest d hd, List.cons_append, depth_loop]
    simp [h1, h2, h3, h4, h5]

theorem depth_loop_open {c : Char} (hc : c = '{' ∨ c = '[') (rest : Text) (d : Nat) :
    depth_loop (c :: rest) d false false =
      if d + 1 ≤ 64 then depth_loop rest (d + 1 : Nat) false false else .error tooDeep := by
  have hq : c ≠ '"' := by rcases hc with rfl | rfl <;> decide
  have hmax : (d : Int) + 1 > MAX_DEPTH ↔ ¬ d + 1 ≤ 64 := by
    unfold MAX_DEPTH
    omega
  rw [depth_loop]
  simp only [Bool.false_eq_true, if_false, hq, hc, if_true]
  by_cases hd : d + 1 ≤ 64
  · rw [if_neg (by rw [hmax]; simpa using hd), if_pos hd]
    rfl
  · rw [if_pos (hmax.mpr hd), if_neg hd]
    rfl

theorem depth_loop_close {c : Char} (hc : c = '}' ∨ c = ']') (rest : Text) (d : Nat) :
    depth_loop (c :: rest) (d + 1 : Nat) false false = depth_loop rest d false false := by
  have hq : c ≠ '"' := by rcases hc with rfl | rfl <;> decide
  have ho : ¬ (c = '{' ∨ c = '[') := by rcases hc with rfl | rfl <;> decide
  rw [depth_loop]
  simp only [Bool.false_eq_true, if_false, hq, hc, ho, if_true]
  congr 1
  omega

/-- A pair of brackets opens one more. -/
theorem Opens.bracket {a b : Char} (ha : a = '{' ∨ a = '[') (hb : b = '}' ∨ b = ']') {t : Text}
    {k : Nat} (h : Opens t k) : Opens (a :: (t ++ [b])) (k + 1) := by
  intro rest d hd
  simp only [List.cons_append, List.append_assoc, List.nil_append]
  rw [depth_loop_open ha]
  by_cases hd1 : d + 1 ≤ 64
  · rw [if_pos hd1, h _ (d + 1) hd1]
    by_cases hk : d + 1 + k ≤ 64
    · rw [if_pos hk, if_pos (by omega), depth_loop_close hb]
    · rw [if_neg hk, if_neg (by omega)]
  · rw [if_neg hd1, if_neg (by omega)]

theorem digitChar_plain : ∀ n < 16, Nat.digitChar n ≠ '"' ∧ Nat.digitChar n ≠ '\\' := by
  decide

/-- Inside a string the check only looks for its end. -/
theorem depth_loop_character {c : CodePoint} {t : Text} (h : character_text c = .ok t)
    (rest : Text) (d : Int) :
    depth_loop (t ++ rest) d true false = depth_loop rest d true false := by
  cases c with
  | surrogate n => cases h
  | scalar c =>
    simp only [character_text] at h
    split at h
    · rename_i escape he
      cases h
      unfold named_escapes at he
      split at he <;> cases he <;> simp [depth_loop]
    · rename_i hn
      split at h
      · rename_i hlt
        cases h
        have hplain : ∀ n, Nat.digitChar (n % 16) ≠ '"' ∧ Nat.digitChar (n % 16) ≠ '\\' :=
          fun n => digitChar_plain _ (Nat.mod_lt _ (by decide))
        simp [depth_loop, hex4, hplain]
      · cases h
        have hq : c ≠ '"' := by rintro rfl; simp [named_escapes] at hn
        have hb : c ≠ '\\' := by rintro rfl; simp [named_escapes] at hn
        simp [depth_loop, hq, hb]

theorem Opens.string {s : Str} {t : Text} (h : string_text s = .ok t) : Opens t 0 := by
  obtain ⟨pieces, hp, ht⟩ := bind_eq_ok.mp h
  have hf := mapM_eq_ok.mp hp
  cases ht
  intro rest d hd
  have hbody : depth_loop (pieces.flatten ++ '"' :: rest) d true false =
      depth_loop rest d false false := by
    clear h hp
    induction hf with
    | nil => simp [depth_loop]
    | @cons c t s ts hc _ ih =>
      rw [List.flatten_cons, List.append_assoc, depth_loop_character hc, ih]
  simp only [List.cons_append, List.append_assoc, List.nil_append, Nat.add_zero, hd, if_true]
  rw [depth_loop]
  simpa using hbody

theorem Opens.joined {α : Type} {depthOf : α → Nat} {items : List α} {ts : List Text}
    (h : List.Forall₂ (fun a t => Opens t (depthOf a)) items ts) :
    Opens (List.intercalate [','] ts) (items.foldr (fun a k => max (depthOf a) k) 0) := by
  induction h with
  | nil => exact .nil
  | @cons a t items ts ha hts ih =>
    cases hts with
    | nil => simpa using ha
    | cons hb hts =>
      have hcomma : Opens [','] 0 := .inert (by simp [Inert])
      rw [List.intercalate_cons_cons]
      have := (ha.append hcomma).append ih
      simpa using this

theorem inert_of_digit {c : Char} (h : c.isDigit = true) : Inert c := by
  refine ⟨?_, ?_, ?_, ?_, ?_⟩ <;> rintro rfl <;> cases h

theorem depthItems_eq_foldr (items : List Value) :
    Value.depthItems items = items.foldr (fun v k => max v.depth k) 0 := by
  induction items with
  | nil => rfl
  | cons v rest ih => rw [Value.depthItems, ih, List.foldr_cons]

theorem depthMembers_eq_foldr (members : List (Str × Value)) :
    Value.depthMembers members = members.foldr (fun m k => max m.2.depth k) 0 := by
  induction members with
  | nil => rfl
  | cons m rest ih => rw [Value.depthMembers, ih, List.foldr_cons]

theorem depthMembers_sortByKey (members : List (Str × Value)) :
    Value.depthMembers (sortByKey members) = Value.depthMembers members := by
  refine Nat.le_antisymm ?_ ?_
  · rw [Value.depthMembers_le]
    intro m hm
    exact Value.depthMembers_le.mp le_rfl m (mem_sortByKey.mp hm)
  · rw [Value.depthMembers_le]
    intro m hm
    exact Value.depthMembers_le.mp le_rfl m (mem_sortByKey.mpr hm)

/-- The text of a value opens as many mappings and lists as the value is deep. -/
theorem opens_encode {v : Value} {t : Text} (h : encode v = .ok t) : Opens t v.depth := by
  induction v generalizing t with
  | null => cases h; exact .inert (by simp [Inert])
  | bool b => cases b <;> cases h <;> exact .inert (by simp [Inert])
  | int i =>
    rw [encode, integer_text_of_safe (safe_of_integer_text h)] at h
    cases h
    refine .inert fun c hc => ?_
    cases i with
    | ofNat n => exact inert_of_digit (isDigit_toDigits c hc)
    | negSucc n =>
      rcases List.mem_cons.mp hc with rfl | hc
      · simp [Inert]
      · exact inert_of_digit (isDigit_toDigits c hc)
  | str s => exact .string h
  | list items ih =>
    rw [encode_list] at h
    obtain ⟨ts, hts, ht⟩ := bind_eq_ok.mp h
    have hall := (List.forall₂_and_left _ _).mpr ⟨fun v hv => @ih v hv, mapM_eq_ok.mp hts⟩
    cases ht
    rw [Value.depth, depthItems_eq_foldr]
    exact .bracket (Or.inr rfl) (Or.inr rfl) (.joined (hall.imp fun v t hvt => hvt.1 hvt.2))
  | dict members ih =>
    rw [encode_dict] at h
    obtain ⟨ts, hts, ht⟩ := bind_eq_ok.mp h
    have hall := (List.forall₂_and_left _ _).mpr
      ⟨fun m hm => @ih m (mem_sortByKey.mp hm), mapM_eq_ok.mp hts⟩
    cases ht
    rw [Value.depth, ← depthMembers_sortByKey, depthMembers_eq_foldr]
    refine .bracket (Or.inl rfl) (Or.inl rfl) (.joined (hall.imp fun m t hmt => ?_))
    obtain ⟨kt, hkt, h⟩ := bind_eq_ok.mp hmt.2
    obtain ⟨vt, hvt, h⟩ := bind_eq_ok.mp h
    cases h
    have hcolon : Opens [':'] 0 := .inert (by simp [Inert])
    simpa using (Opens.string hkt).append (hcolon.append (hmt.1 hvt))

theorem reject_excess_depth_encode {v : Value} {t : Text} (h : encode v = .ok t) :
    reject_excess_depth t = if v.depth ≤ 64 then .ok () else .error tooDeep := by
  have := opens_encode h [] 0 (by omega)
  simpa [reject_excess_depth, depth_loop] using this

/-! ## The round trip -/

/-- The loader reads canonical bytes back when the value is not too deep, and
says so when it is. -/
theorem load_canonical_bytes {v : Value} (hc : v.Canonical) {b : ByteArray}
    (h : canonical_bytes v = .ok b) :
    load_json_bytes b = if v.depth ≤ 64 then .ok v.normalize else .error tooDeep := by
  obtain ⟨t, ht, rfl⟩ := canonical_bytes_eq_ok.mp h
  obtain ⟨t', ht'⟩ := encode_of_canonical hc.normalize
  unfold load_json_bytes loading
  simp only [outcome_bind, outcome_lift, decode_encode ht, ok_bind,
    reject_excess_depth_encode ht]
  by_cases hd : v.depth ≤ 64
  · rw [if_pos hd, if_pos hd, outcome_mapThrow rfl, loads_encode hc ht]
    simp only [ok_bind, Except.mapError, canonicalize_eq_encode, ht', outcome_pure]
  · rw [if_neg hd, if_neg hd, error_bind]

/-- One canonical text belongs to one value, up to the order of members. -/
theorem same_of_canonicalize_eq {v w : Value} (hv : v.Canonical) (hw : w.Canonical)
    (h : canonicalize v = canonicalize w) : v.Same w := by
  obtain ⟨t, ht⟩ := encode_of_canonical hv
  rw [canonicalize_eq_encode, canonicalize_eq_encode, ht] at h
  have hrv := loads_encode hv ht
  rw [loads_encode hw h.symm] at hrv
  exact Value.same_of_normalize_eq (Except.ok.inj hrv).symm

theorem canonicalize_eq_of_same {v w : Value} (hv : v.Canonical) (hw : w.Canonical)
    (h : v.Same w) : canonicalize v = canonicalize w := by
  rw [canonicalize_eq_encode, canonicalize_eq_encode]
  exact encode_eq_of_normalize_eq hv.distinctKeys hw.distinctKeys (h.normalize_eq hv.distinctKeys)

/-- The text writes the members of a mapping in this order. -/
def Writes (t : Text) (members : List (Str × Value)) : Prop :=
  ∃ ts, List.Forall₂ (fun m mt => ∃ kt vt, string_text m.1 = .ok kt ∧
      canonicalize m.2 = .ok vt ∧ mt = kt ++ ':' :: vt) members ts ∧
    t = '{' :: (List.intercalate [','] ts ++ ['}'])

theorem writes_encode {members : List (Str × Value)} {t : Text}
    (h : encode (.dict members) = .ok t) : Writes t (sortByKey members) := by
  rw [encode_dict] at h
  obtain ⟨ts, hts, ht⟩ := bind_eq_ok.mp h
  cases ht
  refine ⟨ts, (mapM_eq_ok.mp hts).imp fun m mt hm => ?_, rfl⟩
  obtain ⟨kt, hkt, h⟩ := bind_eq_ok.mp hm
  obtain ⟨vt, hvt, h⟩ := bind_eq_ok.mp h
  cases h
  exact ⟨kt, vt, hkt, by rw [canonicalize_eq_encode, hvt], rfl⟩

/-- The canonical form is a bijection onto its texts. A canonical value has one
text; the loader reads it back, if the value is not too deep; what the loader
reads has that text again; the values with that text are the same but for the
order of members; and the members of a mapping stand in strictly rising order. -/
theorem canonical_form_is_a_bijection {v : Value} (hv : v.Canonical) :
    ∃ t b, canonicalize v = .ok t ∧ canonical_bytes v = .ok b ∧
      (v.depth ≤ 64 → ∃ w, load_json_bytes b = .ok w ∧ v.Same w) ∧
      (∀ w, load_json_bytes b = .ok w → canonical_bytes w = .ok b) ∧
      (∀ w : Value, w.Canonical → (canonicalize w = .ok t ↔ v.Same w)) ∧
      ∀ members, v = .dict members → ∃ sorted, sorted.Perm members ∧
        (sorted.Pairwise fun m n => m.1 < n.1) ∧ Writes t sorted := by
  obtain ⟨t, ht⟩ := encode_of_canonical hv
  have htext : canonicalize v = .ok t := by rw [canonicalize_eq_encode, ht]
  have hbytes : canonical_bytes v = .ok t.utf8Encode := canonical_bytes_eq_ok.mpr ⟨t, ht, rfl⟩
  have hload := load_canonical_bytes hv hbytes
  refine ⟨t, t.utf8Encode, htext, hbytes, ?_, ?_, ?_, ?_⟩
  · intro hd
    exact ⟨v.normalize, by rw [hload, if_pos hd], v.same_normalize⟩
  · intro w hw
    rw [hload] at hw
    split at hw
    · cases hw
      exact canonical_bytes_eq_ok.mpr ⟨t, by rw [encode_normalize hv.distinctKeys, ht], rfl⟩
    · cases hw
  · intro w hw
    constructor
    · intro hwt
      exact same_of_canonicalize_eq hv hw (htext.trans hwt.symm)
    · intro hs
      rw [← canonicalize_eq_of_same hv hw hs, htext]
  · rintro members rfl
    cases hv with
    | dict hd _ _ => exact ⟨_, sortByKey_perm _, sortByKey_strict hd, writes_encode ht⟩

/-- A mapping with its members out of order. -/
def unordered : Value := .dict [("b", .int 1), ("a", .list [.null])]

theorem canonical_unordered : unordered.Canonical := by
  refine .dict (by decide) ?_ ?_
  · simp [encodable_lit]
  · simp only [List.mem_cons, List.not_mem_nil, or_false, forall_eq_or_imp, forall_eq]
    exact ⟨.int (by decide), .list (by simp)⟩

theorem canonical_form_of_unordered :
    ∃ b w, canonical_bytes unordered = .ok b ∧ load_json_bytes b = .ok w ∧ unordered.Same w ∧
      canonical_bytes w = .ok b := by
  obtain ⟨t, b, _, hb, hload, hback, _⟩ := canonical_form_is_a_bijection canonical_unordered
  obtain ⟨w, hw, hs⟩ := hload (by decide)
  exact ⟨b, w, hb, hw, hs, hback w hw⟩

end vfy.load
