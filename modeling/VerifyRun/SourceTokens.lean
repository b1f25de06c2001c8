-- Where the source of a JSON text writes what the parser returns. Each value
-- stands in the text as a token: the parser reads the token as that value
-- whatever comes after it, so a token can be put in the place of another.
import VerifyRun.NestingBound

namespace vfy.load

open calls python json keys outcomes jsontext

/-! ## Hooks -/

/-- The hooks take no number but integers. -/
structure IntegersOnly (a : Hooks) : Prop where
  float : ∀ t v, outcome (a.parse_float t) ≠ .ok v
  constant : ∀ t v, outcome (a.parse_constant t) ≠ .ok v

/-- On the values `V`, and on all that they are made of, the second hooks do
what the first do. -/
structure Follows (a b : Hooks) (V : Value → Prop) : Prop where
  int : ∀ t v, outcome (a.parse_int t) = .ok v → V v → outcome (b.parse_int t) = .ok v
  pairs : ∀ ps v, outcome (a.object_pairs_hook ps) = .ok v → V v →
    outcome (b.object_pairs_hook ps) = .ok v ∧ ∀ m ∈ ps, V m.2
  list : ∀ vs : List Value, V (.list vs) → ∀ v ∈ vs, V v

/-! ## Tokens -/

/-- The scanner reads the token as this value, whatever comes after it. -/
def ReadAs (hooks : Hooks) (token : Text) (v : Value) : Prop :=
  ∀ rest fuel, Stops rest → 3 * token.length ≤ fuel →
    outcome (scan_once hooks fuel (token ++ rest)) = .ok (v, rest)

/-- The token that the hooks made this value of. -/
structure Token (a : Hooks) (token : Text) (v : Value) : Prop where
  starts : StartsValue token
  opens : ∃ k, Opens token k
  read : ∀ (b : Hooks) (V : Value → Prop), Follows a b V → V v → ReadAs b token v

theorem blank_iff {t : Text} : Blank t ↔ ∀ c ∈ t, isSpace c = true := by
  simp [Blank, isSpace]

theorem skip_space_blank {t : Text} (h : Blank t) (rest : Text) :
    skip_space (t ++ rest) = skip_space rest := by
  unfold skip_space
  rw [List.dropWhile_append_of_pos (blank_iff.mp h)]

/-- The space that is skipped, before what is left. -/
theorem skip_space_split (s : Text) : ∃ b, Blank b ∧ s = b ++ skip_space s :=
  ⟨s.takeWhile isSpace, blank_iff.mpr fun _ hc => List.mem_takeWhile_imp hc,
    List.takeWhile_append_dropWhile.symm⟩

theorem stops_blank {b : Text} (h : Blank b) {rest : Text} (hr : Stops rest) : Stops (b ++ rest) := by
  cases b with
  | nil => exact hr
  | cons c b =>
    refine stops_cons ?_
    rcases h c (by simp) with rfl | rfl | rfl | rfl <;> decide

/-! ## Strings and numbers -/

/-- The scanner reads the body of a string to its closing quote and no further. -/
theorem scanstring_token {s rest : Text} {name : Str} (h : outcome (scanstring s) = .ok (name, rest)) :
    ∃ body, s = body ++ rest ∧ ∀ rest', scanstring (body ++ rest') = .ret (name, rest') := by
  induction s using scanstring.induct generalizing name with
  | case1 => cases h
  | case2 tail =>
    cases h
    exact ⟨['"'], rfl, fun _ => rfl⟩
  | case3 a b c d tail n hn ih =>
    simp only [scanstring, hn, outcome_bind] at h
    obtain ⟨⟨s, tail'⟩, hs, h⟩ := bind_eq_ok.mp h
    cases h
    obtain ⟨body, rfl, hbody⟩ := ih hs
    refine ⟨'\\' :: 'u' :: a :: b :: c :: d :: body, rfl, fun rest' => ?_⟩
    simp only [List.cons_append, scanstring, hn, hbody]
    rfl
  | case4 a b c d tail hn =>
    simp only [scanstring, hn] at h
    cases h
  | case5 mark tail hnot c hc ih =>
    have hmark : mark ≠ 'u' := by
      rintro rfl
      cases hc
    rw [scanstring] at h
    · simp only [hc, outcome_bind] at h
      obtain ⟨⟨s, tail'⟩, hs, h⟩ := bind_eq_ok.mp h
      cases h
      obtain ⟨body, rfl, hbody⟩ := ih hs
      refine ⟨'\\' :: mark :: body, rfl, fun rest' => ?_⟩
      rw [List.cons_append, List.cons_append, scanstring]
      · simp only [hc, hbody]
        rfl
      · intro _ _ _ _ _ hu
        exact absurd hu hmark
    · exact hnot
  | case6 mark tail hnot hc =>
    rw [scanstring] at h
    · simp only [hc] at h
      cases h
    · exact hnot
  | case7 c tail h1 h2 h3 hlt =>
    rw [scanstring] at h
    · simp only [hlt, if_true] at h
      cases h
    all_goals assumption
  | case8 c tail h1 h2 h3 hlt ih =>
    rw [scanstring] at h
    · simp only [hlt, if_false, outcome_bind] at h
      obtain ⟨⟨s, tail'⟩, hs, h⟩ := bind_eq_ok.mp h
      cases h
      have hquote : c ≠ '"' := h1
      have hback : c ≠ '\\' := by
        rintro rfl
        cases tail with
        | nil => cases hs
        | cons mark tail => exact h3 mark tail rfl rfl
      obtain ⟨body, rfl, hbody⟩ := ih hs
      refine ⟨c :: body, rfl, fun rest' => ?_⟩
      rw [List.cons_append, scanstring]
      · simp only [hlt, if_false, hbody]
        rfl
      · exact hquote
      · intro _ _ _ _ _ hc
        exact absurd hc hback
      · intro _ _ hc
        exact absurd hc hback
    all_goals assumption

/-- A string in the source is not counted by the depth check. -/
theorem opens_string_token {body : Text} {name : Str}
    (h : ∀ rest, scanstring (body ++ rest) = .ret (name, rest)) : Opens ('"' :: body) 0 := by
  intro rest d hd
  have hpass := scanstring_passes (body ++ rest)
  rw [h rest] at hpass
  have hloop := hpass d
  rw [if_pos (by omega), ← hloop]
  simp [depth_loop]

/-- The digits of a number, as the scanner takes them from the text. -/
theorem takeDigits_eq {c : Char} (hc : c.isDigit = true) (s : Text) :
    ∃ ds, takeDigits (c :: s) = (c :: ds, s.dropWhile Char.isDigit) ∧
      c :: s = c :: ds ++ s.dropWhile Char.isDigit ∧ ∀ d ∈ c :: ds, d.isDigit = true := by
  refine ⟨s.takeWhile Char.isDigit, by simp [takeDigits, hc], ?_, ?_⟩
  · rw [List.cons_append, List.takeWhile_append_dropWhile]
  · intro d hd
    rcases List.mem_cons.mp hd with rfl | hd
    · exact hc
    · exact List.mem_takeWhile_imp hd

/-- How the token of an integer starts. -/
def StartsInteger (t : Text) : Prop :=
  ∃ c s, t = c :: s ∧ (c.isDigit = true ∨ c = '-' ∧ ∃ d s', s = d :: s' ∧ d.isDigit = true)

theorem startsValue_digit {c : Char} (h : c.isDigit = true) (s : Text) : StartsValue (c :: s) := by
  refine ⟨c, s, rfl, isSpace_of_digit h, ?_, ?_, ?_⟩
  · rintro rfl
    cases h
  · rintro rfl
    cases h
  · have hle : c.toNat ≤ 57 := (Char.isDigit_iff_toNat.mp h).2
    omega

theorem StartsInteger.startsValue {t : Text} (h : StartsInteger t) : StartsValue t := by
  obtain ⟨c, s, rfl, hc | ⟨rfl, _⟩⟩ := h
  · exact startsValue_digit hc s
  · exact ⟨'-', s, rfl, by decide, by decide, by decide, by decide⟩

theorem integerPart_token {s t rest : Text} (h : integerPart s = some (t, rest)) :
    s = t ++ rest ∧ StartsInteger t ∧ (∀ c ∈ t, Inert c) ∧
      ∀ rest', Stops rest' → integerPart (t ++ rest') = some (t, rest') := by
  have hminus : Inert '-' := by simp [Inert]
  have hzero : Inert '0' := inert_of_digit (by decide)
  unfold integerPart at h
  split at h
  · cases h
    exact ⟨rfl, ⟨'-', _, rfl, Or.inr ⟨rfl, _, _, rfl, by decide⟩⟩, by simp [hminus, hzero],
      fun _ _ => rfl⟩
  · rename_i c s hc0
    split at h
    · rename_i hc
      obtain ⟨ds, hsplit, heq, hdigits⟩ := takeDigits_eq hc s
      rw [hsplit] at h
      cases h
      refine ⟨by rw [heq]; rfl, ⟨'-', _, rfl, Or.inr ⟨rfl, _, _, rfl, hc⟩⟩, ?_, fun rest' hr => ?_⟩
      · intro d hd
        rcases List.mem_cons.mp hd with rfl | hd
        · exact hminus
        · exact inert_of_digit (hdigits d hd)
      · have hne : c ≠ '0' := by
          rintro rfl
          exact hc0 rfl
        have htake := takeDigits_append hdigits hr
        simp only [List.cons_append] at htake ⊢
        rw [integerPart_minus hc hne, htake]
    · cases h
  · cases h
    exact ⟨rfl, ⟨'0', _, rfl, Or.inl (by decide)⟩, by simp [hzero], fun _ _ => rfl⟩
  · rename_i c s _ _ hc0
    split at h
    · rename_i hc
      obtain ⟨ds, hsplit, heq, hdigits⟩ := takeDigits_eq hc s
      rw [hsplit] at h
      cases h
      refine ⟨heq, ⟨c, _, rfl, Or.inl hc⟩, fun d hd => inert_of_digit (hdigits d hd),
        fun rest' hr => ?_⟩
      have hne : c ≠ '0' := by
        rintro rfl
        exact hc0 rfl
      have htake := takeDigits_append hdigits hr
      simp only [List.cons_append] at htake ⊢
      rw [integerPart_digit hc hne, htake]
    · cases h
  · cases h

theorem scan_once_integer (hooks : Hooks) {t : Text} (h : StartsInteger t) (rest : Text) (fuel : Nat) :
    scan_once hooks (fuel + 1) (t ++ rest) = scan_number hooks (t ++ rest) := by
  have hne : ∀ c d : Char, c.isDigit = true → d.isDigit = false → c ≠ d := by
    rintro c d hc hd rfl
    rw [hc] at hd
    cases hd
  obtain ⟨c, s, rfl, hc | ⟨rfl, d, s', rfl, hd⟩⟩ := h
  · have hne : ∀ d : Char, d.isDigit = false → c ≠ d := fun d hd => hne c d hc hd
    simp [scan_once, after, hne, (hne '-' rfl).symm]
  · have hI : 'I' ≠ d := (hne d 'I' hd rfl).symm
    simp [scan_once, after, hI]

/-- The scanner of hooks that take no float reads an integer. -/
theorem scan_number_token {a : Hooks} (ha : IntegersOnly a) {s rest : Text} {v : Value}
    (h : outcome (scan_number a s) = .ok (v, rest)) : ∃ t, s = t ++ rest ∧ Token a t v := by
  unfold scan_number at h
  split at h
  · cases h
  rename_i t tail ht
  obtain ⟨rfl, hstarts, hinert, hlocal⟩ := integerPart_token ht
  simp only at h
  split at h
  · rename_i hnone
    have hfraction : (fractionPart tail).2 = tail := by
      have hfirst := hnone.1
      unfold fractionPart at hfirst ⊢
      split at hfirst
      · split at hfirst
        · cases hfirst
        · simp [*]
      · rfl
    have hexponent : (exponentPart (fractionPart tail).2).2 = tail := by
      have hsecond := hnone.2
      rw [hfraction] at hsecond ⊢
      unfold exponentPart at hsecond ⊢
      split at hsecond
      · split at hsecond
        · simp only at hsecond ⊢
          split at hsecond
          · simp [*]
          · cases hsecond
        · simp [*]
      · rfl
    rw [outcome_bind] at h
    obtain ⟨w, hw, h⟩ := bind_eq_ok.mp h
    cases h
    rw [hexponent]
    have hvalue := hstarts.startsValue
    refine ⟨_, rfl, hvalue, ⟨0, .inert hinert⟩, fun b V hb hV rest' fuel hr hf => ?_⟩
    · have hpos := hvalue.length_pos
      obtain ⟨fuel, rfl⟩ : ∃ f, fuel = f + 1 := ⟨fuel - 1, by omega⟩
      rw [scan_once_integer b hstarts]
      unfold scan_number
      rw [hlocal rest' hr]
      simp only [fractionPart_stops hr, exponentPart_stops hr, and_self, if_true, outcome_bind,
        hb.int _ _ hw hV, ok_bind, outcome_pure]
  · rw [outcome_bind] at h
    obtain ⟨w, hw, _⟩ := bind_eq_ok.mp h
    exact absurd hw (ha.float _ _)

/-! ## Slots -/

/-- The place of a value among the members of an object or the items of an
array: the token, and what stands before and after it. -/
structure Slot where
  left : Text
  token : Text
  right : Text

def Slot.source (slot : Slot) : Text := slot.left ++ (slot.token ++ slot.right)

/-- The slots, joined by commas. -/
def joined (slots : List Slot) : Text := List.intercalate [','] (slots.map Slot.source)

@[simp] theorem joined_singleton (slot : Slot) : joined [slot] = slot.source := by
  simp [joined]

@[simp] theorem joined_cons (slot next : Slot) (slots : List Slot) :
    joined (slot :: next :: slots) = slot.source ++ ',' :: joined (next :: slots) := by
  simp [joined, List.intercalate_cons_cons]

/-- The text before the value of a member: its name and the colon, with the
space around them. -/
def Names (left : Text) (name : Str) : Prop :=
  ∃ before body between behind, Blank before ∧ Blank between ∧ Blank behind ∧
    left = before ++ '"' :: (body ++ (between ++ ':' :: behind)) ∧
    ∀ rest, scanstring (body ++ rest) = .ret (name, rest)

/-- The slot holds this item, as far as `Good` says. -/
structure Slot.Item (Good : Text → Value → Prop) (slot : Slot) (v : Value) : Prop where
  left : Blank slot.left
  right : Blank slot.right
  starts : StartsValue slot.token
  token : Good slot.token v

/-- The slot holds this member, as far as `Good` says. -/
structure Slot.Member (Good : Text → Value → Prop) (slot : Slot) (m : Str × Value) : Prop where
  left : Names slot.left m.1
  right : Blank slot.right
  starts : StartsValue slot.token
  token : Good slot.token m.2

theorem Slot.Item.imp {Good Better : Text → Value → Prop} {slot : Slot} {v : Value}
    (h : slot.Item Good v) (hi : Good slot.token v → Better slot.token v) : slot.Item Better v :=
  ⟨h.left, h.right, h.starts, hi h.token⟩

theorem Slot.Member.imp {Good Better : Text → Value → Prop} {slot : Slot} {m : Str × Value}
    (h : slot.Member Good m) (hi : Good slot.token m.2 → Better slot.token m.2) :
    slot.Member Better m :=
  ⟨h.left, h.right, h.starts, hi h.token⟩

section

variable {hooks : Hooks}

/-- The scanner reads the items that the slots hold. -/
theorem scan_items_joined {slots : List Slot} {vs : List Value} (hne : slots ≠ [])
    (h : List.Forall₂ (Slot.Item (ReadAs hooks)) slots vs) (rest : Text) (fuel : Nat)
    (hf : 3 * (joined slots).length + 1 ≤ fuel) :
    outcome (scan_items hooks fuel (skip_space (joined slots ++ ']' :: rest))) =
      .ok (vs, rest) := by
  induction h generalizing fuel with
  | nil => exact absurd rfl hne
  | @cons slot v slots vs hslot hslots ih =>
    obtain ⟨fuel, rfl⟩ : ∃ f, fuel = f + 1 := ⟨fuel - 1, by omega⟩
    have hread := hslot.token
    cases hslots with
    | nil =>
      simp only [joined_singleton, Slot.source, List.append_assoc, List.length_append] at hf ⊢
      rw [skip_space_blank hslot.left, (hslot.starts.append _).skip_space, scan_items, outcome_bind,
        hread _ fuel (stops_blank hslot.right (stops_bracket _)) (by omega), ok_bind]
      simp only [skip_space_blank hslot.right, skip_space_cons (c := ']') (by decide), after_self]
      rfl
    | @cons next v' slots' vs' hnext hslots' =>
      simp only [joined_cons, Slot.source, List.append_assoc, List.cons_append, List.length_append,
        List.length_cons] at hf ⊢
      have hrest := ih (by simp) fuel (by omega)
      rw [skip_space_blank hslot.left, (hslot.starts.append _).skip_space, scan_items, outcome_bind,
        hread _ fuel (stops_blank hslot.right (stops_comma _)) (by omega), ok_bind]
      simp only [skip_space_blank hslot.right, skip_space_cons (c := ',') (by decide), after_self,
        after_other (c := ']') (d := ',') (by decide), outcome_bind, hrest]
      rfl

/-- The scanner reads one member that a slot holds, and goes on behind it. -/
theorem scan_member_slot {slot : Slot} {m : Str × Value} (h : slot.Member (ReadAs hooks) m)
    {rest : Text} (hs : Stops rest) {fuel : Nat} (hf : 3 * slot.token.length ≤ fuel) :
    outcome (scan_members hooks (fuel + 1) (skip_space (slot.source ++ rest))) =
      outcome (match after ['}'] (skip_space rest) with
        | some rest => pure ([m], rest)
        | none =>
          match after [','] (skip_space rest) with
          | none => raise .json_decode_error
          | some rest => do
            let (pairs, rest) ← scan_members hooks fuel (skip_space rest)
            pure (m :: pairs, rest)) := by
  obtain ⟨before, body, between, behind, hbefore, hbetween, hbehind, hleft, hname⟩ := h.left
  have hread := h.token _ fuel (stops_blank h.right hs) hf
  have hret : ∀ a : Str × Text, (Prog.ret a : Py (Str × Text)) = pure a := fun _ => rfl
  simp only [Slot.source, hleft, List.append_assoc, List.cons_append]
  rw [skip_space_blank hbefore, skip_space_cons (c := '"') (by decide), scan_members]
  simp only [after_self, hname, hret, outcome_bind, outcome_pure, ok_bind,
    skip_space_blank hbetween, skip_space_cons (c := ':') (by decide), skip_space_blank hbehind,
    (h.starts.append _).skip_space]
  rw [hread, ← skip_space_blank h.right]
  rfl

/-- The scanner reads the members that the slots hold. -/
theorem scan_members_joined {slots : List Slot} {members : List (Str × Value)} (hne : slots ≠ [])
    (h : List.Forall₂ (Slot.Member (ReadAs hooks)) slots members) (rest : Text) (fuel : Nat)
    (hf : 3 * (joined slots).length + 1 ≤ fuel) :
    outcome (scan_members hooks fuel (skip_space (joined slots ++ '}' :: rest))) =
      .ok (members, rest) := by
  induction h generalizing fuel with
  | nil => exact absurd rfl hne
  | @cons slot m slots members hslot hslots ih =>
    obtain ⟨fuel, rfl⟩ : ∃ f, fuel = f + 1 := ⟨fuel - 1, by omega⟩
    have hlength : slot.token.length ≤ slot.source.length := by
      simp only [Slot.source, List.length_append]
      omega
    cases hslots with
    | nil =>
      simp only [joined_singleton] at hf ⊢
      rw [scan_member_slot hslot (stops_brace _) (by omega)]
      simp only [skip_space_cons (c := '}') (by decide), after_self]
      rfl
    | @cons next m' slots' members' hnext hslots' =>
      simp only [joined_cons, List.append_assoc, List.cons_append, List.length_append,
        List.length_cons] at hf ⊢
      have hrest := ih (by simp) fuel (by omega)
      rw [scan_member_slot hslot (stops_comma _) (by omega)]
      simp only [skip_space_cons (c := ',') (by decide), after_self,
        after_other (c := '}') (d := ',') (by decide), outcome_bind, hrest]
      rfl

theorem startsValue_joined {slots : List Slot} {vs : List Value} {Good : Text → Value → Prop}
    (hne : slots ≠ []) (h : List.Forall₂ (Slot.Item Good) slots vs) (rest : Text) :
    StartsValue (skip_space (joined slots ++ rest)) := by
  cases h with
  | nil => exact absurd rfl hne
  | @cons slot v slots vs hslot hslots =>
    cases slots with
    | nil =>
      simp only [joined_singleton, Slot.source, List.append_assoc]
      rw [skip_space_blank hslot.left, (hslot.starts.append _).skip_space]
      exact hslot.starts.append _
    | cons next slots =>
      simp only [joined_cons, Slot.source, List.append_assoc]
      rw [skip_space_blank hslot.left, (hslot.starts.append _).skip_space]
      exact hslot.starts.append _

theorem starts_members {slots : List Slot} {members : List (Str × Value)}
    {Good : Text → Value → Prop} (hne : slots ≠ [])
    (h : List.Forall₂ (Slot.Member Good) slots members) (rest : Text) :
    after ['}'] (skip_space (joined slots ++ rest)) = none := by
  have hfirst : ∀ slot m, Slot.Member Good slot m → ∀ rest,
      after ['}'] (skip_space (slot.source ++ rest)) = none := by
    intro slot m hslot rest
    obtain ⟨before, body, between, behind, hbefore, _, _, hleft, _⟩ := hslot.left
    simp only [Slot.source, hleft, List.append_assoc, List.cons_append]
    rw [skip_space_blank hbefore, skip_space_cons (c := '"') (by decide), after_other (by decide)]
  cases h with
  | nil => exact absurd rfl hne
  | @cons slot m slots members hslot hslots =>
    cases slots with
    | nil =>
      rw [joined_singleton]
      exact hfirst slot m hslot rest
    | cons next slots =>
      rw [joined_cons, List.append_assoc]
      exact hfirst slot m hslot _

/-- The scanner reads an array whose slots hold the items. -/
theorem array_read {space : Text} (hspace : Blank space) {slots : List Slot} {vs : List Value}
    (h : List.Forall₂ (Slot.Item (ReadAs hooks)) slots vs) :
    ReadAs hooks ('[' :: (space ++ (joined slots ++ [']']))) (.list vs) := by
  intro rest fuel _ hf
  simp only [List.length_cons, List.length_append, List.length_nil] at hf
  obtain ⟨fuel, rfl⟩ : ∃ f, fuel = f + 2 := ⟨fuel - 2, by omega⟩
  simp only [List.cons_append, List.append_assoc, List.nil_append]
  rw [scan_once]
  simp only [Char.reduceEq, if_false, if_true]
  rw [skip_space_blank hspace, scan_array]
  by_cases hne : slots = []
  · subst hne
    cases h
    simp only [joined, List.map_nil, List.intercalate_nil, List.nil_append,
      skip_space_cons (c := ']') (by decide), after_self]
    rfl
  · have hscan := scan_items_joined hne h rest fuel (by omega)
    rw [(startsValue_joined hne h _).after_bracket]
    simp only [outcome_bind, hscan, ok_bind]
    rfl

/-- The scanner reads an object whose slots hold the members. -/
theorem object_read {space : Text} (hspace : Blank space) {slots : List Slot}
    {members : List (Str × Value)} (h : List.Forall₂ (Slot.Member (ReadAs hooks)) slots members)
    {v : Value} (hv : outcome (hooks.object_pairs_hook members) = .ok v) :
    ReadAs hooks ('{' :: (space ++ (joined slots ++ ['}']))) v := by
  intro rest fuel _ hf
  simp only [List.length_cons, List.length_append, List.length_nil] at hf
  obtain ⟨fuel, rfl⟩ : ∃ f, fuel = f + 2 := ⟨fuel - 2, by omega⟩
  simp only [List.cons_append, List.append_assoc, List.nil_append]
  rw [scan_once]
  simp only [Char.reduceEq, if_false, if_true]
  rw [skip_space_blank hspace, scan_object]
  by_cases hne : slots = []
  · subst hne
    cases h
    simp only [joined, List.map_nil, List.intercalate_nil, List.nil_append,
      skip_space_cons (c := '}') (by decide), after_self, outcome_bind, hv, ok_bind]
    rfl
  · have hscan := scan_members_joined hne h rest fuel (by omega)
    rw [starts_members hne h]
    simp only [outcome_bind, hscan, ok_bind, hv]
    rfl

end

/-! ## The depth of slots -/

theorem opens_names {left : Text} {name : Str} (h : Names left name) : Opens left 0 := by
  obtain ⟨before, body, between, behind, hbefore, hbetween, hbehind, rfl, hname⟩ := h
  have hcolon : Opens [':'] 0 := .inert (by simp [Inert])
  have hrest := (opens_blank hbetween).append (hcolon.append (opens_blank hbehind))
  simpa using (opens_blank hbefore).append ((opens_string_token hname).append hrest)

theorem opens_source {slot : Slot} (hleft : Opens slot.left 0) (hright : Blank slot.right)
    (htoken : ∃ k, Opens slot.token k) : ∃ k, Opens slot.source k := by
  obtain ⟨k, hk⟩ := htoken
  exact ⟨_, hleft.append (hk.append (opens_blank hright))⟩

/-- The second text opens no more than the first. -/
def Lighter (t t' : Text) : Prop := ∃ k k', k' ≤ k ∧ Opens t k ∧ Opens t' k'

theorem Lighter.of_opens {t : Text} {k : Nat} (h : Opens t k) : Lighter t t :=
  ⟨k, k, le_rfl, h, h⟩

theorem Lighter.append {t t' u u' : Text} (ht : Lighter t t') (hu : Lighter u u') :
    Lighter (t ++ u) (t' ++ u') := by
  obtain ⟨k, k', hk, htk, htk'⟩ := ht
  obtain ⟨l, l', hl, hul, hul'⟩ := hu
  exact ⟨_, _, max_le_max hk hl, htk.append hul, htk'.append hul'⟩

theorem Lighter.joined {slots slots' : List Slot}
    (h : List.Forall₂ (fun slot slot' => Lighter slot.source slot'.source) slots slots') :
    Lighter (joined slots) (joined slots') := by
  induction h with
  | nil => exact .of_opens .nil
  | @cons slot slot' slots slots' hslot hslots ih =>
    cases hslots with
    | nil => simpa using hslot
    | cons _ _ =>
      have hcomma : Opens [','] 0 := .inert (by simp [Inert])
      simpa using hslot.append ((Lighter.of_opens hcomma).append ih)

theorem opens_joined {α : Type} {R : Slot → α → Prop} {slots : List Slot} {vs : List α}
    (h : List.Forall₂ R slots vs) (hR : ∀ slot v, R slot v → ∃ k, Opens slot.source k) :
    ∃ k, Opens (joined slots) k := by
  have hsame : List.Forall₂ (fun slot slot' => Lighter slot.source slot'.source) slots slots := by
    induction h with
    | nil => exact .nil
    | @cons slot v slots vs hslot _ ih =>
      obtain ⟨k, hk⟩ := hR slot v hslot
      exact .cons (.of_opens hk) ih
  obtain ⟨k, _, _, hk, _⟩ := Lighter.joined hsame
  exact ⟨k, hk⟩

/-! ## What the scanner reads is made of tokens -/

/-- Of slots that hold what is in a list, more can be said where it is said of
everything in the list. -/
theorem forall₂_of_mem {α β : Type} {R S : α → β → Prop} {xs : List α} {ys : List β}
    (h : List.Forall₂ R xs ys) (hS : ∀ x, ∀ y ∈ ys, R x y → S x y) : List.Forall₂ S xs ys := by
  induction h with
  | nil => exact .nil
  | @cons x y xs ys hxy _ ih =>
    exact .cons (hS x y (by simp) hxy) (ih fun x y hy => hS x y (by simp [hy]))

section

variable {a : Hooks}

theorem Token.array {space : Text} (hspace : Blank space) {slots : List Slot} {vs : List Value}
    (h : List.Forall₂ (Slot.Item (Token a)) slots vs) :
    Token a ('[' :: (space ++ (joined slots ++ [']']))) (.list vs) where
  starts := ⟨_, _, rfl, by decide, by decide, by decide, by decide⟩
  opens := by
    obtain ⟨k, hk⟩ := opens_joined h fun slot v hv =>
      opens_source (opens_blank hv.left) hv.right hv.token.opens
    exact ⟨_, by simpa using ((opens_blank hspace).append hk).bracket (Or.inr rfl) (Or.inr rfl)⟩
  read := by
    intro b V hb hV
    refine array_read hspace (forall₂_of_mem h fun slot v hv hslot => ?_)
    exact hslot.imp fun htoken => htoken.read b V hb (hb.list vs hV v hv)

theorem Token.object {space : Text} (hspace : Blank space) {slots : List Slot}
    {members : List (Str × Value)} (h : List.Forall₂ (Slot.Member (Token a)) slots members)
    {v : Value} (hv : outcome (a.object_pairs_hook members) = .ok v) :
    Token a ('{' :: (space ++ (joined slots ++ ['}']))) v where
  starts := ⟨_, _, rfl, by decide, by decide, by decide, by decide⟩
  opens := by
    obtain ⟨k, hk⟩ := opens_joined h fun slot v hv =>
      opens_source (opens_names hv.left) hv.right hv.token.opens
    exact ⟨_, by simpa using ((opens_blank hspace).append hk).bracket (Or.inl rfl) (Or.inl rfl)⟩
  read := by
    intro b V hb hV
    obtain ⟨hpairs, hmembers⟩ := hb.pairs members v hv hV
    refine object_read hspace (forall₂_of_mem h fun slot m hm hslot => ?_) hpairs
    exact hslot.imp fun htoken => htoken.read b V hb (hmembers m hm)

/-- A word of the scanner is a token. -/
theorem Token.word {word : Text} {v : Value} (hstarts : StartsValue word)
    (hinert : ∀ c ∈ word, Inert c)
    (hread : ∀ (b : Hooks) rest fuel,
      outcome (scan_once b (fuel + 1) (word ++ rest)) = .ok (v, rest)) :
    Token a word v where
  starts := hstarts
  opens := ⟨0, .inert hinert⟩
  read := by
    intro b V _ _ rest fuel _ hf
    have hpos := hstarts.length_pos
    obtain ⟨fuel, rfl⟩ : ∃ f, fuel = f + 1 := ⟨fuel - 1, by omega⟩
    exact hread b rest fuel

theorem Token.string {body : Text} {name : Str}
    (h : ∀ rest, scanstring (body ++ rest) = .ret (name, rest)) : Token a ('"' :: body) (.str name) where
  starts := ⟨_, _, rfl, by decide, by decide, by decide, by decide⟩
  opens := ⟨0, opens_string_token h⟩
  read := by
    intro b V _ _ rest fuel _ hf
    obtain ⟨fuel, rfl⟩ : ∃ f, fuel = f + 1 := ⟨fuel - 1, by simp at hf; omega⟩
    rw [List.cons_append, scan_once]
    simp only [if_true, h]
    rfl

theorem scan_word_ok {word s rest : Text} {value : Py Value} {v : Value}
    (h : outcome (scan_word word s value) = .ok (v, rest)) :
    s = word ++ rest ∧ outcome value = .ok v := by
  unfold scan_word at h
  split at h
  · rename_i tail hafter
    rw [outcome_bind] at h
    obtain ⟨w, hw, h⟩ := bind_eq_ok.mp h
    cases h
    exact ⟨after_eq hafter, hw⟩
  · cases h

/-- One turn of fuel of the scanner, with hooks that take no float: what it
reads is made of tokens. -/
theorem scan_tokens (ha : IntegersOnly a) (fuel : Nat) :
    (∀ s v rest, outcome (scan_once a fuel s) = .ok (v, rest) →
      ∃ t, s = t ++ rest ∧ Token a t v) ∧
    (∀ s v rest, outcome (scan_object a fuel (skip_space s)) = .ok (v, rest) →
      ∃ space slots members, Blank space ∧ s = space ++ (joined slots ++ '}' :: rest) ∧
        List.Forall₂ (Slot.Member (Token a)) slots members ∧
        outcome (a.object_pairs_hook members) = .ok v) ∧
    (∀ before s members rest, Blank before → outcome (scan_members a fuel s) = .ok (members, rest) →
      ∃ slots, slots ≠ [] ∧ before ++ s = joined slots ++ '}' :: rest ∧
        List.Forall₂ (Slot.Member (Token a)) slots members) ∧
    (∀ s v rest, outcome (scan_array a fuel (skip_space s)) = .ok (v, rest) →
      ∃ space slots vs, Blank space ∧ s = space ++ (joined slots ++ ']' :: rest) ∧
        List.Forall₂ (Slot.Item (Token a)) slots vs ∧ v = .list vs) ∧
    (∀ before s vs rest, Blank before → outcome (scan_items a fuel s) = .ok (vs, rest) →
      ∃ slots, slots ≠ [] ∧ before ++ s = joined slots ++ ']' :: rest ∧
        List.Forall₂ (Slot.Item (Token a)) slots vs) := by
  induction fuel with
  | zero =>
    refine ⟨?_, ?_, ?_, ?_, ?_⟩
    · intro s v rest h
      cases h
    · intro s v rest h
      cases h
    · intro before s members rest _ h
      cases h
    · intro s v rest h
      cases h
    · intro before s vs rest _ h
      rw [scan_items] at h
      cases h
  | succ fuel ih =>
    obtain ⟨ihOnce, ihObject, ihMembers, ihArray, ihItems⟩ := ih
    refine ⟨?_, ?_, ?_, ?_, ?_⟩
    · intro s v rest h
      cases s with
      | nil => cases h
      | cons c tail =>
        rw [scan_once] at h
        split at h
        · rename_i hc
          subst hc
          rw [outcome_bind] at h
          obtain ⟨⟨name, tail'⟩, hname, h⟩ := bind_eq_ok.mp h
          cases h
          obtain ⟨body, rfl, hbody⟩ := scanstring_token hname
          exact ⟨'"' :: body, rfl, .string hbody⟩
        split at h
        · rename_i hc
          subst hc
          obtain ⟨space, slots, members, hspace, rfl, hslots, hv⟩ := ihObject _ _ _ h
          exact ⟨_, by simp, .object hspace hslots hv⟩
        split at h
        · rename_i hc
          subst hc
          obtain ⟨space, slots, vs, hspace, rfl, hslots, rfl⟩ := ihArray _ _ _ h
          exact ⟨_, by simp, .array hspace hslots⟩
        split at h
        · rename_i hc
          subst hc
          obtain ⟨rfl, hv⟩ := scan_word_ok h
          cases hv
          exact ⟨['n', 'u', 'l', 'l'], rfl, .word ⟨_, _, rfl, by decide⟩ (by simp [Inert])
            fun b rest fuel => by simp [scan_once, scan_word, after]⟩
        split at h
        · rename_i hc
          subst hc
          obtain ⟨rfl, hv⟩ := scan_word_ok h
          cases hv
          exact ⟨['t', 'r', 'u', 'e'], rfl, .word ⟨_, _, rfl, by decide⟩ (by simp [Inert])
            fun b rest fuel => by simp [scan_once, scan_word, after]⟩
        split at h
        · rename_i hc
          subst hc
          obtain ⟨rfl, hv⟩ := scan_word_ok h
          cases hv
          exact ⟨['f', 'a', 'l', 's', 'e'], rfl, .word ⟨_, _, rfl, by decide⟩ (by simp [Inert])
            fun b rest fuel => by simp [scan_once, scan_word, after]⟩
        split at h
        · exact absurd (scan_word_ok h).2 (ha.constant _ _)
        split at h
        · exact absurd (scan_word_ok h).2 (ha.constant _ _)
        split at h
        · rw [outcome_bind] at h
          obtain ⟨w, hw, _⟩ := bind_eq_ok.mp h
          exact absurd hw (ha.constant _ _)
        · exact scan_number_token ha h
    · intro s v rest h
      rw [scan_object] at h
      split at h
      · rename_i tail hafter
        rw [outcome_bind] at h
        obtain ⟨w, hw, h⟩ := bind_eq_ok.mp h
        cases h
        obtain ⟨space, hspace, hs⟩ := skip_space_split s
        refine ⟨space, [], [], hspace, ?_, .nil, hw⟩
        rw [hs, after_eq hafter]
        rfl
      · rw [outcome_bind] at h
        obtain ⟨⟨members, tail⟩, hmembers, h⟩ := bind_eq_ok.mp h
        rw [outcome_bind] at h
        obtain ⟨w, hw, h⟩ := bind_eq_ok.mp h
        cases h
        obtain ⟨space, hspace, hs⟩ := skip_space_split s
        obtain ⟨slots, _, heq, hslots⟩ := ihMembers space _ _ _ hspace hmembers
        refine ⟨[], slots, members, by simp [Blank], ?_, hslots, hw⟩
        rw [List.nil_append, ← heq]
        exact hs
    · intro before s members rest hbefore h
      rw [scan_members] at h
      split at h
      · cases h
      rename_i tail hquote
      rw [outcome_bind] at h
      obtain ⟨⟨name, tail1⟩, hname, h⟩ := bind_eq_ok.mp h
      obtain ⟨body, htail, hbody⟩ := scanstring_token hname
      simp only at h
      split at h
      · cases h
      rename_i tail2 hcolon
      rw [outcome_bind] at h
      obtain ⟨⟨v, tail3⟩, hv, h⟩ := bind_eq_ok.mp h
      obtain ⟨token, htail2, htoken⟩ := ihOnce _ _ _ hv
      obtain ⟨between, hbetween, htail1⟩ := skip_space_split tail1
      obtain ⟨behind, hbehind, hskip2⟩ := skip_space_split tail2
      obtain ⟨right, hright, htail3⟩ := skip_space_split tail3
      -- the slot of this member, with the space that was skipped before it
      let slot : Slot := ⟨before ++ '"' :: (body ++ (between ++ ':' :: behind)), token, right⟩
      have hslot : slot.Member (Token a) (name, v) :=
        ⟨⟨before, body, between, behind, hbefore, hbetween, hbehind, rfl, hbody⟩, hright,
          htoken.starts, htoken⟩
      have hsource : before ++ s = slot.source ++ skip_space tail3 := by
        rw [after_eq hquote, htail, htail1, after_eq hcolon, hskip2, htail2]
        conv_lhs => rw [htail3]
        simp [slot, Slot.source]
      simp only at h
      split at h
      · rename_i tail4 hclose
        cases h
        refine ⟨[slot], by simp, ?_, .cons hslot .nil⟩
        rw [hsource, after_eq hclose, joined_singleton]
        rfl
      split at h
      · cases h
      rename_i tail4 hcomma
      rw [outcome_bind] at h
      obtain ⟨⟨pairs, tail5⟩, hpairs, h⟩ := bind_eq_ok.mp h
      cases h
      obtain ⟨space, hspace, htail4⟩ := skip_space_split tail4
      obtain ⟨slots, hne, heq, hslots⟩ := ihMembers space _ _ _ hspace hpairs
      obtain ⟨next, slots, rfl⟩ := List.exists_cons_of_ne_nil hne
      refine ⟨slot :: next :: slots, by simp, ?_, .cons hslot hslots⟩
      rw [hsource, after_eq hcomma, htail4, heq, joined_cons]
      simp
    · intro s v rest h
      rw [scan_array] at h
      split at h
      · rename_i tail hafter
        cases h
        obtain ⟨space, hspace, hs⟩ := skip_space_split s
        refine ⟨space, [], [], hspace, ?_, .nil, rfl⟩
        rw [hs, after_eq hafter]
        rfl
      · rw [outcome_bind] at h
        obtain ⟨⟨vs, tail⟩, hvs, h⟩ := bind_eq_ok.mp h
        cases h
        obtain ⟨space, hspace, hs⟩ := skip_space_split s
        obtain ⟨slots, _, heq, hslots⟩ := ihItems space _ _ _ hspace hvs
        refine ⟨[], slots, vs, by simp [Blank], ?_, hslots, rfl⟩
        rw [List.nil_append, ← heq]
        exact hs
    · intro before s vs rest hbefore h
      rw [scan_items, outcome_bind] at h
      obtain ⟨⟨v, tail⟩, hv, h⟩ := bind_eq_ok.mp h
      obtain ⟨token, hs, htoken⟩ := ihOnce _ _ _ hv
      obtain ⟨right, hright, htail⟩ := skip_space_split tail
      let slot : Slot := ⟨before, token, right⟩
      have hslot : slot.Item (Token a) v := ⟨hbefore, hright, htoken.starts, htoken⟩
      have hsource : before ++ s = slot.source ++ skip_space tail := by
        conv_lhs => rw [hs, htail]
        simp [slot, Slot.source]
      simp only at h
      split at h
      · rename_i tail1 hclose
        cases h
        refine ⟨[slot], by simp, ?_, .cons hslot .nil⟩
        rw [hsource, after_eq hclose, joined_singleton]
        rfl
      split at h
      · cases h
      rename_i tail1 hcomma
      rw [outcome_bind] at h
      obtain ⟨⟨values, tail2⟩, hvalues, h⟩ := bind_eq_ok.mp h
      cases h
      obtain ⟨space, hspace, htail1⟩ := skip_space_split tail1
      obtain ⟨slots, hne, heq, hslots⟩ := ihItems space _ _ _ hspace hvalues
      obtain ⟨next, slots, rfl⟩ := List.exists_cons_of_ne_nil hne
      refine ⟨slot :: next :: slots, by simp, ?_, .cons hslot hslots⟩
      rw [hsource, after_eq hcomma, htail1, heq, joined_cons]
      simp

end

/-! ## Whole texts -/

/-- A text with one token, between spaces, is read as the value of the token. -/
theorem loads_token {hooks : Hooks} {lead token trail : Text} {v : Value} (hlead : Blank lead)
    (hstarts : StartsValue token) (htoken : ReadAs hooks token v) (htrail : Blank trail) :
    outcome (loads hooks (lead ++ (token ++ trail))) = .ok v := by
  have hbom : ∀ s, lead ++ (token ++ trail) ≠ '\uFEFF' :: s := by
    intro s hs
    cases lead with
    | nil =>
      obtain ⟨c, t, rfl, _, _, _, hlt⟩ := hstarts
      cases hs
      revert hlt
      decide
    | cons c lead =>
      cases hs
      have hc := hlead '\uFEFF' (by simp)
      revert hc
      decide
  have hread := htoken trail (fuelFor (lead ++ (token ++ trail)))
    (by simpa using stops_blank htrail stops_nil)
    (by unfold fuelFor; simp only [List.length_append]; omega)
  have hend : skip_space trail = [] := by simpa [skip_space] using skip_space_blank htrail []
  rw [loads_eq hbom, skip_space_blank hlead, (hstarts.append _).skip_space, outcome_bind, hread, ok_bind]
  simp only [hend]
  rfl

/-- What the parser makes of a whole text: the spaces around one scanned value. -/
theorem loads_ok {hooks : Hooks} {s : Text} {v : Value} (h : outcome (loads hooks s) = .ok v) :
    ∃ lead trail, Blank lead ∧ Blank trail ∧ s = lead ++ skip_space s ∧
      outcome (scan_once hooks (fuelFor s) (skip_space s)) = .ok (v, trail) := by
  unfold loads at h
  split at h
  · cases h
  · rw [outcome_bind] at h
    obtain ⟨⟨w, trail⟩, hw, h⟩ := bind_eq_ok.mp h
    simp only at h
    split at h
    · rename_i hend
      cases h
      obtain ⟨lead, hlead, hs⟩ := skip_space_split s
      obtain ⟨behind, hbehind, htrail⟩ := skip_space_split trail
      rw [hend, List.append_nil] at htrail
      exact ⟨lead, trail, hlead, htrail ▸ hbehind, hs, hw⟩
    · cases h

end vfy.load
