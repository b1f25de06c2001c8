-- String literals: what the expression parser reads against what the JSON
-- loader reads. The two agree on a literal when no escape in it writes a
-- surrogate; a pair of them is one character to the loader only.
import VerifyRun.SourceIds
import VerifyRun.Operands

namespace vfy.expr

open calls python outcomes

/-! ## The escapes of a literal -/

/-- The markers of the escapes of a literal, after its opening quote. -/
def markers : Text → List Char
  | [] => []
  | '"' :: _ => []
  | '\\' :: marker :: rest => marker :: markers rest
  | _ :: rest => markers rest

/-- The numbers that the `\u` escapes of a literal write, after its opening quote. -/
def unicode_escapes : Text → List Nat
  | [] => []
  | '"' :: _ => []
  | '\\' :: 'u' :: a :: b :: c :: d :: rest =>
    (json.hexNumber a b c d).toList ++ unicode_escapes rest
  | '\\' :: _ :: rest => unicode_escapes rest
  | _ :: rest => unicode_escapes rest

/-- The markers that the language lists. -/
def ESCAPE_MARKERS : List Char := ['"', '\\', 'b', 't', 'n', 'f', 'r', 'u']

/-- A code point that no string may carry. -/
def IsSurrogate (n : Nat) : Prop := 0xD800 ≤ n ∧ n ≤ 0xDFFF

instance (n : Nat) : Decidable (IsSurrogate n) := inferInstanceAs (Decidable (_ ∧ _))

theorem markers_character {c : Char} (hq : c ≠ '"') (hs : c ≠ '\\') (t : Text) :
    markers (c :: t) = markers t := by
  rw [markers]
  · exact hq
  · exact fun _ _ h _ => hs h

theorem unicode_escapes_character {c : Char} (hq : c ≠ '"') (hs : c ≠ '\\') (t : Text) :
    unicode_escapes (c :: t) = unicode_escapes t := by
  rw [unicode_escapes]
  · exact hq
  · exact fun _ _ _ _ _ h _ => hs h
  · exact fun _ _ h _ => hs h

/-- The digits of an escape are no markers. -/
theorem markers_hex {a b c d : Char} {n : Nat} (h : json.hexNumber a b c d = some n) (t : Text) :
    markers (a :: b :: c :: d :: t) = markers t := by
  simp only [json.hexNumber, bind, Option.bind_eq_some_iff] at h
  obtain ⟨_, ha, _, hb, _, hc, _, hd, _⟩ := h
  have hmark : ∀ {x : Char} {v : Nat}, json.hexValue x = some v → x ≠ '"' ∧ x ≠ '\\' :=
    fun hv => hex_ne (Option.isSome_iff_exists.mpr ⟨_, hv⟩)
  rw [markers_character (hmark ha).1 (hmark ha).2, markers_character (hmark hb).1 (hmark hb).2,
    markers_character (hmark hc).1 (hmark hc).2, markers_character (hmark hd).1 (hmark hd).2]

theorem joinUnit_codeUnit {n : Nat} (h : ¬ IsSurrogate n) (s : Str) :
    json.joinUnit (json.codeUnit n) s = .scalar (Char.ofNat n) :: s := by
  have hunit : json.codeUnit n = .scalar (Char.ofNat n) := by
    unfold json.codeUnit
    rw [dif_neg]
    intro hn
    exact h ⟨hn.1, by omega⟩
  rw [hunit]
  rfl

/-- The two decoders have the same escapes of one character, but for `\/`. -/
theorem string_escapes_of_escaped {marker c : Char} (h : json.escaped marker = some c)
    (hm : marker ∈ ESCAPE_MARKERS) : string_escapes (.scalar marker) = some (.scalar c) := by
  unfold json.escaped at h
  split at h <;> cases h
  · rfl
  · rfl
  · revert hm
    decide
  all_goals rfl

/-- What the parser raises at such an escape. -/
def surrogateFailure : Exn :=
  fail .surrogate_not_permitted "A string may not carry a code point in U+D800-U+DFFF."

/-! ## One turn of the loop -/

section

variable {source rest : Str} {start fuel : Nat} {pieces : Str} {cursor : Cursor}

theorem remaining_bind {α : Type} (f : Str → Parser α) :
    (remaining source >>= f) cursor = f (from_ source cursor.position) cursor := rfl

theorem advance_bind {α : Type} (n : Nat) (f : Unit → Parser α) :
    (advance n >>= f) cursor = f () { cursor with position := cursor.position + n } := rfl

theorem string_pieces_quote (h : from_ source cursor.position = .scalar '"' :: rest) :
    string_pieces source start (fuel + 1) pieces cursor =
      .ret (pieces, { cursor with position := cursor.position + 1 }) := by
  rw [string_pieces, remaining_bind, h]
  rfl

theorem string_pieces_character {c : CodePoint} (hq : c ≠ .scalar '"') (hn : c ≠ .scalar '\n')
    (hs : c ≠ .scalar '\\') (h : from_ source cursor.position = c :: rest) :
    string_pieces source start (fuel + 1) pieces cursor =
      string_pieces source start fuel (pieces ++ [c])
        { cursor with position := cursor.position + 1 } := by
  rw [string_pieces, remaining_bind, h]
  refine congrFun (?_ : _ = (advance 1 >>= fun _ =>
    string_pieces source start fuel (pieces ++ [c]) : Parser Str)) cursor
  split
  · rename_i heq
    cases heq
  · rename_i heq
    exact absurd (List.cons.inj heq).1 hq
  · rename_i heq
    exact absurd (List.cons.inj heq).1 hn
  · rename_i heq
    exact absurd (List.cons.inj heq).1 hs
  · rename_i heq
    cases heq
    rfl

theorem string_pieces_escape {marker c : CodePoint} (hm : string_escapes marker = some c)
    (h : from_ source cursor.position = .scalar '\\' :: marker :: rest) :
    string_pieces source start (fuel + 1) pieces cursor =
      string_pieces source start fuel (pieces ++ [c])
        { cursor with position := cursor.position + 2 } := by
  rw [string_pieces, remaining_bind, h]
  simp only [hm]
  rfl

theorem string_pieces_unicode {n : Nat} (hn : hexDigits rest = some n)
    (h : from_ source cursor.position = .scalar '\\' :: .scalar 'u' :: rest) :
    string_pieces source start (fuel + 1) pieces cursor =
      if IsSurrogate n then
        raise surrogateFailure
      else string_pieces source start fuel (pieces ++ [.scalar (Char.ofNat n)])
        { cursor with position := cursor.position + 6 } := by
  rw [string_pieces, remaining_bind, h]
  have hu : string_escapes (.scalar 'u') = none := rfl
  simp only [hu, hn, if_true]
  rw [advance_bind]
  by_cases hs : IsSurrogate n
  · rw [if_pos hs, if_pos (show 0xD800 ≤ n ∧ n ≤ 0xDFFF from hs)]
    rfl
  · rw [if_neg hs, if_neg (show ¬ (0xD800 ≤ n ∧ n ≤ 0xDFFF) from hs)]
    rfl

end

/-! ## The whole loop -/

theorem from_append {source s after : Str} {i : Nat} (h : from_ source i = s ++ after) :
    from_ source (i + s.length) = after := by
  unfold from_ at h ⊢
  rw [← List.drop_drop, h, List.drop_left]

theorem from_cons {source s : Str} {c : CodePoint} {i : Nat} (h : from_ source i = c :: s) :
    from_ source (i + 1) = s := from_append (s := [c]) h

theorem hexDigits_ofText {a b c d : Char} {n : Nat} (h : json.hexNumber a b c d = some n)
    (rest : Text) (after : Str) : hexDigits (ofText (a :: b :: c :: d :: rest) ++ after) = some n := h

theorem scanstring_length {t rest : Text} {s : Str}
    (h : outcome (json.scanstring t) = .ok (s, rest)) : rest.length < t.length := by
  rcases outcome_sat (json.scanstring_sat (E := fun _ => True) trivial t) with
    ⟨p, hp, hlt⟩ | ⟨e, he, _⟩
  · rw [h] at hp
    cases hp
    exact hlt
  · rw [h] at he
    cases he

/-- What is left to read after a turn is what the loop reads from there. -/
theorem scanned_turn {t rest : Text} {s pieces : Str} {c : CodePoint} {k l : Nat} {cursor : Cursor}
    {p : Prop} [Decidable p] (hlen : rest.length < t.length) (hk : l = t.length + k) :
    (if p then raise surrogateFailure else
      .ret (pieces ++ [c] ++ s, { ({ cursor with position := cursor.position + k } : Cursor) with
        position := cursor.position + k + (t.length - rest.length) }) : Py (Str × Cursor)) =
    if p then raise surrogateFailure else
      .ret (pieces ++ c :: s, { cursor with position := cursor.position + (l - rest.length) }) := by
  subst hk
  have hposition : cursor.position + k + (t.length - rest.length) =
      cursor.position + (t.length + k - rest.length) := by omega
  rw [List.append_assoc, List.singleton_append, hposition]

/-- After the same quote the expression parser reads what the JSON scanner
reads, or refuses the first escape that writes a surrogate. -/
theorem string_pieces_scanned {source : Str} {start fuel : Nat} {pieces : Str} {cursor : Cursor}
    {t rest : Text} {s after : Str} (hscan : outcome (json.scanstring t) = .ok (s, rest))
    (hm : ∀ m ∈ markers t, m ∈ ESCAPE_MARKERS)
    (hat : from_ source cursor.position = ofText t ++ after) (hfuel : t.length ≤ fuel) :
    string_pieces source start fuel pieces cursor =
      if ∃ n ∈ unicode_escapes t, IsSurrogate n then raise surrogateFailure
      else .ret (pieces ++ s, { cursor with position := cursor.position + (t.length - rest.length) }) := by
  induction t using json.scanstring.induct generalizing fuel pieces cursor s rest with
  | case1 => cases hscan
  | case2 rest' =>
    cases hscan
    obtain ⟨fuel, rfl⟩ : ∃ f, fuel = f + 1 := ⟨fuel - 1, by simp at hfuel; omega⟩
    rw [string_pieces_quote hat, if_neg (by simp [unicode_escapes])]
    simp
  | case3 a b c d rest' n hn ih =>
    obtain ⟨fuel, rfl⟩ : ∃ f, fuel = f + 1 := ⟨fuel - 1, by simp at hfuel; omega⟩
    simp only [json.scanstring, hn, outcome_bind] at hscan
    obtain ⟨⟨s', rest''⟩, hscan', hs⟩ := bind_eq_ok.mp hscan
    cases hs
    have hescapes : unicode_escapes ('\\' :: 'u' :: a :: b :: c :: d :: rest') =
        n :: unicode_escapes rest' := by
      rw [unicode_escapes, hn]
      rfl
    rw [hescapes, string_pieces_unicode (hexDigits_ofText hn rest' after) hat]
    by_cases hsurrogate : IsSurrogate n
    · rw [if_pos hsurrogate, if_pos ⟨n, by simp, hsurrogate⟩]
    · rw [if_neg hsurrogate, joinUnit_codeUnit hsurrogate]
      have hmarkers : markers ('\\' :: 'u' :: a :: b :: c :: d :: rest') = 'u' :: markers rest' := by
        rw [markers, markers_hex hn]
      rw [ih hscan' (fun m h => hm m (by simp [hmarkers, h])) (from_append (s := ofText ['\\', 'u', a, b, c, d]) hat)
        (by simp at hfuel; omega)]
      simp only [List.mem_cons, exists_eq_or_imp, hsurrogate, false_or]
      exact scanned_turn (scanstring_length hscan') (by simp)
  | case4 a b c d rest' hn =>
    simp only [json.scanstring, hn] at hscan
    cases hscan
  | case5 mark rest' hnot c hc ih =>
    obtain ⟨fuel, rfl⟩ : ∃ f, fuel = f + 1 := ⟨fuel - 1, by simp at hfuel; omega⟩
    rw [json.scanstring, hc, outcome_bind] at hscan
    · obtain ⟨⟨s', rest''⟩, hscan', hs⟩ := bind_eq_ok.mp hscan
      cases hs
      have hmark : mark ∈ ESCAPE_MARKERS := hm mark (by simp [markers])
      rw [string_pieces_escape (string_escapes_of_escaped hc hmark) hat,
        ih hscan' (fun m h => hm m (by simp [markers, h]))
          (from_append (s := ofText ['\\', mark]) hat) (by simp at hfuel; omega),
        unicode_escapes]
      · exact scanned_turn (scanstring_length hscan') (by simp)
      · exact hnot
    · exact hnot
  | case6 mark rest' hnot hc =>
    rw [json.scanstring, hc] at hscan
    · cases hscan
    · exact hnot
  | case7 c rest' hq hu hs hlt =>
    rw [json.scanstring, if_pos hlt] at hscan
    · cases hscan
    all_goals assumption
  | case8 c rest' hq hu hs hlt ih =>
    obtain ⟨fuel, rfl⟩ : ∃ f, fuel = f + 1 := ⟨fuel - 1, by simp at hfuel; omega⟩
    rw [json.scanstring, if_neg hlt, outcome_bind] at hscan
    · obtain ⟨⟨s', rest''⟩, hscan', he⟩ := bind_eq_ok.mp hscan
      cases he
      have hslash : c ≠ '\\' := by
        rintro rfl
        cases rest' with
        | nil => cases hscan'
        | cons mark rest' => exact hs mark rest' rfl rfl
      have hnewline : c ≠ '\n' := by
        rintro rfl
        exact hlt (by decide)
      rw [string_pieces_character (by simpa using hq) (by simpa using hnewline)
        (by simpa using hslash) hat,
        unicode_escapes_character hq hslash,
        ih hscan' (markers_character hq hslash rest' ▸ hm) (from_cons hat) (by simp at hfuel; omega)]
      exact scanned_turn (scanstring_length hscan') (by simp)
    all_goals assumption

/-! ## The literal -/

/-- A step that returns is followed by the rest. -/
theorem returned_bind {α β : Type} {p : Parser α} {f : α → Parser β} {a : α} {cursor next : Cursor}
    (h : p cursor = .ret (a, next)) : (p >>= f) cursor = f a next := by
  show (p cursor).bind _ = _
  rw [h]
  rfl

/-- At a quote the parser reads the pieces from the character after it. -/
theorem string_literal_at {source rest : Str} {cursor : Cursor}
    (h : from_ source cursor.position = .scalar '"' :: rest) :
    string_literal source cursor = string_pieces source cursor.position (source.length + 1) []
      { cursor with position := cursor.position + 1 } := by
  have hskip : skip_whitespace source cursor = .ret ((), cursor) := by
    unfold skip_whitespace
    rw [remaining_bind, h]
    rfl
  have hpeek : peek_symbol source "\"" cursor = .ret (true, cursor) := by
    unfold peek_symbol
    rw [returned_bind hskip, remaining_bind, h]
    rfl
  have htake : take_symbol source "\"" "string" cursor =
      .ret ((), { cursor with position := cursor.position + 1 }) := by
    unfold take_symbol
    rw [returned_bind hpeek]
    rfl
  unfold string_literal
  rw [returned_bind hskip, returned_bind (p := position) (a := cursor.position) rfl,
    returned_bind htake]

theorem from_length {before s : Str} : from_ (before ++ s) before.length = s := List.drop_left

/-- A literal that the JSON scanner reads to its end, with any text around it. -/
theorem string_literal_scanned {body : Text} {s : Str}
    (hscan : outcome (json.scanstring body) = .ok (s, []))
    (hm : ∀ m ∈ markers body, m ∈ ESCAPE_MARKERS) (before after : Str) (nesting : Nat) :
    string_literal (before ++ ofText ('"' :: body) ++ after) ⟨before.length, nesting⟩ =
      if ∃ n ∈ unicode_escapes body, IsSurrogate n then raise surrogateFailure
      else .ret (s, ⟨before.length + ('"' :: body).length, nesting⟩) := by
  have hat : from_ (before ++ ofText ('"' :: body) ++ after) before.length =
      .scalar '"' :: (ofText body ++ after) := by
    rw [List.append_assoc, from_length]
    rfl
  rw [string_literal_at hat, string_pieces_scanned hscan hm (from_cons hat)]
  · simp only [List.nil_append, List.length_cons, List.length_nil, Nat.sub_zero]
    congr 4
    omega
  · simp only [List.length_append, ofText, List.length_map, List.length_cons]
    omega

/-! ## What the loader accepts -/

theorem scanstring_suffix {t rest : Text} {s : Str}
    (h : outcome (json.scanstring t) = .ok (s, rest)) : rest <:+ t := by
  induction t using json.scanstring.induct generalizing s rest with
  | case1 => cases h
  | case2 rest' =>
    cases h
    exact List.suffix_cons _ _
  | case3 a b c d rest' n hn ih =>
    simp only [json.scanstring, hn, outcome_bind] at h
    obtain ⟨⟨s', rest''⟩, h', he⟩ := bind_eq_ok.mp h
    cases he
    exact (ih h').trans (List.suffix_append ['\\', 'u', a, b, c, d] _)
  | case4 a b c d rest' hn =>
    simp only [json.scanstring, hn] at h
    cases h
  | case5 mark rest' hnot c hc ih =>
    rw [json.scanstring, hc, outcome_bind] at h
    · obtain ⟨⟨s', rest''⟩, h', he⟩ := bind_eq_ok.mp h
      cases he
      exact (ih h').trans (List.suffix_append ['\\', mark] _)
    · exact hnot
  | case6 mark rest' hnot hc =>
    rw [json.scanstring, hc] at h
    · cases h
    · exact hnot
  | case7 c rest' hq hu hs hlt =>
    rw [json.scanstring, if_pos hlt] at h
    · cases h
    all_goals assumption
  | case8 c rest' hq hu hs hlt ih =>
    rw [json.scanstring, if_neg hlt, outcome_bind] at h
    · obtain ⟨⟨s', rest''⟩, h', he⟩ := bind_eq_ok.mp h
      cases he
      exact (ih h').trans (List.suffix_cons _ _)
    all_goals assumption

/-- No spaces end in a quote. -/
theorem nil_of_suffix_quote {rest inner : Text} (h : rest <:+ inner ++ ['"'])
    (hspace : json.skip_space rest = []) : rest = [] := by
  by_contra hne
  have hlast : rest.getLast hne = '"' := by
    obtain ⟨u, hu⟩ := h
    have := congrArg List.getLast? hu
    rw [List.getLast?_append_of_ne_nil _ hne, List.getLast?_concat, List.getLast?_eq_some_getLast hne]
      at this
    exact Option.some.inj this
  have hall := List.dropWhile_eq_nil_iff.mp hspace _ (List.getLast_mem hne)
  rw [hlast] at hall
  revert hall
  decide

/-- The JSON parser, on a text that starts with a quote. -/
theorem loads_quote (body : Text) :
    outcome (json.loads load.hooks ('"' :: body)) = (outcome (json.scanstring body) >>= fun p =>
      match json.skip_space p.2 with
      | [] => .ok (.str p.1)
      | _ => .error .json_decode_error) := by
  have hmark : ∀ rest, '"' :: body ≠ '\uFEFF' :: rest := by
    intro rest h
    exact absurd (List.cons.inj h).1 (by decide)
  have hspace : json.skip_space ('"' :: body) = '"' :: body := rfl
  rw [json.loads_eq hmark, hspace, outcome_bind, json.fuelFor, json.scan_once, if_pos rfl, outcome_bind]
  cases outcome (json.scanstring body) with
  | error e => rfl
  | ok p =>
    simp only [ok_bind, outcome_pure]
    cases json.skip_space p.2 with
    | nil => rfl
    | cons c rest => rfl

theorem decode_quote (body : Text) :
    load.decode_utf8 (String.ofList ('"' :: body)).toByteArray = .ok ('"' :: body) := by
  rw [String.toByteArray_ofList]
  exact load.decode_text (by decide) _

/-- A text in quotes that the loader accepts is one literal, to its end. -/
theorem scanned_of_loaded {inner : Text} {s : Str}
    (h : load.load_json_bytes (String.ofList ('"' :: (inner ++ ['"']))).toByteArray =
      .ok (.str s)) : outcome (json.scanstring (inner ++ ['"'])) = .ok (s, []) := by
  unfold load.load_json_bytes load.loading at h
  simp only [outcome_bind, outcome_lift, decode_quote, ok_bind] at h
  obtain ⟨_, _, h⟩ := bind_eq_ok.mp h
  obtain ⟨v, hloads, h⟩ := bind_eq_ok.mp h
  obtain ⟨_, _, h⟩ := bind_eq_ok.mp h
  cases h
  rw [outcome_mapThrow rfl, loads_quote] at hloads
  cases hscan : outcome (json.scanstring (inner ++ ['"'])) with
  | error e =>
    rw [hscan] at hloads
    cases hloads
  | ok p =>
    simp only [hscan, ok_bind] at hloads
    cases hspace : json.skip_space p.2 with
    | nil =>
      rw [hspace] at hloads
      cases hloads
      rw [← nil_of_suffix_quote (scanstring_suffix hscan) hspace]
    | cons c t =>
      rw [hspace] at hloads
      cases hloads

/-- The loader reads a literal that the scanner reads to its end. -/
theorem loaded_of_scanned {body t : Text} {s : Str}
    (hscan : outcome (json.scanstring body) = .ok (s, []))
    (hdepth : load.reject_excess_depth ('"' :: body) = .ok ())
    (ht : canon.string_text s = .ok t) :
    load.load_json_bytes (String.ofList ('"' :: body)).toByteArray = .ok (.str s) := by
  have hcanonical : canon.canonicalize (.str s) = .ok t := by
    rw [canon.canonicalize_eq_encode]
    exact ht
  unfold load.load_json_bytes load.loading
  simp only [outcome_bind, outcome_lift, decode_quote, ok_bind, hdepth]
  rw [outcome_mapThrow rfl, loads_quote, hscan]
  simp [json.skip_space, Except.mapError, hcanonical]

/-! ## Canonical strings -/

/-- Every escape is listed and writes no surrogate. -/
def PlainEscapes (t : Text) : Prop :=
  (∀ m ∈ markers t, m ∈ ESCAPE_MARKERS) ∧ ∀ n ∈ unicode_escapes t, ¬ IsSurrogate n

theorem plain_character_text {c : CodePoint} {t rest : Text} (h : canon.character_text c = .ok t)
    (hrest : PlainEscapes rest) : PlainEscapes (t ++ rest) := by
  cases c with
  | surrogate n => cases h
  | scalar c =>
    simp only [canon.character_text] at h
    split at h
    · rename_i escape he
      cases h
      unfold canon.named_escapes at he
      split at he <;> cases he <;>
      · refine ⟨?_, hrest.2⟩
        rintro m (_ | ⟨_, hm⟩)
        · decide
        · exact hrest.1 m hm
    · rename_i hn
      split at h
      · rename_i hlt
        cases h
        have hx := load.hexNumber_hex4 c.toNat hlt
        simp only [canon.hex4] at hx
        simp only [canon.hex4, List.cons_append, List.nil_append]
        constructor
        · rw [markers, markers_hex hx]
          rintro m (_ | ⟨_, hm⟩)
          · decide
          · exact hrest.1 m hm
        · rw [unicode_escapes, hx]
          rintro n hmem
          rcases List.mem_append.mp hmem with hn | hn
          · have hlt' : c.toNat < 32 := hlt
            cases List.mem_singleton.mp hn
            exact fun hs => absurd hs.1 (by omega)
          · exact hrest.2 n hn
      · cases h
        have hq : c ≠ '"' := by rintro rfl; simp [canon.named_escapes] at hn
        have hb : c ≠ '\\' := by rintro rfl; simp [canon.named_escapes] at hn
        rw [List.singleton_append]
        unfold PlainEscapes
        rwa [markers_character hq hb, unicode_escapes_character hq hb]

theorem plain_pieces {s : Str} {pieces : List Text}
    (h : List.Forall₂ (fun c t => canon.character_text c = .ok t) s pieces) (rest : Text) :
    PlainEscapes (pieces.flatten ++ '"' :: rest) := by
  induction h with
  | nil => exact ⟨by simp [markers], by simp [unicode_escapes]⟩
  | cons hc _ ih =>
    rw [List.flatten_cons, List.append_assoc]
    exact plain_character_text hc ih

/-- The text that is written for a string is read as that string, wherever it stands. -/
theorem string_literal_string_text {s : Str} {t : Text} (h : canon.string_text s = .ok t)
    (before after : Str) (nesting : Nat) :
    string_literal (before ++ ofText t ++ after) ⟨before.length, nesting⟩ =
      .ret (s, ⟨before.length + t.length, nesting⟩) := by
  obtain ⟨pieces, hp, ht⟩ := bind_eq_ok.mp h
  cases ht
  have hplain := plain_pieces (mapM_eq_ok.mp hp) []
  have hscan := load.scanstring_pieces hp []
  have hread := string_literal_scanned (by rw [hscan]; rfl) hplain.1 before after nesting
  rw [if_neg (by simpa using hplain.2)] at hread
  exact hread

/-! ## The two decoders -/

/-- A literal in quotes whose escapes are listed and that the loader accepts is
read by the expression parser as the same string, wherever it stands, exactly
when no escape in it writes a surrogate. The text that `canon` writes for a
string is always read as that string. -/
theorem string_literal_agrees_with_loader (s : Str) (before after : Str) (nesting : Nat) :
    (∀ inner : Text,
      load.load_json_bytes (String.ofList ('"' :: (inner ++ ['"']))).toByteArray = .ok (.str s) →
      (∀ m ∈ markers (inner ++ ['"']), m ∈ ESCAPE_MARKERS) →
        (outcome (string_literal (before ++ ofText ('"' :: (inner ++ ['"'])) ++ after)
            ⟨before.length, nesting⟩) =
          .ok (s, ⟨before.length + ('"' :: (inner ++ ['"'])).length, nesting⟩) ↔
        ∀ n ∈ unicode_escapes (inner ++ ['"']), ¬ IsSurrogate n)) ∧
    ∀ t : Text, canon.canonicalize (.str s) = .ok t →
      load.load_json_bytes (String.ofList t).toByteArray = .ok (.str s) ∧
      outcome (string_literal (before ++ ofText t ++ after) ⟨before.length, nesting⟩) =
        .ok (s, ⟨before.length + t.length, nesting⟩) ∧
      gate.equal (.value (.str s)) (.value (.str s)) = true := by
  constructor
  · intro inner hload hm
    rw [string_literal_scanned (scanned_of_loaded hload) hm]
    constructor
    · intro h n hn hs
      rw [if_pos ⟨n, hn, hs⟩] at h
      cases h
    · intro h
      rw [if_neg (by simpa using h)]
      rfl
  · intro t h
    have hencode : canon.encode (.str s) = .ok t := canon.canonicalize_eq_encode (.str s) ▸ h
    have hcanonical := canon.canonical_of_encode (.str s) hencode
    refine ⟨?_, ?_, ?_⟩
    · rw [String.toByteArray_ofList,
        load.load_canonical_bytes hcanonical (canon.canonical_bytes_eq_ok.mpr ⟨t, hencode, rfl⟩)]
      rfl
    · rw [string_literal_string_text hencode]
      rfl
    · exact decide_eq_true rfl

/-- The literal `"\u0041\t"`, before a bracket. -/
theorem string_literal_agrees_on_a_tab :
    outcome (string_literal (ofText ['"', '\\', 'u', '0', '0', '4', '1', '\\', 't', '"', ')'])
      ⟨0, 0⟩) = .ok (ofText ['A', '\t'], ⟨10, 0⟩) := by
  refine ((string_literal_agrees_with_loader (ofText ['A', '\t']) [] [.scalar ')'] 0).1
    ['\\', 'u', '0', '0', '4', '1', '\\', 't']
    (loaded_of_scanned (t := ['"', 'A', '\\', 't', '"']) ?_ ?_ ?_) ?_).mpr ?_
  · rfl
  · rfl
  · rfl
  · simp [markers, ESCAPE_MARKERS]
  · decide

/-- The text `\ud83d\ude00`, which writes one character above U+FFFF. -/
def pairText : Text := ['\\', 'u', 'd', '8', '3', 'd', '\\', 'u', 'd', 'e', '0', '0']

/-- A pair of surrogate escapes is one character to the loader, and a failure
to the expression parser. -/
theorem string_literal_refuses_a_pair :
    load.load_json_bytes (String.ofList ('"' :: (pairText ++ ['"']))).toByteArray =
      .ok (.str [.scalar (Char.ofNat 0x1f600)]) ∧
    (∀ m ∈ markers (pairText ++ ['"']), m ∈ ESCAPE_MARKERS) ∧
    outcome (string_literal (ofText ('"' :: (pairText ++ ['"']))) ⟨0, 0⟩) =
      .error surrogateFailure := by
  refine ⟨?_, ?_, ?_⟩
  · exact loaded_of_scanned (t := ['"', Char.ofNat 0x1f600, '"']) (by decide +kernel) rfl
      (by decide +kernel)
  · simp [pairText, markers, ESCAPE_MARKERS]
  · rfl

end vfy.expr
