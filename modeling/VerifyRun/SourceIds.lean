-- The evidence ids that the text of an expression names. A scan of the tokens
-- finds them, without the grammar, and the parser collects the same.
import VerifyRun.ParserLaws

namespace vfy.expr

open calls python outcomes

/-! ## Tokens -/

/-- A word, a string literal, or another character that is no white space. -/
inductive Token where
  | word (w : Str)
  | text
  | symbol (c : CodePoint)

/-- What follows a string literal, from after its opening quote. -/
def afterString : Str → Str
  | [] => []
  | .scalar '"' :: rest => rest
  | .scalar '\\' :: _ :: rest => afterString rest
  | _ :: rest => afterString rest

theorem afterString_length (s : Str) : (afterString s).length ≤ s.length := by
  fun_induction afterString s <;> simp_all <;> omega

/-- The tokens of a text. -/
def tokens : Str → List Token
  | [] => []
  | c :: rest =>
    if isWhitespace c then tokens rest
    else if c = .scalar '"' then .text :: tokens (afterString rest)
    else if schema.identifierStart c then
      .word (c :: rest.takeWhile schema.identifierPart) ::
        tokens (rest.dropWhile schema.identifierPart)
    else .symbol c :: tokens rest
termination_by s => s.length
decreasing_by
  all_goals have := afterString_length rest
  all_goals have := (List.dropWhile_suffix schema.identifierPart (l := rest)).length_le
  all_goals simp only [List.length_cons]; omega

/-- What the scan has just read. -/
inductive Reading where
  | start
  | dot
  | root
  | rootDot
  | name
  | call

/-- One token: what was read after it, and the id that it names. -/
def Reading.step : Reading → Token → Reading × Option Str
  | .start, .word w =>
    if w = lit "evidence" then (.root, none)
    else if w = lit "fresh" ∨ w = lit "present" then (.name, none)
    else (.start, none)
  | .start, .symbol c => (if c = .scalar '.' then .dot else .start, none)
  | .root, .symbol c => (if c = .scalar '.' then .rootDot else .start, none)
  | .rootDot, .word w => (.start, some w)
  | .name, .symbol c => (if c = .scalar '(' then .call else .start, none)
  | .call, .word w => (.start, some w)
  | _, _ => (.start, none)

/-- The ids that the tokens name, in order: `evidence.id`, where `evidence` is
no member of another path, and the argument of `fresh` and of `present`. -/
def named : Reading → List Token → List Str
  | _, [] => []
  | reading, token :: rest => (reading.step token).2.toList ++ named (reading.step token).1 rest

/-- The ids that a text names, in source order. -/
def namedIn (source : Str) : List Str := named .start (tokens source)

/-! ## Steps of the scan -/

/-- One token, and the ids that the rest names after it. -/
theorem named_cons (reading : Reading) (token : Token) (rest : List Token) :
    named reading (token :: rest) =
      (reading.step token).2.toList ++ named (reading.step token).1 rest := rfl

theorem step_start_word (w : Str) : Reading.start.step (.word w) =
    if w = lit "evidence" then (.root, none)
    else if w = lit "fresh" ∨ w = lit "present" then (.name, none)
    else (.start, none) := rfl

theorem step_start_symbol (c : CodePoint) :
    Reading.start.step (.symbol c) = (if c = .scalar '.' then .dot else .start, none) := rfl

theorem named_symbol {c : CodePoint} (h : c ≠ .scalar '.') (rest : List Token) :
    named .start (.symbol c :: rest) = named .start rest := by
  rw [named_cons, step_start_symbol, if_neg h]
  rfl

theorem named_text (rest : List Token) : named .start (.text :: rest) = named .start rest := rfl

/-- A word that opens nothing names nothing. -/
theorem named_word {w : Str} (h : w ∉ [lit "evidence", lit "fresh", lit "present"])
    (rest : List Token) : named .start (.word w :: rest) = named .start rest := by
  simp only [List.mem_cons, List.not_mem_nil, or_false, not_or] at h
  rw [named_cons, step_start_word, if_neg h.1, if_neg (by simp [h.2])]
  rfl

/-- A member of a path names nothing, whatever it is called. -/
theorem named_member (w : Str) (rest : List Token) :
    named .start (.symbol (.scalar '.') :: .word w :: rest) = named .start rest := by
  rw [named_cons, step_start_symbol, if_pos rfl]
  rfl

theorem named_path (p : Path) (rest : List Token) :
    named .start (.word p.root.text :: .symbol (.scalar '.') :: .word p.first :: rest) =
      p.evidenceIds ++ named .start rest := by
  obtain ⟨root, first, members⟩ := p
  cases root with
  | evidence => rfl
  | candidate =>
    show named .start (.word (lit "candidate") :: _) = _
    rw [named_word (by decide), named_member]
    rfl
  | identity =>
    show named .start (.word (lit "identity") :: _) = _
    rw [named_word (by decide), named_member]
    rfl

theorem named_call {w id : Str} (h : w = lit "fresh" ∨ w = lit "present") (rest : List Token) :
    named .start (.word w :: .symbol (.scalar '(') :: .word id :: rest) =
      id :: named .start rest := by
  rw [named_cons, step_start_word]
  rcases h with rfl | rfl
  · rfl
  · rfl

theorem tokens_cons (c : CodePoint) (rest : Str) : tokens (c :: rest) =
    if isWhitespace c then tokens rest
    else if c = .scalar '"' then .text :: tokens (afterString rest)
    else if schema.identifierStart c then
      .word (c :: rest.takeWhile schema.identifierPart) ::
        tokens (rest.dropWhile schema.identifierPart)
    else .symbol c :: tokens rest := by
  rw [tokens]

theorem tokens_whitespace {c : CodePoint} (h : isWhitespace c = true) (rest : Str) :
    tokens (c :: rest) = tokens rest := by
  rw [tokens_cons, if_pos h]

/-- White space separates tokens. -/
theorem tokens_skip (s : Str) : tokens (s.dropWhile isWhitespace) = tokens s := by
  induction s with
  | nil => rfl
  | cons c rest ih =>
    by_cases h : isWhitespace c = true
    · rw [List.dropWhile_cons_of_pos h, ih, tokens_whitespace h]
    · rw [List.dropWhile_cons_of_neg h]

/-- The character is a token of its own. -/
def standsAlone (c : CodePoint) : Bool :=
  !isWhitespace c && c ≠ .scalar '"' && !schema.identifierStart c

theorem tokens_symbol {c : CodePoint} (h : standsAlone c = true) (rest : Str) :
    tokens (c :: rest) = .symbol c :: tokens rest := by
  simp only [standsAlone, Bool.and_eq_true, Bool.not_eq_true', decide_eq_true_eq] at h
  rw [tokens_cons, if_neg (by simp [h.1.1]), if_neg h.1.2, if_neg (by simp [h.2])]

theorem tokens_quote (rest : Str) :
    tokens (.scalar '"' :: rest) = .text :: tokens (afterString rest) := by
  rw [tokens_cons, if_neg (by decide), if_pos rfl]

theorem tokens_word {s w : Str} (h : wordOf s = some w) :
    ∃ t, s = w ++ t ∧ tokens s = .word w :: tokens t := by
  cases s with
  | nil => cases h
  | cons c rest =>
    rw [wordOf] at h
    by_cases hc : schema.identifierStart c = true
    · rw [if_pos hc, Option.some.injEq] at h
      subst h
      refine ⟨rest.dropWhile schema.identifierPart, ?_, ?_⟩
      · rw [List.cons_append, List.takeWhile_append_dropWhile]
      · have hquote : c ≠ .scalar '"' := by
          rintro rfl
          revert hc
          decide
        rw [tokens_cons, if_neg (by simp [not_isWhitespace_of_identifierStart hc]), if_neg hquote,
          if_pos hc]
    · rw [if_neg hc] at h
      cases h

/-- The characters of an integer and of an operator name nothing. -/
theorem namedIn_append {text : Str}
    (h : ∀ c ∈ text, standsAlone c = true ∧ c ≠ .scalar '.') (t : Str) :
    namedIn (text ++ t) = namedIn t := by
  induction text with
  | nil => rfl
  | cons c rest ih =>
    obtain ⟨halone, hdot⟩ := h c (by simp)
    rw [← ih fun d hd => h d (by simp [hd])]
    unfold namedIn
    rw [List.cons_append, tokens_symbol halone, named_symbol hdot]

/-! ## The parser over the remaining text -/

/-- Where the text `s` remains, the step returns and leaves what is in `Q`, or raises. -/
def Scans (source s : Str) {α : Type} (p : Parser α) (Q : α → Str → Prop) : Prop :=
  Prog.Triple Answers (fun _ => True) (fun cursor => from_ source cursor.position = s) p
    fun a cursor => Q a (from_ source cursor.position)

section Rules

variable {source s : Str} {α β : Type} {Q : α → Str → Prop} {R : β → Str → Prop}

theorem Scans.pure {a : α} (h : Q a s) : Scans source s (pure a) Q := by
  intro cursor hcursor
  show Q a (from_ source cursor.position)
  rwa [hcursor]

theorem Scans.bind {p : Parser α} {f : α → Parser β} (hp : Scans source s p Q)
    (hf : ∀ a t, Q a t → Scans source t (f a) R) : Scans source s (p >>= f) R :=
  fun cursor hcursor => Prog.Sat.bind (hp cursor hcursor) fun r hr => hf r.1 _ hr r.2 rfl

theorem Scans.mono {p : Parser α} {Q' : α → Str → Prop} (h : Scans source s p Q)
    (hQ : ∀ a t, Q a t → Q' a t) : Scans source s p Q' :=
  Prog.Triple.mono h (fun _ hs => hs) fun a _ hs => hQ a _ hs

theorem scans_raise {e : Exn} : Scans source s (fun _ => raise e) Q := fun _ _ => trivial

theorem scans_fail_at {message expected : Str} {offset : Nat} {token : Str} :
    Scans source s (fail_at source message expected offset token) Q := scans_raise

theorem scans_fail_here {message expected : Str} :
    Scans source s (fail_here source message expected) Q := fun _ _ => trivial

theorem scans_type_fail {message : Str} {offset : Nat} {token : Str} :
    Scans source s (type_fail source message offset token) Q := scans_raise

theorem scans_type_fail_here {message : Str} :
    Scans source s (type_fail_here source message) Q := fun _ _ => trivial

theorem Scans.of_position {f : Nat → Parser β} (h : ∀ i, Scans source s (f i) R) :
    Scans source s (position >>= f) R := fun cursor hcursor => h cursor.position cursor hcursor

theorem Scans.of_nesting {f : Nat → Parser β} (h : ∀ i, Scans source s (f i) R) :
    Scans source s (nesting >>= f) R := fun cursor hcursor => h cursor.nesting cursor hcursor

theorem Scans.of_set_nesting {n : Nat} {f : Unit → Parser β} (h : Scans source s (f ()) R) :
    Scans source s (set_nesting n >>= f) R := fun _ hcursor => h _ hcursor

theorem Scans.of_remaining {f : Str → Parser β} (h : Scans source s (f s) R) :
    Scans source s (remaining source >>= f) R := by
  intro cursor hcursor
  subst hcursor
  exact h cursor rfl

theorem Scans.of_advance {n : Nat} {f : Unit → Parser β} (h : Scans source (s.drop n) (f ()) R) :
    Scans source s (advance n >>= f) R := by
  intro cursor hcursor
  refine h { cursor with position := cursor.position + n } ?_
  subst hcursor
  simp only [from_, List.drop_drop]

theorem Scans.of_int {text : Str} {f : Int → Parser β}
    (h : ∀ i, i = decimalValue (charsOf text) → Scans source s (f i) R) :
    Scans source s (int_of text >>= f) R := fun cursor hcursor i hi => h i hi cursor hcursor

theorem scans_skip_whitespace :
    Scans source s (skip_whitespace source) fun _ t => t = s.dropWhile isWhitespace := by
  refine Scans.of_remaining ?_
  intro cursor hcursor
  show from_ source (cursor.position + _) = _
  rw [from_, ← List.drop_drop]
  rw [from_] at hcursor
  rw [hcursor]
  have hsplit := congrArg (List.drop (s.takeWhile isWhitespace).length)
    (List.takeWhile_append_dropWhile (p := isWhitespace) (l := s))
  rw [List.drop_left] at hsplit
  exact hsplit.symm

theorem Scans.of_skip {f : Unit → Parser β}
    (h : ∀ t, tokens t = tokens s → Scans source t (f ()) R) :
    Scans source s (skip_whitespace source >>= f) R := by
  refine Scans.bind scans_skip_whitespace ?_
  rintro _ _ rfl
  exact h _ (tokens_skip s)

/-- A look at the next word leaves it there. -/
theorem Scans.of_peek_word {f : Option Str → Parser β}
    (hnone : ∀ t, tokens t = tokens s → Scans source t (f none) R)
    (hsome : ∀ w t, tokens (w ++ t) = tokens s → tokens s = .word w :: tokens t →
      Scans source (w ++ t) (f (some w)) R) :
    Scans source s (peek_word source >>= f) R := by
  refine Scans.bind (Q := fun word t => word = wordOf t ∧ tokens t = tokens s) ?_ ?_
  · refine Scans.of_skip fun t ht => Scans.of_remaining ?_
    exact Scans.pure ⟨rfl, ht⟩
  · rintro word t ⟨rfl, ht⟩
    cases hw : wordOf t with
    | none => exact hnone t ht
    | some w =>
      obtain ⟨u, rfl, hu⟩ := tokens_word hw
      exact hsome w u ht (ht ▸ hu)

theorem scans_take_word :
    Scans source s (take_word source) fun w t => tokens s = .word w :: tokens t := by
  refine Scans.of_peek_word (fun t _ => scans_fail_here) fun w t _ htokens => ?_
  refine Scans.of_advance ?_
  rw [List.drop_left]
  exact Scans.pure htokens

theorem Scans.of_take_keyword {word : Str} {f : Bool → Parser β}
    (htrue : ∀ t, tokens s = .word word :: tokens t → Scans source t (f true) R)
    (hfalse : ∀ t, tokens t = tokens s → Scans source t (f false) R) :
    Scans source s (take_keyword_if source word >>= f) R := by
  refine Scans.bind (Q := fun b t => if b = true then tokens s = .word word :: tokens t
    else tokens t = tokens s) ?_ ?_
  · refine Scans.of_peek_word (fun t ht => ?_) fun w t ht htokens => ?_
    · exact Scans.pure (by simpa using ht)
    · by_cases hw : w = word
      · subst hw
        rw [if_pos rfl]
        refine Scans.of_advance ?_
        rw [List.drop_left]
        exact Scans.pure (by simpa using htokens)
      · rw [if_neg (fun h => hw (Option.some.inj h))]
        exact Scans.pure (by simpa using ht)
  · intro b t hb
    cases b with
    | true => exact htrue t (by simpa using hb)
    | false => exact hfalse t (by simpa using hb)

/-- A look at the next character leaves it there. -/
theorem Scans.of_peek_symbol {symbol : Str} {c : CodePoint} (hsymbol : symbol = [c])
    {f : Bool → Parser β} (htrue : ∀ t, tokens (c :: t) = tokens s → Scans source (c :: t) (f true) R)
    (hfalse : ∀ t, tokens t = tokens s → Scans source t (f false) R) :
    Scans source s (peek_symbol source symbol >>= f) R := by
  subst hsymbol
  refine Scans.bind (Q := fun b t => b = [c].isPrefixOf t ∧ tokens t = tokens s) ?_ ?_
  · refine Scans.of_skip fun t ht => Scans.of_remaining ?_
    exact Scans.pure ⟨rfl, ht⟩
  · rintro b t ⟨rfl, ht⟩
    cases hb : [c].isPrefixOf t with
    | false => exact hfalse t ht
    | true =>
      obtain ⟨u, rfl⟩ := List.isPrefixOf_iff_prefix.mp hb
      exact htrue u ht

theorem Scans.of_take_symbol {symbol expected : Str} {c : CodePoint} (hsymbol : symbol = [c])
    {f : Unit → Parser β} (h : ∀ t, tokens (c :: t) = tokens s → Scans source t (f ()) R) :
    Scans source s (take_symbol source symbol expected >>= f) R := by
  refine Scans.bind (Q := fun _ t => tokens (c :: t) = tokens s) ?_ fun _ t ht => h t ht
  refine Scans.of_peek_symbol hsymbol (fun t ht => ?_) fun t _ => scans_fail_here
  subst hsymbol
  intro cursor hcursor
  show tokens (c :: from_ source (cursor.position + 1)) = _
  rw [from_, ← List.drop_drop]
  rw [from_] at hcursor
  rw [hcursor]
  exact ht

/-! ## Literals -/

theorem hexDigits_cons {s : Str} {n : Nat} (h : hexDigits s = some n) :
    ∃ a b c d t, s = .scalar a :: .scalar b :: .scalar c :: .scalar d :: t ∧
      (json.hexValue a).isSome ∧ (json.hexValue b).isSome ∧ (json.hexValue c).isSome ∧
      (json.hexValue d).isSome := by
  unfold hexDigits at h
  split at h
  · rename_i a b c d t
    refine ⟨a, b, c, d, t, rfl, ?_⟩
    unfold json.hexNumber at h
    simp only [bind, Option.bind_eq_some_iff] at h
    obtain ⟨_, ha, _, hb, _, hc, _, hd, _⟩ := h
    simp [ha, hb, hc, hd]
  · cases h

/-- A hexadecimal digit does not end a string, and starts no escape. -/
theorem hex_ne {a : Char} (h : (json.hexValue a).isSome) : a ≠ '"' ∧ a ≠ '\\' := by
  constructor <;>
  · rintro rfl
    revert h
    decide

theorem afterString_hex {a : Char} (h : (json.hexValue a).isSome) (t : Str) :
    afterString (.scalar a :: t) = afterString t := by
  obtain ⟨hquote, hslash⟩ := hex_ne h
  rw [afterString]
  · simp [hquote]
  · simp [hslash]

theorem string_pieces_scans {start fuel : Nat} {pieces : Str} :
    Scans source s (string_pieces source start fuel pieces) fun _ t => t = afterString s := by
  induction fuel generalizing s pieces with
  | zero => exact scans_raise
  | succ fuel ih =>
    rw [string_pieces]
    refine Scans.of_remaining ?_
    split
    · exact scans_fail_at
    · refine Scans.of_advance (Scans.pure ?_)
      rw [afterString]
      rfl
    · exact scans_fail_here
    · refine Scans.of_advance ?_
      split
      · exact scans_fail_here
      · rename_i marker t
        have hafter : afterString (.scalar '\\' :: marker :: t) = afterString t := by
          rw [afterString]
        rw [hafter]
        split
        · exact Scans.of_advance ih
        · split
          · split
            · exact scans_fail_here
            · rename_i hhex
              split
              · exact scans_raise
              · obtain ⟨a, b, c, d, u, rfl, ha, hb, hc, hd⟩ := hexDigits_cons hhex
                rw [afterString_hex ha, afterString_hex hb, afterString_hex hc, afterString_hex hd]
                exact Scans.of_advance ih
          · exact Scans.of_position fun i => scans_fail_at
    · rename_i character t hquote hnewline hslash
      refine Scans.of_advance ?_
      have hafter : afterString (character :: t) = afterString t := by
        rw [afterString]
        · exact hquote
        · exact fun _ _ h _ => hslash h
      rw [hafter]
      exact ih

theorem string_literal_scans :
    Scans source s (string_literal source) fun _ t => tokens s = .text :: tokens t := by
  unfold string_literal
  refine Scans.of_skip fun t ht => Scans.of_position fun i => ?_
  refine Scans.of_take_symbol (c := .scalar '"') rfl fun u hu => ?_
  refine string_pieces_scans.mono ?_
  rintro _ _ rfl
  rw [← ht, ← hu, tokens_quote]

theorem indexOf_prefix {s text : Str} (h : indexOf s = some text) : ∃ t, s = text ++ t := by
  unfold indexOf at h
  split at h
  · rename_i c rest
    split at h
    · cases h
      exact ⟨rest, rfl⟩
    · split at h
      · cases h
        exact ⟨rest.dropWhile isDigit, by rw [List.cons_append, List.takeWhile_append_dropWhile]⟩
      · cases h
  · cases h

theorem standsAlone_digit {c : CodePoint} (h : isDigit c = true) :
    standsAlone c = true ∧ c ≠ .scalar '.' := by
  obtain ⟨ch, rfl, hch⟩ := digit_of_isDigit h
  have hbounds : 48 ≤ ch.toNat ∧ ch.toNat ≤ 57 := by
    simpa [Char.isDigit, UInt32.le_iff_toNat_le] using hch
  have hne : ∀ d : Char, d.toNat < 48 → ch ≠ d := by
    rintro d hd rfl
    omega
  have hstart : schema.identifierStart (.scalar ch) = false := by
    by_contra hstart
    simp only [schema.identifierStart, Bool.not_eq_false] at hstart
    have : ch.isAlpha = true ∨ ch = '_' := by simpa using hstart
    rcases this with hletter | rfl
    · simp only [Char.isAlpha, Char.isUpper, Char.isLower, Bool.or_eq_true, Bool.and_eq_true,
        decide_eq_true_eq, UInt32.le_iff_toNat_le] at hletter
      have : ch.val.toNat = ch.toNat := rfl
      simp at hletter
      omega
    · simp at hbounds
  refine ⟨?_, by simpa using hne '.' (by decide)⟩
  simp [standsAlone, isWhitespace, hstart, hne ' ' (by decide), hne '\t' (by decide),
    hne '\r' (by decide), hne '\n' (by decide), hne '"' (by decide)]

theorem integerOf_prefix {s text : Str} (h : integerOf s = some text) :
    ∃ t, s = text ++ t ∧ ∀ c ∈ text, standsAlone c = true ∧ c ≠ .scalar '.' := by
  have hindex : ∀ {s text : Str}, indexOf s = some text →
      ∃ t, s = text ++ t ∧ ∀ c ∈ text, standsAlone c = true ∧ c ≠ .scalar '.' := by
    intro s text h
    obtain ⟨t, ht⟩ := indexOf_prefix h
    exact ⟨t, ht, fun c hc => standsAlone_digit ((indexOf_digits h).1.2 c hc)⟩
  unfold integerOf at h
  split at h
  · obtain ⟨digits, hdigits, rfl⟩ := Option.map_eq_some_iff.mp h
    obtain ⟨t, rfl, hall⟩ := hindex hdigits
    refine ⟨t, rfl, ?_⟩
    intro c hc
    rcases List.mem_cons.mp hc with rfl | hc
    · exact ⟨by decide, by decide⟩
    · exact hall c hc
  · exact hindex h

/-- An integer names nothing. -/
theorem integer_scans {text : Str} (h : integerOf s = some text) :
    Scans source s (integer_literal source text) fun v t => IsLiteral v ∧ namedIn t = namedIn s := by
  obtain ⟨t, rfl, hall⟩ := integerOf_prefix h
  unfold integer_literal
  refine Scans.of_position fun offset => Scans.of_advance ?_
  rw [List.drop_left]
  dsimp only
  split
  · exact scans_fail_at
  · refine Scans.of_int fun i _ => ?_
    split
    · exact scans_fail_at
    · exact Scans.pure ⟨⟨.int i, rfl⟩, (namedIn_append hall t).symm⟩

/-- The step returns a literal, and names nothing. -/
def Plain (s : Str) (v : Value) (t : Str) : Prop := IsLiteral v ∧ namedIn t = namedIn s

/-- A string literal names nothing. -/
theorem namedIn_text {t : Str} (h : tokens s = .text :: tokens t) : namedIn t = namedIn s := by
  rw [namedIn, namedIn, h, named_text]

theorem namedIn_plain_word {w t : Str} (h : tokens s = .word w :: tokens t)
    (hw : w ∉ [lit "evidence", lit "fresh", lit "present"]) : namedIn t = namedIn s := by
  rw [namedIn, namedIn, h, named_word hw]

theorem namedIn_symbol {c : CodePoint} {t : Str} (h : tokens (c :: t) = tokens s)
    (hc : standsAlone c = true) (hdot : c ≠ .scalar '.') : namedIn t = namedIn s := by
  rw [namedIn, namedIn, ← h, tokens_symbol hc, named_symbol hdot]

theorem namedIn_congr {t : Str} (h : tokens t = tokens s) : namedIn t = namedIn s :=
  congrArg (named .start) h

theorem list_member_scans {inner : Parser (List Value)}
    (hinner : ∀ s, Scans source s inner fun vs t => AreLiterals vs ∧ namedIn t = namedIn s) :
    Scans source s (list_member source inner) (Plain s) := by
  unfold list_member
  refine Scans.of_skip fun t ht => ?_
  have hrest : ∀ u, tokens u = tokens s →
      Scans source u (literalMember source inner) (Plain s) := by
    intro u hu
    unfold literalMember
    refine Scans.of_peek_symbol (c := .scalar '"') rfl (fun x hx => ?_) fun x hx => ?_
    · refine Scans.bind string_literal_scans fun text y hy => Scans.pure ⟨⟨.str text, rfl⟩, ?_⟩
      exact namedIn_text ((hx.trans hu).symm.trans hy)
    · refine Scans.of_peek_symbol (c := .scalar '[') rfl (fun y hy => ?_) fun y hy => ?_
      · refine Scans.bind (hinner _) ?_
        rintro _ z ⟨⟨ls, rfl⟩, hz⟩
        exact Scans.pure ⟨⟨.list ls, rfl⟩, hz.trans (namedIn_congr (hy.trans (hx.trans hu)))⟩
      · refine Scans.of_remaining ?_
        split
        · rename_i text htext
          refine (integer_scans htext).mono fun v z hz => ⟨hz.1, hz.2.trans ?_⟩
          exact namedIn_congr (hy.trans (hx.trans hu))
        · exact scans_fail_here
  have hword : ∀ (b : Bool) (w u : Str), tokens t = .word w :: tokens u →
      w ∉ [lit "evidence", lit "fresh", lit "present"] →
      Scans source (w ++ u) (do advance w.length; pure (.bool b)) (Plain s) := by
    intro b w u hu hw
    refine Scans.of_advance ?_
    rw [List.drop_left]
    exact Scans.pure ⟨⟨.bool b, rfl⟩, namedIn_plain_word (ht ▸ hu) hw⟩
  refine Scans.of_peek_word (fun u hu => ?_) fun w u hu htokens => ?_
  · exact hrest u (hu.trans ht)
  · by_cases htrue : w = lit "true"
    · rw [if_pos (congrArg some htrue)]
      subst htrue
      exact hword true _ u htokens (by simp)
    · rw [if_neg (fun h => htrue (Option.some.inj h))]
      by_cases hfalse : w = lit "false"
      · rw [if_pos (congrArg some hfalse)]
        subst hfalse
        exact hword false _ u htokens (by simp)
      · rw [if_neg (fun h => hfalse (Option.some.inj h))]
        exact hrest _ (hu.trans ht)

theorem list_members_scans {inner : Parser (List Value)} {fuel : Nat} {members : List Value}
    (hinner : ∀ s, Scans source s inner fun vs t => AreLiterals vs ∧ namedIn t = namedIn s)
    (hmembers : AreLiterals members) :
    Scans source s (list_members source inner fuel members)
      fun vs t => AreLiterals vs ∧ namedIn t = namedIn s := by
  induction fuel generalizing s members with
  | zero => exact scans_raise
  | succ fuel ih =>
    rw [list_members]
    refine Scans.bind (list_member_scans hinner) ?_
    rintro v t ⟨hv, ht⟩
    refine Scans.of_skip fun u hu => ?_
    refine Scans.of_peek_symbol (c := .scalar ',') rfl (fun x hx => ?_) fun x hx => ?_
    · have hname := namedIn_symbol (hx.trans hu) (by decide) (by decide)
      refine Scans.of_advance (Scans.of_skip fun y hy => ?_)
      refine Scans.of_peek_symbol (c := .scalar ']') rfl (fun z _ => scans_fail_here) fun z hz => ?_
      refine (ih (hmembers.snoc hv)).mono fun vs w hw => ⟨hw.1, hw.2.trans ?_⟩
      exact (namedIn_congr (hz.trans hy)).trans (hname.trans ht)
    · refine Scans.of_take_symbol (c := .scalar ']') rfl fun y hy => ?_
      have hname := namedIn_symbol (hy.trans (hx.trans hu)) (by decide) (by decide)
      exact Scans.pure ⟨hmembers.snoc hv, hname.trans ht⟩

/-- A list of literals names nothing. -/
theorem list_literal_scans {levels : Nat} :
    Scans source s (list_literal source levels)
      fun vs t => AreLiterals vs ∧ namedIn t = namedIn s := by
  induction levels generalizing s with
  | zero => exact scans_raise
  | succ levels ih =>
    rw [list_literal]
    refine Scans.of_nesting fun depth => ?_
    by_cases hdeep : depth ≥ MAX_NESTING
    · rw [if_pos hdeep]
      exact scans_fail_here
    · rw [if_neg hdeep]
      refine Scans.of_take_symbol (c := .scalar '[') rfl fun t ht => Scans.of_set_nesting ?_
      have hopen := namedIn_symbol ht (by decide) (by decide)
      have hbody : Scans source t (list_body source (list_literal source levels))
          fun vs u => AreLiterals vs ∧ namedIn u = namedIn s := by
        unfold list_body
        refine Scans.of_skip fun u hu => ?_
        refine Scans.of_peek_symbol (c := .scalar ']') rfl (fun x hx => ?_) fun x hx => ?_
        · have hclose := namedIn_symbol (hx.trans hu) (by decide) (by decide)
          exact Scans.of_advance (Scans.pure ⟨⟨[], rfl⟩, hclose.trans hopen⟩)
        · refine (list_members_scans (fun s => ih) ⟨[], rfl⟩).mono fun vs y hy => ⟨hy.1, ?_⟩
          exact hy.2.trans ((namedIn_congr (hx.trans hu)).trans hopen)
      refine Scans.bind hbody fun vs u hu => Scans.of_set_nesting ?_
      exact Scans.pure hu

/-! ## Paths and operands -/

theorem path_segments_scans {fuel : Nat} {segments : List Segment} :
    Scans source s (path_segments source fuel (segments.map Segment.node)) fun vs t =>
      (∃ more : List Segment, vs = (segments ++ more).map Segment.node) ∧
        namedIn t = namedIn s := by
  induction fuel generalizing s segments with
  | zero => exact scans_raise
  | succ fuel ih =>
    have hmore : ∀ (segment : Segment) (u : Str), namedIn u = namedIn s →
        Scans source u (path_segments source fuel (segments.map Segment.node ++ [segment.node]))
          fun vs t => (∃ more : List Segment, vs = (segments ++ more).map Segment.node) ∧
            namedIn t = namedIn s := by
      intro segment u hu
      have hread := @ih u (segments ++ [segment])
      rw [List.map_append, List.map_singleton] at hread
      refine hread.mono ?_
      rintro _ t ⟨⟨more, rfl⟩, ht⟩
      exact ⟨⟨segment :: more, by simp⟩, ht.trans hu⟩
    rw [path_segments]
    refine Scans.of_peek_symbol (c := .scalar '.') rfl (fun t ht => ?_) fun t ht => ?_
    · refine Scans.of_advance (Scans.bind scans_take_word fun w u hu => hmore (.member w) u ?_)
      replace hu : tokens t = .word w :: tokens u := hu
      rw [namedIn, namedIn, ← ht, tokens_symbol (by decide), hu, named_member]
    · refine Scans.of_peek_symbol (c := .scalar '[') rfl (fun u hu => ?_) fun u hu => ?_
      · have hopen := namedIn_symbol (hu.trans ht) (by decide) (by decide)
        refine Scans.of_advance (Scans.of_skip fun x hx => Scans.of_remaining ?_)
        replace hx : tokens x = tokens u := hx
        split
        · exact scans_fail_here
        · rename_i text htext
          obtain ⟨y, rfl⟩ := indexOf_prefix htext
          have hdigits := (indexOf_digits htext).1
          refine Scans.of_advance ?_
          rw [List.drop_left]
          refine Scans.of_int fun i hi => ?_
          rw [decimalValue_digits hdigits] at hi
          subst hi
          refine Scans.of_take_symbol (c := .scalar ']') rfl fun z hz => hmore (.index _) z ?_
          rw [namedIn_symbol hz (by decide) (by decide), ← hopen, ← namedIn_congr hx,
            namedIn_append fun c hc => standsAlone_digit (hdigits.2 c hc)]
      · exact Scans.pure ⟨⟨[], by simp⟩, namedIn_congr (hu.trans ht)⟩

/-- A path names the id of its evidence, if that is its root. -/
theorem path_scans {root : Root} {u : Str} (hword : tokens s = .word root.text :: tokens u) :
    Scans source s (path source) fun v t =>
      ∃ p : Path, v = p.node ∧ namedIn s = p.evidenceIds ++ namedIn t := by
  unfold path
  refine Scans.bind scans_take_word fun w t ht => ?_
  rw [hword, List.cons.injEq, Token.word.injEq] at ht
  obtain ⟨rfl, ht⟩ := ht
  refine Scans.of_take_symbol (c := .scalar '.') rfl fun x hx => ?_
  refine Scans.bind scans_take_word fun word y hy => ?_
  refine Scans.bind (@path_segments_scans source y _ [.member word]) ?_
  rintro _ z ⟨⟨more, rfl⟩, hz⟩
  refine Scans.pure ⟨⟨root, word, more⟩, rfl, ?_⟩
  rw [hz, namedIn, hword, ht, ← hx, tokens_symbol (by decide), hy]
  exact named_path ⟨root, word, more⟩ (tokens y)

theorem operand_scans : Scans source s (operand source) fun v t =>
    ∃ o : Operand, v = o.node ∧ namedIn s = o.evidenceIds ++ namedIn t := by
  unfold operand
  refine Scans.of_skip fun s' hs' => ?_
  have hliteral : ∀ {v : Value} {t : Str}, IsLiteral v → namedIn t = namedIn s →
      ∃ o : Operand, literal_node v = o.node ∧ namedIn s = o.evidenceIds ++ namedIn t := by
    rintro _ t ⟨l, rfl⟩ ht
    exact ⟨.literal l, rfl, ht.symm⟩
  have hrest : ∀ u, tokens u = tokens s → Scans source u (literalOperand source) fun v t =>
      ∃ o : Operand, v = o.node ∧ namedIn s = o.evidenceIds ++ namedIn t := by
    intro u hu
    unfold literalOperand
    refine Scans.of_peek_symbol (c := .scalar '"') rfl (fun x hx => ?_) fun x hx => ?_
    · rw [if_pos rfl]
      refine Scans.bind string_literal_scans fun text y hy => Scans.pure ?_
      exact hliteral ⟨.str text, rfl⟩ (namedIn_text ((hx.trans hu).symm.trans hy))
    · refine Scans.of_peek_symbol (c := .scalar '[') rfl (fun y hy => ?_) fun y hy => ?_
      · rw [if_pos rfl]
        refine Scans.bind list_literal_scans ?_
        rintro _ z ⟨⟨ls, rfl⟩, hz⟩
        refine Scans.pure (hliteral ⟨.list ls, rfl⟩ ?_)
        exact hz.trans (namedIn_congr (hy.trans (hx.trans hu)))
      · refine Scans.of_skip fun z hz => Scans.of_remaining ?_
        split
        · rename_i text htext
          refine Scans.bind (integer_scans htext) fun v w hw => Scans.pure (hliteral hw.1 ?_)
          exact hw.2.trans (namedIn_congr (hz.trans (hy.trans (hx.trans hu))))
        · exact scans_fail_here
  have hword : ∀ (b : Bool) (w u : Str), tokens s' = .word w :: tokens u →
      w ∉ [lit "evidence", lit "fresh", lit "present"] →
      Scans source (w ++ u) (do advance w.length; pure (literal_node (.bool b))) fun v t =>
        ∃ o : Operand, v = o.node ∧ namedIn s = o.evidenceIds ++ namedIn t := by
    intro b w u hu hw
    refine Scans.of_advance ?_
    rw [List.drop_left]
    exact Scans.pure (hliteral ⟨.bool b, rfl⟩ (namedIn_plain_word (hs' ▸ hu) hw))
  refine Scans.of_peek_word (fun u hu => ?_) fun w u hu htokens => ?_
  · exact hrest u (hu.trans hs')
  · by_cases hroot : w ∈ PATH_ROOTS
    · obtain ⟨root, rfl⟩ := root_of_mem hroot
      rw [if_pos (by simpa using hroot)]
      refine (path_scans (hu.trans htokens)).mono ?_
      rintro _ t ⟨p, rfl, ht⟩
      refine ⟨.path p, rfl, ?_⟩
      rw [← namedIn_congr (hu.trans hs')]
      exact ht
    · rw [if_neg (by simpa using hroot)]
      by_cases htrue : w = lit "true"
      · rw [if_pos (congrArg some htrue)]
        subst htrue
        exact hword true _ u htokens (by simp)
      · rw [if_neg (fun h => htrue (Option.some.inj h))]
        by_cases hfalse : w = lit "false"
        · rw [if_pos (congrArg some hfalse)]
          subst hfalse
          exact hword false _ u htokens (by simp)
        · rw [if_neg (fun h => hfalse (Option.some.inj h))]
          exact hrest _ (hu.trans hs')

/-! ## Predicates -/

/-- The step returns a tree, and the text that it reads names the ids of the tree. -/
def Names (s : Str) (v : Value) (t : Str) : Prop :=
  ∃ e : Expr, v = e.node ∧ namedIn s = e.evidenceIds ++ namedIn t

/-- Both ends of a call name nothing. -/
theorem scans_close {name : Str} {arity : String} {v : Value} :
    Scans source s (do
      reject_extra_arguments source name arity
      close_call source name arity
      pure v) fun w t => w = v ∧ namedIn t = namedIn s := by
  refine Scans.bind (Q := fun _ t => namedIn t = namedIn s) ?_ fun _ t ht => ?_
  · unfold reject_extra_arguments
    refine Scans.of_skip fun t ht => ?_
    refine Scans.of_peek_symbol (c := .scalar ',') rfl (fun u _ => ?_) fun u hu => ?_
    · exact Scans.of_position fun i => scans_type_fail
    · exact Scans.pure (namedIn_congr (hu.trans ht))
  · refine Scans.bind (Q := fun _ u => namedIn u = namedIn s) ?_ fun _ u hu => Scans.pure ⟨rfl, hu⟩
    unfold close_call
    refine Scans.of_skip fun u hu => ?_
    refine Scans.of_peek_symbol (c := .scalar ')') rfl (fun x hx => ?_)
      fun x _ => scans_type_fail_here
    have hclose := namedIn_symbol (hx.trans hu) (by decide) (by decide)
    exact Scans.of_advance (Scans.pure (hclose.trans ht))

theorem evidence_function_scans {name u : Str} (h : name = lit "fresh" ∨ name = lit "present")
    (hs : tokens s = .word name :: .symbol (.scalar '(') :: tokens u) :
    Scans source u (evidence_function source name) (Names s) := by
  unfold evidence_function
  refine Scans.of_skip fun t ht => Scans.of_position fun offset => ?_
  refine Scans.of_peek_word (fun x _ => scans_type_fail) fun word x _ htokens => ?_
  dsimp only
  by_cases hword : word ∈ KEYWORDS
  · rw [if_pos hword]
    exact scans_type_fail
  · rw [if_neg hword]
    refine Scans.of_advance ?_
    rw [List.drop_left]
    have hnamed : namedIn s = word :: namedIn x := by
      rw [namedIn, hs, ← ht, htokens, named_call h]
      rfl
    have hcall : ∀ y, tokens y = tokens x → Scans source y (do
        reject_extra_arguments source name "1"
        close_call source name "1"
        pure (.dict [("type", .str name), ("evidence_id", .str word)])) (Names s) := by
      intro y hy
      refine scans_close.mono ?_
      rintro _ z ⟨rfl, hz⟩
      rw [namedIn_congr hy] at hz
      rcases h with rfl | rfl
      · exact ⟨.fresh word, rfl, by rw [hnamed, hz]; rfl⟩
      · exact ⟨.present word, rfl, by rw [hnamed, hz]; rfl⟩
    refine Scans.of_skip fun y hy => ?_
    refine Scans.of_peek_symbol (c := .scalar '.') rfl (fun z hz => ?_) fun z hz => ?_
    · refine Scans.of_peek_symbol (c := .scalar '[') rfl (fun _ _ => ?_) fun _ _ => ?_ <;>
        exact scans_type_fail
    · refine Scans.of_peek_symbol (c := .scalar '[') rfl (fun _ _ => scans_type_fail) fun w hw => ?_
      exact hcall w (hw.trans (hz.trans hy))

theorem matches_function_scans :
    Scans source s (matches_function source) (Names s) := by
  unfold matches_function
  refine Scans.of_skip fun t ht => Scans.of_position fun offset => ?_
  refine Scans.of_peek_word (fun x _ => scans_type_fail) fun word x hx htokens => ?_
  by_cases hroot : word ∈ PATH_ROOTS
  · obtain ⟨root, rfl⟩ := root_of_mem hroot
    rw [if_neg (by simpa using hroot)]
    refine Scans.bind (path_scans (hx.trans htokens)) ?_
    rintro _ y ⟨p, rfl, hy⟩
    rw [namedIn_congr (hx.trans ht)] at hy
    refine Scans.of_skip fun z hz => ?_
    refine Scans.of_peek_symbol (c := .scalar ',') rfl (fun w hw => ?_)
      fun w _ => scans_type_fail_here
    have hcomma := namedIn_symbol (hw.trans hz) (by decide) (by decide)
    refine Scans.of_advance (Scans.of_skip fun a ha => Scans.of_position fun _ => ?_)
    refine Scans.of_peek_symbol (c := .scalar '"') rfl (fun b hb => ?_) fun b _ => scans_type_fail
    refine Scans.bind string_literal_scans fun pattern c hc => ?_
    refine scans_close.mono ?_
    rintro _ d ⟨rfl, hd⟩
    refine ⟨.matchesGlob p pattern, rfl, ?_⟩
    rw [hd, namedIn_text ((hb.trans ha).symm.trans hc)]
    exact hy.trans (congrArg _ hcomma.symm)
  · rw [if_pos (by simpa using hroot)]
    exact scans_type_fail

theorem function_scans (hword : ∃ w ∈ FUNCTIONS, ∃ u, tokens s = .word w :: tokens u) :
    Scans source s (function source) (Names s) := by
  unfold function
  obtain ⟨w, hmem, u, hu⟩ := hword
  refine Scans.bind scans_take_word fun name t ht => ?_
  rw [hu, List.cons.injEq, Token.word.injEq] at ht
  obtain ⟨rfl, ht⟩ := ht
  refine Scans.of_take_symbol (c := .scalar '(') rfl fun x hx => ?_
  have hs : tokens s = .word w :: .symbol (.scalar '(') :: tokens x := by
    rw [hu, ht, ← hx, tokens_symbol (by decide)]
  by_cases hname : w = lit "fresh" ∨ w = lit "present"
  · rw [if_pos hname]
    exact evidence_function_scans hname hs
  · rw [if_neg hname]
    have hw : w = lit "matches" := by
      simp only [FUNCTIONS, List.mem_cons, List.not_mem_nil, or_false] at hmem
      tauto
    have hnamed : namedIn x = namedIn s := by
      rw [namedIn, namedIn, hs, named_word (by rw [hw]; simp), named_symbol (by decide)]
    refine matches_function_scans.mono ?_
    rintro _ y ⟨e, rfl, hy⟩
    exact ⟨e, rfl, hnamed ▸ hy⟩

theorem membership_scans {operand : Value} {u : Str} (negated : Bool)
    (h : ∃ o : Operand, operand = o.node ∧ namedIn s = o.evidenceIds ++ namedIn u) :
    Scans source u (membership source operand (membershipText negated)) (Names s) := by
  obtain ⟨o, rfl, ho⟩ := h
  unfold membership
  refine Scans.of_skip fun t ht => ?_
  refine Scans.of_peek_symbol (c := .scalar '[') rfl (fun x hx => ?_)
    fun x _ => scans_type_fail_here
  refine Scans.bind list_literal_scans ?_
  rintro _ y ⟨⟨ls, rfl⟩, hy⟩
  refine Scans.pure ⟨.membership negated o ls, rfl, ?_⟩
  rw [ho, hy, namedIn_congr (hx.trans ht)]
  rfl

/-- An operator names nothing. -/
theorem Scans.of_comparison_operator {f : Option Str → Parser β}
    (hnone : ∀ t, namedIn t = namedIn s → Scans source t (f none) R)
    (hsome : ∀ (o : Operator) (t : Str), namedIn t = namedIn s →
      Scans source (o.text ++ t) (f (some o.text)) R) :
    Scans source s (comparison_operator source >>= f) R := by
  refine Scans.bind (Q := fun found t => found = COMPARISON_OPERATORS.find? (·.isPrefixOf t) ∧
    tokens t = tokens s) ?_ ?_
  · refine Scans.of_skip fun t ht => Scans.of_remaining ?_
    exact Scans.pure ⟨rfl, ht⟩
  · rintro _ t ⟨rfl, ht⟩
    cases hfind : COMPARISON_OPERATORS.find? (·.isPrefixOf t) with
    | none => exact hnone t (namedIn_congr ht)
    | some text =>
      obtain ⟨o, rfl⟩ := operator_of_mem (List.mem_of_find?_eq_some hfind)
      have hat : o.text.isPrefixOf t = true := (List.find?_eq_some_iff_append.mp hfind).1
      obtain ⟨u, rfl⟩ := List.isPrefixOf_iff_prefix.mp hat
      refine hsome o u ?_
      rw [← namedIn_congr ht, namedIn_append]
      cases o <;> decide

theorem operandComparison_scans : Scans source s (operandComparison source) (Names s) := by
  unfold operandComparison
  refine Scans.of_position fun start => ?_
  refine Scans.bind operand_scans fun left t hleft => ?_
  have hafter : ∀ u, namedIn u = namedIn t →
      ∃ o : Operand, left = o.node ∧ namedIn s = o.evidenceIds ++ namedIn u := by
    intro u hu
    obtain ⟨o, ho, hnamed⟩ := hleft
    exact ⟨o, ho, hu ▸ hnamed⟩
  refine Scans.of_take_keyword (fun u hu => ?_) fun u hu => ?_
  · have hnot := namedIn_plain_word hu (by simp)
    refine Scans.of_take_keyword (fun x hx => ?_) fun x _ => scans_fail_here
    exact membership_scans true (hafter x ((namedIn_plain_word hx (by simp)).trans hnot))
  · refine Scans.of_take_keyword (fun x hx => ?_) fun x hx => ?_
    · exact membership_scans false
        (hafter x ((namedIn_plain_word hx (by simp)).trans (namedIn_congr hu)))
    · refine Scans.of_comparison_operator (fun y _ => ?_) fun o y hy => ?_
      · exact Scans.of_position fun stop => scans_fail_at
      · refine Scans.of_position fun offset => Scans.of_advance ?_
        rw [List.drop_left]
        obtain ⟨l, rfl, hl⟩ := hafter y (hy.trans (namedIn_congr (hx.trans hu)))
        refine Scans.bind operand_scans ?_
        rintro _ z ⟨r, rfl, hr⟩
        refine Scans.bind (Q := fun _ w => namedIn w = namedIn z) ?_ fun _ w hw => ?_
        · unfold reject_chained_comparison
          exact Scans.of_comparison_operator (fun w hw => Scans.pure hw)
            fun _ _ _ => scans_fail_here
        · refine Scans.bind (Q := fun _ a => namedIn a = namedIn z) ?_ fun _ a ha => ?_
          · unfold check_literal_comparison
            split
            · split
              · exact scans_type_fail
              · split
                · exact scans_type_fail
                · exact Scans.pure hw
            · exact Scans.pure hw
          · refine Scans.pure ⟨.compare o l r, rfl, ?_⟩
            rw [hl, hr, ha]
            exact (List.append_assoc _ _ _).symm

theorem comparison_scans : Scans source s (comparison source) (Names s) := by
  unfold comparison
  refine Scans.of_peek_word (fun t ht => ?_) fun w t ht htokens => ?_
  · refine operandComparison_scans.mono ?_
    rintro v u ⟨e, rfl, hu⟩
    exact ⟨e, rfl, namedIn_congr ht ▸ hu⟩
  · have hcongr : ∀ v u, Names (w ++ t) v u → Names s v u := by
      rintro v u ⟨e, rfl, hu⟩
      exact ⟨e, rfl, namedIn_congr ht ▸ hu⟩
    by_cases hword : w ∈ FUNCTIONS
    · rw [if_pos (by simpa using hword)]
      exact (function_scans ⟨w, hword, t, ht.trans htokens⟩).mono hcongr
    · rw [if_neg (by simpa using hword)]
      exact operandComparison_scans.mono hcongr

/-! ## Connectives -/

theorem Names.of_eq {u : Str} {v : Value} {t : Str} (h : Names u v t) (hu : namedIn u = namedIn s) :
    Names s v t := by
  obtain ⟨e, rfl, ht⟩ := h
  exact ⟨e, rfl, hu ▸ ht⟩

theorem unnegated_scans {inner : Parser Value} (hinner : ∀ s, Scans source s inner (Names s)) :
    Scans source s (unnegated source inner) (Names s) := by
  unfold unnegated
  refine Scans.of_peek_symbol (c := .scalar '(') rfl (fun t ht => ?_) fun t ht => ?_
  · have hopen := namedIn_symbol ht (by decide) (by decide)
    rw [if_pos rfl]
    unfold parenthesized
    refine Scans.of_nesting fun depth => ?_
    by_cases hdeep : depth ≥ MAX_NESTING
    · rw [if_pos hdeep]
      exact scans_fail_here
    · rw [if_neg hdeep]
      refine Scans.of_advance (Scans.of_set_nesting (Scans.bind (hinner _) ?_))
      rintro _ u ⟨e, rfl, hu⟩
      refine Scans.of_set_nesting (Scans.of_take_symbol (c := .scalar ')') rfl fun x hx => ?_)
      refine Scans.pure ⟨e, rfl, ?_⟩
      rw [namedIn_symbol hx (by decide) (by decide), ← hopen]
      exact hu
  · exact comparison_scans.mono fun v u hu => hu.of_eq (namedIn_congr ht)

theorem not_expression_scans {inner : Parser Value}
    (hinner : ∀ s, Scans source s inner (Names s)) :
    Scans source s (not_expression source inner) (Names s) := by
  unfold not_expression
  refine Scans.of_take_keyword (fun t ht => ?_) fun t ht => ?_
  · have hnode : ∀ u, tokens u = tokens t → Scans source u (do
        let node ← unnegated source inner
        pure (.dict [("type", .str "not"), ("operand", node)])) (Names s) := by
      intro u hu
      refine Scans.bind (unnegated_scans hinner) ?_
      rintro _ x ⟨e, rfl, hx⟩
      refine Scans.pure ⟨.not e, rfl, ?_⟩
      rw [← namedIn_plain_word ht (by simp), ← namedIn_congr hu]
      exact hx
    refine Scans.of_peek_word (fun u hu => hnode u hu) fun word u hu _ => ?_
    by_cases hword : word = lit "not"
    · rw [if_pos (congrArg some hword)]
      exact scans_fail_here
    · rw [if_neg (fun h => hword (Option.some.inj h))]
      exact hnode _ hu
  · exact (unnegated_scans hinner).mono fun v u hu => hu.of_eq (namedIn_congr ht)

theorem allEvidenceIds_append (es fs : List Expr) :
    Expr.allEvidenceIds (es ++ fs) = Expr.allEvidenceIds es ++ Expr.allEvidenceIds fs := by
  induction es with
  | nil => rfl
  | cons e es ih => rw [List.cons_append, Expr.allEvidenceIds, ih, Expr.allEvidenceIds,
      List.append_assoc]

theorem more_operands_scans {keyword : Str} {item : Parser Value} {fuel : Nat} {u : Str}
    {es : List Expr} (hkeyword : keyword ∉ [lit "evidence", lit "fresh", lit "present"])
    (hitem : ∀ s, Scans source s item (Names s))
    (hu : namedIn s = Expr.allEvidenceIds es ++ namedIn u) :
    Scans source u (more_operands source keyword item fuel (Expr.nodes es)) fun vs t =>
      ∃ fs, vs = Expr.nodes fs ∧ namedIn s = Expr.allEvidenceIds fs ++ namedIn t := by
  induction fuel generalizing u es with
  | zero => exact scans_raise
  | succ fuel ih =>
    rw [more_operands]
    refine Scans.of_take_keyword (fun t ht => ?_) fun t ht => ?_
    · refine Scans.bind (hitem t) ?_
      rintro _ x ⟨e, rfl, hx⟩
      have hmore : namedIn s = Expr.allEvidenceIds (es ++ [e]) ++ namedIn x := by
        rw [hu, ← namedIn_plain_word ht hkeyword, hx, allEvidenceIds_append]
        simp [Expr.allEvidenceIds]
      have := ih hmore
      rwa [Expr.nodes_eq, List.map_append, List.map_singleton, ← Expr.nodes_eq] at this
    · exact Scans.pure ⟨es, rfl, by rw [hu, namedIn_congr ht]⟩

theorem connective_scans {keyword : Str} {item : Parser Value}
    (hkeyword : keyword ∉ [lit "evidence", lit "fresh", lit "present"])
    (hitem : ∀ s, Scans source s item (Names s))
    (hnode : ∀ es, ∃ e : Expr, .dict [("type", .str keyword), ("operands", .list (Expr.nodes es))] =
      e.node ∧ e.evidenceIds = Expr.allEvidenceIds es) :
    Scans source s (connective source keyword item) (Names s) := by
  unfold connective
  refine Scans.bind (hitem s) ?_
  rintro _ t ⟨e, rfl, ht⟩
  have hnames : namedIn s = Expr.allEvidenceIds [e] ++ namedIn t := by
    simpa [Expr.allEvidenceIds] using ht
  refine Scans.bind (more_operands_scans hkeyword hitem hnames) ?_
  rintro _ u ⟨es, rfl, hu⟩
  split
  · rename_i v heq
    refine Scans.pure ?_
    cases es with
    | nil => cases heq
    | cons f rest =>
      cases rest with
      | cons g rest => simp [Expr.nodes] at heq
      | nil =>
        simp only [Expr.nodes, List.cons.injEq, and_true] at heq
        rw [← heq]
        exact ⟨f, rfl, by simpa [Expr.allEvidenceIds] using hu⟩
  · obtain ⟨f, hf, hids⟩ := hnode es
    exact Scans.pure ⟨f, hf, hids.symm ▸ hu⟩

theorem or_expression_scans {levels : Nat} :
    Scans source s (or_expression source levels) (Names s) := by
  induction levels generalizing s with
  | zero => exact scans_raise
  | succ levels ih =>
    rw [or_expression]
    have hand : ∀ s, Scans source s
        (and_expression source (or_expression source levels)) (Names s) := by
      intro s
      refine connective_scans (by simp) (fun s => not_expression_scans fun s => ih) ?_
      exact fun es => ⟨.and es, rfl, rfl⟩
    refine connective_scans (by simp) hand ?_
    exact fun es => ⟨.or es, rfl, rfl⟩


/-- The whole text names the ids of the tree. -/
theorem parse_scans : Scans source source (parse source) fun v _ =>
    ∃ e : Expr, v = e.node ∧ namedIn source = e.evidenceIds := by
  have hend : ∀ s, Scans source s (at_end source) fun b t =>
      tokens t = tokens s ∧ (b = true → tokens s = []) := by
    intro s
    refine Scans.of_skip fun t ht => Scans.of_remaining (Scans.pure ⟨ht, fun hb => ?_⟩)
    rw [← ht, of_decide_eq_true hb, tokens]
  unfold parse
  refine Scans.bind (hend source) ?_
  rintro b t ⟨ht, -⟩
  cases b with
  | true => exact scans_fail_at
  | false =>
    refine Scans.bind or_expression_scans ?_
    rintro _ u ⟨e, rfl, hu⟩
    refine Scans.bind (hend u) ?_
    rintro b x ⟨-, hx⟩
    cases b with
    | false => exact scans_fail_here
    | true =>
      refine Scans.pure ⟨e, rfl, ?_⟩
      rw [← namedIn_congr ht, hu, namedIn, hx rfl, named, List.append_nil]

end Rules

/-- The collected ids depend on the node alone. -/
theorem evidenceIds_of_node {e f : Expr} (h : e.node = f.node) :
    e.evidenceIds.foldl appendNew [] = f.evidenceIds.foldl appendNew [] := by
  have he := collect_node e (max e.height f.height) [] (le_max_left _ _)
  have hf := collect_node f (max e.height f.height) [] (le_max_right _ _)
  rw [h, hf] at he
  exact (Except.ok.inj he).symm

/-- A parsed expression lists the ids that its text names. -/
theorem evidence_ids_of_text {source : Str} {parsed : ParsedExpression}
    (h : parse_expression (.str source) = .ok parsed) :
    parsed.evidence_ids = (namedIn source).foldl appendNew [] := by
  have hsat : (parsing source).Sat Answers (fun _ => True) fun parsed =>
      parsed.evidence_ids = (namedIn source).foldl appendNew [] := by
    unfold parsing
    have hnode : (parse source { position := 0, nesting := 0 }).Sat Answers (fun _ => True)
        fun r => IsNode HEIGHT r.1 :=
      (parse_reads _ ⟨rfl, le_rfl, Nat.zero_le _⟩).mono (fun _ _ => trivial) fun _ hr => hr.1
    refine Prog.Sat.bind (hnode.and (parse_scans _ rfl)) ?_
    rintro ⟨tree, cursor⟩ ⟨⟨e, rfl, he⟩, f, hf, hids⟩
    simp only [collect_node e _ [] (he.trans (by decide) : e.height ≤ schema.FRAMES)]
    refine Prog.Sat.bind (Q := fun ids => ids = e.evidenceIds.foldl appendNew [])
      (lift_sat (fun _ h => by cases h) fun ids h => (Except.ok.inj h).symm) fun ids hcollected => ?_
    refine Prog.Sat.bind (Q := fun _ => True)
      (lift_sat (fun _ _ => trivial) fun _ _ => trivial) fun t _ => ?_
    refine Prog.Sat.bind (Q := fun _ => True) ?_ fun _ _ => ?_
    · exact Prog.sat_true _
    · show ids = _
      rw [hcollected, evidenceIds_of_node hf, hids]
  rcases outcome_sat hsat with ⟨parsed', hp, hids⟩ | ⟨x, hx, -⟩
  · rw [parse_expression, hp] at h
    exact Except.ok.inj h ▸ hids
  · rw [parse_expression, hx] at h
    cases h

end vfy.expr
