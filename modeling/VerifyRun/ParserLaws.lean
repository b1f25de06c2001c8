-- What the expression parser returns and raises: every value that it returns
-- is the value of a tree, it raises only failures that can be reported, and
-- its loops never run out of fuel.
import VerifyRun.RoundTrip
import VerifyRun.Tree

namespace vfy.expr

open calls python outcomes

/-! ## The cursor stays in the source -/

/-- The cursor is at this nesting, at `m` or after it, and so many characters
are before the end of the source. -/
structure Ahead (source : Str) (d m n : Nat) (cursor : Cursor) : Prop where
  nesting : cursor.nesting = d
  lower : m ≤ cursor.position
  upper : cursor.position + n ≤ source.length

theorem Ahead.weaken {source : Str} {d m n m' n' : Nat} {cursor : Cursor}
    (h : Ahead source d m n cursor) (hm : m' ≤ m) (hn : n' ≤ n) :
    Ahead source d m' n' cursor :=
  ⟨h.nesting, hm.trans h.lower, by have := h.upper; omega⟩

/-- Where `n` characters are left, the step reads at least `k`, returns a `Q`,
and raises only what can be reported. -/
def Reads (source : Str) (d m n k : Nat) {α : Type} (p : Parser α) (Q : α → Prop) : Prop :=
  Prog.Triple Answers Exn.Reportable (Ahead source d m n) p fun a cursor =>
    Q a ∧ Ahead source d (m + k) 0 cursor

section Rules

variable {source : Str} {d m n k l : Nat} {α β : Type} {Q : α → Prop} {R : β → Prop}

theorem Reads.pure {a : α} (h : Q a) : Reads source d m n 0 (pure a) Q :=
  Prog.Triple.pure fun _ hs => ⟨h, hs.weaken le_rfl (Nat.zero_le n)⟩

theorem Reads.bind {p : Parser α} {f : α → Parser β} (hp : Reads source d m n k p Q)
    (hf : ∀ a, Q a → Reads source d (m + k) 0 l (f a) R) :
    Reads source d m n (k + l) (p >>= f) R := by
  refine Prog.Triple.bind hp fun a => Prog.Triple.of_imp fun ha => ?_
  have := hf a ha
  rwa [Reads, Nat.add_assoc] at this

theorem Reads.mono {p : Parser α} {Q' : α → Prop} (h : Reads source d m n k p Q) {n' k' : Nat}
    (hn : n ≤ n') (hk : k' ≤ k) (hQ : ∀ a, Q a → Q' a) : Reads source d m n' k' p Q' :=
  Prog.Triple.mono h (fun _ hs => hs.weaken le_rfl hn) fun a _ hs =>
    ⟨hQ a hs.1, hs.2.weaken (by omega) le_rfl⟩

/-- The same step, where more characters are left or fewer are asked for. -/
theorem Reads.less {p : Parser α} (h : Reads source d m n k p Q) {n' k' : Nat}
    (hn : n ≤ n') (hk : k' ≤ k) : Reads source d m n' k' p Q :=
  h.mono hn hk fun _ ha => ha

theorem reads_raise {e : Exn} (h : e.Reportable) :
    Reads source d m n k (fun _ => raise e) Q :=
  Prog.Triple.throw h

theorem reportable_parse_error {message : Str} (h : Encodable message) (expected : Str)
    (offset : Nat) (token : Str) :
    (parse_error source message expected offset token).Reportable := ⟨_, rfl, h⟩

theorem reportable_type_error {message : Str} (h : Encodable message) (offset : Nat)
    (token : Str) : (type_error source message offset token).Reportable := ⟨_, rfl, h⟩

theorem reads_fail_at {message expected : Str} {offset : Nat} {token : Str}
    (h : Encodable message) :
    Reads source d m n k (fail_at source message expected offset token) Q :=
  reads_raise (reportable_parse_error h _ _ _)

theorem reads_fail_here {message expected : Str} (h : Encodable message) :
    Reads source d m n k (fail_here source message expected) Q :=
  fun _ _ => reportable_parse_error h _ _ _

theorem reads_type_fail {message : Str} {offset : Nat} {token : Str} (h : Encodable message) :
    Reads source d m n k (type_fail source message offset token) Q :=
  reads_raise (reportable_type_error h _ _)

theorem reads_type_fail_here {message : Str} (h : Encodable message) :
    Reads source d m n k (type_fail_here source message) Q :=
  fun _ _ => reportable_type_error h _ _

theorem reads_tooNested : Reads source d m n k (tooNested source) Q :=
  reads_fail_here (encodable_lit _)

/-! ## Steps of the cursor -/

theorem Reads.of_position {f : Nat → Parser β} (h : ∀ i, Reads source d m n k (f i) R) :
    Reads source d m n k (position >>= f) R :=
  Prog.Triple.bind (S := fun _ => Ahead source d m n) (fun _ hs => hs) h

theorem Reads.of_nesting {f : Nat → Parser β} (h : Reads source d m n k (f d) R) :
    Reads source d m n k (nesting >>= f) R := by
  refine Prog.Triple.bind (S := fun i cursor => i = d ∧ Ahead source d m n cursor)
    (fun s hs => ⟨hs.nesting, hs⟩) fun i => Prog.Triple.of_imp ?_
  rintro rfl
  exact h

theorem Reads.of_remaining {f : Str → Parser β}
    (h : ∀ rest : Str, n ≤ rest.length → Reads source d m rest.length k (f rest) R) :
    Reads source d m n k (remaining source >>= f) R := by
  refine Prog.Triple.bind (S := fun rest cursor => n ≤ rest.length ∧
    Ahead source d m rest.length cursor) (fun s hs => ?_) fun rest => Prog.Triple.of_imp (h rest)
  have := hs.upper
  show n ≤ (from_ source s.position).length ∧ Ahead source d m (from_ source s.position).length s
  unfold from_
  rw [List.length_drop]
  exact ⟨by omega, hs.nesting, hs.lower, by omega⟩

theorem reads_advance {i : Nat} (hi : i ≤ n) : Reads source d m n i (advance i) fun _ => True := by
  refine Prog.Triple.modify fun s hs => ⟨trivial, hs.nesting, Nat.add_le_add_right hs.lower i, ?_⟩
  have := hs.upper
  show s.position + i + 0 ≤ source.length
  omega

theorem reads_skip_whitespace :
    Reads source d m n 0 (skip_whitespace source) fun _ => True := by
  refine Reads.of_remaining fun rest _ => ?_
  have hle : (rest.takeWhile isWhitespace).length ≤ rest.length :=
    (List.takeWhile_prefix _).length_le
  exact (reads_advance hle).less le_rfl (Nat.zero_le _)

theorem Reads.of_skip {f : Unit → Parser β} (h : Reads source d m 0 k (f ()) R) :
    Reads source d m n k (skip_whitespace source >>= f) R := by
  have := Reads.bind reads_skip_whitespace (fun _ _ => h) (n := n) (m := m)
  rwa [Nat.zero_add] at this

/-- Reading inside one more bracket. -/
theorem Reads.nested {p : Parser α} {f : α → Parser β} (hp : Reads source (d + 1) m n k p Q)
    (hf : ∀ a, Q a → Reads source d (m + k) 0 l (f a) R) :
    Reads source d m n (k + l) (do
      set_nesting (d + 1)
      let a ← p
      set_nesting d
      f a) R := by
  refine Prog.Triple.bind (S := fun _ => Ahead source (d + 1) m n) (Prog.Triple.modify
    fun s hs => ⟨rfl, hs.lower, hs.upper⟩) fun _ => ?_
  refine Prog.Triple.bind hp fun a => Prog.Triple.of_imp fun ha => ?_
  refine Prog.Triple.bind (S := fun _ => Ahead source d (m + k) 0) (Prog.Triple.modify
    fun s hs => ⟨rfl, hs.lower, hs.upper⟩) fun _ => ?_
  have := hf a ha
  rwa [Reads, Nat.add_assoc] at this

/-! ## Words and symbols -/

theorem wordOf_ok {s w : Str} (h : wordOf s = some w) :
    schema.is_identifier w = true ∧ w.length ≤ s.length := by
  unfold wordOf at h
  split at h
  · rename_i c rest
    split at h
    · rename_i hc
      cases h
      refine ⟨?_, ?_⟩
      · simp only [schema.is_identifier, hc, Bool.true_and, List.all_eq_true]
        exact fun d hd => List.mem_takeWhile_imp hd
      · simpa using (List.takeWhile_prefix schema.identifierPart).length_le
    · cases h
  · cases h

/-- What a look at the next word leaves. -/
def WordAhead (source : Str) (d m : Nat) (word : Option Str) (cursor : Cursor) : Prop :=
  (∀ w, word = some w → schema.is_identifier w = true) ∧
    Ahead source d m (word.elim 0 List.length) cursor

theorem peek_word_triple : Prog.Triple Answers Exn.Reportable (Ahead source d m n)
    (peek_word source) (WordAhead source d m) := by
  refine Prog.Triple.bind (S := fun _ => Ahead source d m 0)
    (Prog.Triple.mono reads_skip_whitespace (fun _ hs => hs) fun _ _ hs => hs.2) fun _ => ?_
  refine Prog.Triple.bind (S := fun rest cursor => rest = from_ source cursor.position ∧
    Ahead source d m 0 cursor) (fun s hs => ⟨rfl, hs⟩) fun rest => ?_
  refine Prog.Triple.pure fun s hs => ?_
  obtain ⟨rfl, hs⟩ := hs
  cases hw : wordOf (from_ source s.position) with
  | none => exact ⟨fun _ h => (by cases h), hs⟩
  | some w =>
    obtain ⟨hword, hlen⟩ := wordOf_ok hw
    refine ⟨fun w' h => Option.some.inj h ▸ hword, hs.nesting, hs.lower, ?_⟩
    have := hs.upper
    rw [from_, List.length_drop] at hlen
    show s.position + w.length ≤ source.length
    omega

theorem Reads.of_peek_word {f : Option Str → Parser β}
    (hnone : Reads source d m 0 k (f none) R)
    (hsome : ∀ w, schema.is_identifier w = true → Reads source d m w.length k (f (some w)) R) :
    Reads source d m n k (peek_word source >>= f) R := by
  refine Prog.Triple.bind peek_word_triple fun word => Prog.Triple.of_imp fun hw => ?_
  cases word with
  | none => exact hnone
  | some w => exact hsome w (hw w rfl)

theorem reads_take_word :
    Reads source d m n 1 (take_word source) fun w => schema.is_identifier w = true := by
  refine Reads.of_peek_word (reads_fail_here (by simp)) fun w hw => ?_
  have hpos : 1 ≤ w.length := by
    cases w with
    | nil => simp [schema.is_identifier] at hw
    | cons c rest => simp
  have hread : Reads source d m w.length (w.length + 0)
      (advance w.length >>= fun _ => pure w) fun w => schema.is_identifier w = true :=
    Reads.bind (reads_advance le_rfl) fun _ _ => Reads.pure hw
  exact hread.less le_rfl hpos

theorem peek_symbol_triple (symbol : Str) : Prog.Triple Answers Exn.Reportable
    (Ahead source d m n) (peek_symbol source symbol)
    fun b => Ahead source d m (if b then symbol.length else 0) := by
  refine Prog.Triple.bind (S := fun _ => Ahead source d m 0)
    (Prog.Triple.mono reads_skip_whitespace (fun _ hs => hs) fun _ _ hs => hs.2) fun _ => ?_
  refine Prog.Triple.bind (S := fun rest cursor => rest = from_ source cursor.position ∧
    Ahead source d m 0 cursor) (fun s hs => ⟨rfl, hs⟩) fun rest => ?_
  refine Prog.Triple.pure fun s hs => ?_
  obtain ⟨rfl, hs⟩ := hs
  by_cases hb : symbol.isPrefixOf (from_ source s.position) = true
  · rw [if_pos hb]
    have hlen := (List.isPrefixOf_iff_prefix.mp hb).length_le
    have := hs.upper
    rw [from_, List.length_drop] at hlen
    refine ⟨hs.nesting, hs.lower, ?_⟩
    omega
  · rw [if_neg hb]
    exact hs

theorem Reads.of_peek_symbol {symbol : Str} {f : Bool → Parser β}
    (htrue : Reads source d m symbol.length k (f true) R)
    (hfalse : Reads source d m 0 k (f false) R) :
    Reads source d m n k (peek_symbol source symbol >>= f) R := by
  refine Prog.Triple.bind (peek_symbol_triple symbol) fun b => ?_
  cases b with
  | true => exact htrue
  | false => exact hfalse

theorem reads_take_symbol {symbol expected : Str} (h : Encodable symbol) :
    Reads source d m n symbol.length (take_symbol source symbol expected) fun _ => True := by
  refine Reads.of_peek_symbol ?_ ?_
  · exact reads_advance le_rfl
  · exact reads_fail_here (by simp [h])

theorem Reads.of_take_symbol {symbol expected : Str} {f : Unit → Parser β} (h : Encodable symbol)
    (hf : Reads source d (m + symbol.length) 0 k (f ()) R) :
    Reads source d m n (symbol.length + k) (take_symbol source symbol expected >>= f) R :=
  Reads.bind (reads_take_symbol h) fun _ _ => hf

theorem Reads.of_advance {i : Nat} {f : Unit → Parser β} (hi : i ≤ n)
    (hf : Reads source d (m + i) (n - i) k (f ()) R) :
    Reads source d m n (i + k) (advance i >>= f) R := by
  refine Prog.Triple.bind (S := fun _ => Ahead source d (m + i) (n - i))
    (Prog.Triple.modify fun s hs => ⟨hs.nesting, Nat.add_le_add_right hs.lower i, ?_⟩) fun _ => ?_
  · have := hs.upper
    show s.position + i + (n - i) ≤ source.length
    omega
  · rwa [Reads, Nat.add_assoc] at hf

theorem Reads.of_take_keyword {word : Str} {f : Bool → Parser β}
    (htrue : Reads source d (m + word.length) 0 k (f true) R)
    (hfalse : Reads source d m 0 k (f false) R) :
    Reads source d m n k (take_keyword_if source word >>= f) R := by
  refine Prog.Triple.bind (S := fun b => Ahead source d (if b then m + word.length else m) 0)
    ?_ fun b => ?_
  · refine Prog.Triple.bind peek_word_triple fun w => Prog.Triple.of_imp fun _ => ?_
    by_cases hw : w = some word
    · subst hw
      rw [if_pos rfl]
      refine Prog.Triple.bind (Prog.Triple.mono (reads_advance (le_refl word.length))
        (fun _ hs => hs) fun _ _ hs => hs.2) fun _ => ?_
      exact Prog.Triple.pure fun _ hs => hs
    · rw [if_neg hw]
      exact Prog.Triple.pure fun _ hs => hs.weaken le_rfl (Nat.zero_le _)
  · cases b with
    | true =>
      exact Prog.Triple.mono htrue (fun _ hs => hs) fun _ _ hs =>
        ⟨hs.1, hs.2.weaken (by omega) le_rfl⟩
    | false => exact hfalse

theorem Reads.of_past_end {p : Parser α} (h : source.length < m) :
    Reads source d m n k p Q := by
  intro s hs
  have hlower := hs.lower
  have hupper := hs.upper
  omega

/-! ## Literals -/

theorem hexDigits_length {s : Str} {n : Nat} (h : hexDigits s = some n) : 4 ≤ s.length := by
  unfold hexDigits at h
  split at h
  · simp
  · cases h

theorem string_pieces_reads {start fuel : Nat} {pieces : Str} (hfuel : source.length < m + fuel) :
    Reads source d m n 0 (string_pieces source start fuel pieces) fun _ => True := by
  induction fuel generalizing m n pieces with
  | zero => exact Reads.of_past_end (by omega)
  | succ fuel ih =>
    have hnext : ∀ (i : Nat) (pieces : Str) (m n : Nat), source.length < m + fuel + 1 → 1 ≤ i →
        i ≤ n → Reads source d m n 0 (do advance i; string_pieces source start fuel pieces)
          fun _ => True := by
      intro i pieces m n hm hi hn
      exact (Reads.of_advance hn (ih (by omega))).less le_rfl (Nat.zero_le _)
    rw [string_pieces]
    refine Reads.of_remaining fun rest _ => ?_
    split
    · exact reads_fail_at (encodable_lit _)
    · refine (Reads.of_advance (k := 0) ?_ ?_).less le_rfl (Nat.zero_le _)
      · simp
      · exact Reads.pure trivial
    · exact reads_fail_here (encodable_lit _)
    · rename_i rest'
      refine (Reads.of_advance (k := 0) ?_ ?_).less le_rfl (Nat.zero_le _)
      · simp
      · split
        · exact reads_fail_here (encodable_lit _)
        · rename_i marker rest''
          split
          · exact hnext 1 _ _ _ (by omega) le_rfl (by simp)
          · split
            · split
              · exact reads_fail_here (encodable_lit _)
              · rename_i code_point hhex
                have hlen := hexDigits_length hhex
                split
                · exact reads_raise ⟨_, rfl, encodable_lit _⟩
                · exact hnext 5 _ _ _ (by omega) (by omega) (by simp; omega)
            · exact Reads.of_position fun i => reads_fail_at (encodable_lit _)
    · exact hnext 1 _ _ _ (by omega) le_rfl (by simp)

theorem string_literal_reads :
    Reads source d m n 1 (string_literal source) fun _ => True := by
  unfold string_literal
  refine Reads.of_skip (Reads.of_position fun start => ?_)
  exact Reads.of_take_symbol (k := 0) (encodable_lit _) (string_pieces_reads (by omega))

theorem digit_of_isDigit {c : CodePoint} (h : isDigit c = true) :
    ∃ ch : Char, c = .scalar ch ∧ ch.isDigit = true := by
  unfold isDigit re.digit? at h
  split at h
  · rename_i ch
    refine ⟨ch, rfl, ?_⟩
    by_cases hc : '0' ≤ ch ∧ ch ≤ '9'
    · simp only [Char.isDigit, Bool.and_eq_true, decide_eq_true_eq]
      exact hc
    · rw [if_neg hc] at h
      cases h
  · cases h

/-- The string is not empty and has only decimal digits. -/
def IsDigits (s : Str) : Prop := s ≠ [] ∧ ∀ c ∈ s, isDigit c = true

theorem indexOf_digits {s text : Str} (h : indexOf s = some text) :
    IsDigits text ∧ text.length ≤ s.length := by
  unfold indexOf at h
  split at h
  · rename_i c rest
    by_cases hzero : c = .scalar '0'
    · rw [if_pos hzero] at h
      cases h
      subst hzero
      exact ⟨⟨by simp, by simp [isDigit, re.digit?]⟩, by simp⟩
    · rw [if_neg hzero] at h
      split at h
      · rename_i hc
        cases h
        refine ⟨⟨by simp, ?_⟩, ?_⟩
        · intro d hd
          rcases List.mem_cons.mp hd with rfl | hd
          · exact hc
          · exact List.mem_takeWhile_imp hd
        · simpa using (List.takeWhile_prefix isDigit).length_le
      · cases h
  · cases h

theorem integerOf_length {s text : Str} (h : integerOf s = some text) :
    1 ≤ text.length ∧ text.length ≤ s.length := by
  have hindex : ∀ {s text : Str}, indexOf s = some text →
      1 ≤ text.length ∧ text.length ≤ s.length := by
    intro s text h
    obtain ⟨⟨hne, _⟩, hlen⟩ := indexOf_digits h
    exact ⟨List.length_pos_iff.mpr hne, hlen⟩
  unfold integerOf at h
  split at h
  · obtain ⟨digits, hdigits, rfl⟩ := Option.map_eq_some_iff.mp h
    have := hindex hdigits
    simp only [List.length_cons]
    omega
  · exact hindex h

/-- The characters of a string, where each of them is no surrogate. -/
def charsOf (s : Str) : Text := s.filterMap fun c =>
  match c with
  | .scalar ch => some ch
  | .surrogate _ => none

theorem decimalValue_digits {s : Str} (h : IsDigits s) :
    decimalValue (charsOf s) = (Nat.ofDigitChars 10 (charsOf s) 0 : Int) := by
  obtain ⟨hne, hs⟩ := h
  cases s with
  | nil => exact absurd rfl hne
  | cons c rest =>
    obtain ⟨ch, rfl, hch⟩ := digit_of_isDigit (hs c (by simp))
    unfold charsOf
    rw [List.filterMap_cons]
    unfold decimalValue
    split
    · rename_i heq
      simp only [List.cons.injEq] at heq
      rw [heq.1] at hch
      simp at hch
    · rfl

theorem Reads.of_int {text : Str} {f : Int → Parser β}
    (h : ∀ i, i = decimalValue (charsOf text) → Reads source d m n k (f i) R) :
    Reads source d m n k (int_of text >>= f) R :=
  Prog.Triple.bind (S := fun i s => i = decimalValue (charsOf text) ∧ Ahead source d m n s)
    (fun _ hs _ ho => ⟨ho, hs⟩) fun i => Prog.Triple.of_imp (h i)

/-- The values of literals. -/
def IsLiteral (v : Value) : Prop := ∃ l : Literal, v = l.value

def AreLiterals (vs : List Value) : Prop := ∃ ls, vs = Literal.values ls

theorem AreLiterals.snoc {vs : List Value} {v : Value} (hs : AreLiterals vs) (h : IsLiteral v) :
    AreLiterals (vs ++ [v]) := by
  obtain ⟨ls, rfl⟩ := hs
  obtain ⟨l, rfl⟩ := h
  exact ⟨ls ++ [l], by simp [Literal.values_eq]⟩

theorem integer_literal_reads {text : Str} (hlen : 1 ≤ text.length) (hn : text.length ≤ n) :
    Reads source d m n 1 (integer_literal source text) IsLiteral := by
  unfold integer_literal
  refine Reads.of_position fun offset => ?_
  refine (Reads.of_advance (k := 0) hn ?_).less le_rfl hlen
  dsimp only
  split
  · exact reads_fail_at (encodable_lit _)
  · refine Reads.of_int fun i _ => ?_
    split
    · exact reads_fail_at (encodable_lit _)
    · exact Reads.pure ⟨.int i, rfl⟩

/-- A member of a list that is not a word. -/
def literalMember (source : Str) (inner : Parser (List Value)) : Parser Value := do
  if ← peek_symbol source "\"" then do
    let text ← string_literal source
    pure (.str text)
  else if ← peek_symbol source "[" then do
    let members ← inner
    pure (.list members)
  else
    match integerOf (← remaining source) with
    | some text => integer_literal source text
    | none => fail_here source "A list holds literals only." "literal"

theorem list_member_reads {inner : Parser (List Value)}
    (hinner : ∀ m, Reads source d m 0 1 inner AreLiterals) :
    Reads source d m n 1 (list_member source inner) IsLiteral := by
  unfold list_member
  refine Reads.of_skip ?_
  have hrest : ∀ n, Reads source d m n 1 (literalMember source inner) IsLiteral := by
    intro n
    unfold literalMember
    refine Reads.of_peek_symbol ?_ (Reads.of_peek_symbol ?_ ?_)
    · exact Reads.bind string_literal_reads fun text _ => Reads.pure ⟨.str text, rfl⟩
    · rw [if_pos rfl]
      refine Reads.bind (l := 0) ((hinner m).less (Nat.zero_le _) le_rfl) ?_
      rintro _ ⟨ls, rfl⟩
      exact Reads.pure ⟨.list ls, rfl⟩
    · refine Reads.of_remaining fun rest _ => ?_
      split
      · rename_i text htext
        obtain ⟨hlen, hle⟩ := integerOf_length htext
        exact integer_literal_reads hlen hle
      · exact reads_fail_here (encodable_lit _)
  have hword : ∀ (i : Nat) (b : Bool) (w : Str), 1 ≤ i → w.length = i →
      Reads source d m w.length 1 (do advance i; pure (.bool b)) IsLiteral := by
    intro i b w hi hw
    refine (Reads.of_advance (k := 0) hw.ge ?_).less le_rfl hi
    exact Reads.pure ⟨.bool b, rfl⟩
  refine Reads.of_peek_word ?_ fun w _ => ?_
  · exact hrest 0
  · by_cases htrue : w = lit "true"
    · rw [if_pos (congrArg some htrue)]
      exact hword 4 true w (by omega) (by rw [htrue]; rfl)
    · rw [if_neg (fun h => htrue (Option.some.inj h))]
      by_cases hfalse : w = lit "false"
      · rw [if_pos (congrArg some hfalse)]
        exact hword 5 false w (by omega) (by rw [hfalse]; rfl)
      · rw [if_neg (fun h => hfalse (Option.some.inj h))]
        exact hrest _

theorem list_members_reads {inner : Parser (List Value)} {fuel : Nat}
    (hinner : ∀ m, Reads source d m 0 1 inner AreLiterals) {members : List Value}
    (hfuel : source.length < m + fuel) (hmembers : AreLiterals members) :
    Reads source d m n 0 (list_members source inner fuel members) AreLiterals := by
  induction fuel generalizing m n members with
  | zero => exact Reads.of_past_end (by omega)
  | succ fuel ih =>
    rw [list_members]
    refine (Reads.bind (l := 0) (list_member_reads hinner) fun v hv => ?_).less le_rfl (by omega)
    refine Reads.of_skip (Reads.of_peek_symbol ?_ ?_)
    · refine (Reads.of_advance (k := 0) (by simp [lit, ofText]) ?_).less le_rfl (Nat.zero_le _)
      refine Reads.of_skip (Reads.of_peek_symbol ?_ ?_)
      · exact reads_fail_here (encodable_lit _)
      · exact ih (by omega) (hmembers.snoc hv)
    · refine (Reads.of_take_symbol (k := 0) (encodable_lit _) ?_).less le_rfl (Nat.zero_le _)
      exact Reads.pure (hmembers.snoc hv)

theorem list_literal_reads {levels : Nat} (hd : d ≤ MAX_NESTING)
    (hlevels : MAX_NESTING < d + levels) :
    Reads source d m n 1 (list_literal source levels) AreLiterals := by
  induction levels generalizing d m n with
  | zero => omega
  | succ levels ih =>
    rw [list_literal]
    refine Reads.of_nesting ?_
    by_cases hdeep : d ≥ MAX_NESTING
    · rw [if_pos hdeep]
      exact reads_tooNested
    · rw [if_neg hdeep]
      refine Reads.of_take_symbol (k := 0) (encodable_lit _) ?_
      have hbody : ∀ m, Reads source (d + 1) m 0 0
          (list_body source (list_literal source levels)) AreLiterals := by
        intro m
        unfold list_body
        refine Reads.of_skip (Reads.of_peek_symbol ?_ ?_)
        · refine (Reads.of_advance (k := 0) (by simp [lit, ofText]) ?_).less le_rfl (Nat.zero_le _)
          exact Reads.pure ⟨[], rfl⟩
        · exact list_members_reads (fun m => ih (by omega) (by omega)) (by omega) ⟨[], rfl⟩
      exact Reads.nested (l := 0) (hbody _) fun members h => Reads.pure h

/-! ## Paths and operands -/

/-- The cursor is at a word. -/
def AtWord (source : Str) (d m : Nat) (word : Str) (cursor : Cursor) : Prop :=
  Ahead source d m word.length cursor ∧ wordOf (from_ source cursor.position) = some word

/-- A look at the next word, by one who reads it again. -/
theorem Reads.of_peek_word_at {f : Option Str → Parser β}
    (hnone : Reads source d m 0 k (f none) R)
    (hsome : ∀ w, Prog.Triple Answers Exn.Reportable (AtWord source d m w) (f (some w))
      fun a cursor => R a ∧ Ahead source d (m + k) 0 cursor) :
    Reads source d m n k (peek_word source >>= f) R := by
  refine Prog.Triple.bind (S := fun word cursor => Ahead source d m 0 cursor ∧
    ∀ w, word = some w → AtWord source d m w cursor) ?_ fun word => ?_
  · refine Prog.Triple.bind (S := fun _ => Ahead source d m 0)
      (Prog.Triple.mono reads_skip_whitespace (fun _ hs => hs) fun _ _ hs => hs.2) fun _ => ?_
    refine Prog.Triple.bind (S := fun rest cursor => rest = from_ source cursor.position ∧
      Ahead source d m 0 cursor) (fun s hs => ⟨rfl, hs⟩) fun rest => ?_
    refine Prog.Triple.pure fun s hs => ?_
    obtain ⟨rfl, hs⟩ := hs
    refine ⟨hs, fun w hw => ⟨⟨hs.nesting, hs.lower, ?_⟩, hw⟩⟩
    have hlen := (wordOf_ok hw).2
    have := hs.upper
    rw [from_, List.length_drop] at hlen
    omega
  · cases word with
    | none => exact fun s hs => hnone s hs.1
    | some w => exact fun s hs => hsome w s (hs.2 w rfl)

theorem not_isWhitespace_of_identifierStart {c : CodePoint}
    (h : schema.identifierStart c = true) : isWhitespace c = false := by
  by_contra hw
  simp only [isWhitespace, Bool.not_eq_false, decide_eq_true_eq] at hw
  rcases hw with rfl | rfl | rfl | rfl <;> revert h <;> decide

/-- The word that was seen is the word that is taken. -/
theorem take_word_at {w : Str} : Prog.Triple Answers Exn.Reportable (AtWord source d m w)
    (take_word source) fun w' cursor => w' = w ∧ Ahead source d (m + w.length) 0 cursor := by
  rintro s ⟨hs, hw⟩
  have hskip : (from_ source s.position).takeWhile isWhitespace = [] := by
    cases hrest : from_ source s.position with
    | nil => rfl
    | cons c rest =>
      rw [hrest, wordOf] at hw
      split at hw
      · rename_i hc
        rw [List.takeWhile_cons, not_isWhitespace_of_identifierStart hc]
        rfl
      · cases hw
  have hrun : take_word source s = .ret (w, { s with position := s.position + w.length }) := by
    show Prog.bind _ _ = _
    simp only [peek_word, skip_whitespace, remaining, advance, bind, StateT.bind, get, getThe,
      MonadStateOf.get, StateT.get, pure, StateT.pure, modify, modifyGet, MonadStateOf.modifyGet,
      StateT.modifyGet, Prog.bind, hskip, List.length_nil, Nat.add_zero, hw]
  rw [hrun]
  refine ⟨rfl, hs.nesting, Nat.add_le_add_right hs.lower _, ?_⟩
  exact hs.upper

def IsPath (v : Value) : Prop := ∃ p : Path, v = p.node

theorem path_segments_reads {fuel : Nat} {segments : List Segment}
    (hfuel : source.length < m + fuel) :
    Reads source d m n 0 (path_segments source fuel (segments.map Segment.node)) fun vs =>
      ∃ more : List Segment, vs = (segments ++ more).map Segment.node := by
  induction fuel generalizing m n segments with
  | zero => exact Reads.of_past_end (by omega)
  | succ fuel ih =>
    have hmore : ∀ (segment : Segment) (m n : Nat), source.length < m + fuel →
        Reads source d m n 0
          (path_segments source fuel (segments.map Segment.node ++ [segment.node])) fun vs =>
            ∃ more : List Segment, vs = (segments ++ more).map Segment.node := by
      intro segment m n hm
      have hread := @ih m n (segments ++ [segment]) hm
      rw [List.map_append, List.map_singleton] at hread
      refine hread.mono le_rfl le_rfl ?_
      rintro _ ⟨more, rfl⟩
      exact ⟨segment :: more, by simp⟩
    rw [path_segments]
    refine Reads.of_peek_symbol ?_ (Reads.of_peek_symbol ?_ ?_)
    · refine (Reads.of_advance (k := 0) (by simp [lit, ofText]) ?_).less le_rfl (Nat.zero_le _)
      refine (Reads.bind (l := 0) (reads_take_word.less (Nat.zero_le _) le_rfl) ?_).less
        le_rfl (Nat.zero_le _)
      exact fun w _ => hmore (.member w) _ _ (by omega)
    · rw [if_pos rfl]
      refine (Reads.of_advance (k := 0) (by simp [lit, ofText]) ?_).less le_rfl (Nat.zero_le _)
      refine Reads.of_skip (Reads.of_remaining fun rest _ => ?_)
      split
      · exact reads_fail_here (encodable_lit _)
      · rename_i text htext
        obtain ⟨hdigits, hlen⟩ := indexOf_digits htext
        refine (Reads.of_advance (k := 0) hlen ?_).less le_rfl (Nat.zero_le _)
        refine Reads.of_int fun i hi => ?_
        rw [decimalValue_digits hdigits] at hi
        subst hi
        refine (Reads.of_take_symbol (k := 0) (encodable_lit _) ?_).less le_rfl (Nat.zero_le _)
        exact hmore (.index _) _ _ (by omega)
    · exact Reads.pure ⟨[], by simp⟩

theorem path_at {w : Str} {root : Root} (hw : w = root.text) :
    Prog.Triple Answers Exn.Reportable (AtWord source d m w) (path source) fun v cursor =>
      IsPath v ∧ Ahead source d (m + 1) 0 cursor := by
  subst hw
  unfold path
  refine Prog.Triple.bind take_word_at fun w' => Prog.Triple.of_imp ?_
  rintro rfl
  have hpos : 1 ≤ root.text.length := by cases root <;> simp [Root.text, lit, ofText]
  have hrest : Reads source d (m + root.text.length) 0 0 (do
      take_symbol source "." "dot"
      let word ← take_word source
      let segments ← path_segments source (source.length + 1) [.dict [("member", .str word)]]
      pure (.dict [("type", .str "path"), ("root", .str root.text),
        ("segments", .list segments)])) IsPath := by
    refine (Reads.of_take_symbol (k := 0) (encodable_lit _) ?_).less le_rfl (Nat.zero_le _)
    refine (Reads.bind (l := 0) (reads_take_word.less (Nat.zero_le _) le_rfl) ?_).less
      le_rfl (Nat.zero_le _)
    intro word _
    have hsegments : ∀ m n, source.length < m + (source.length + 1) →
        Reads source d m n 0 (path_segments source (source.length + 1) [Segment.node (.member word)])
          fun vs => ∃ more : List Segment, vs = (.member word :: more).map Segment.node :=
      fun m n hm => @path_segments_reads source d m n _ [.member word] hm
    refine (Reads.bind (k := 0) (l := 0) (hsegments _ _ (by omega)) ?_).less le_rfl (Nat.zero_le _)
    rintro _ ⟨more, rfl⟩
    exact Reads.pure ⟨⟨root, word, more⟩, rfl⟩
  refine Prog.Triple.mono hrest (fun _ hs => hs) fun _ _ hs => ⟨hs.1, hs.2.weaken ?_ le_rfl⟩
  omega

def IsOperand (v : Value) : Prop := ∃ o : Operand, v = o.node

theorem root_of_mem {w : Str} (h : w ∈ PATH_ROOTS) : ∃ root : Root, w = root.text := by
  simp only [PATH_ROOTS, List.mem_cons, List.not_mem_nil, or_false] at h
  rcases h with rfl | rfl | rfl
  · exact ⟨.candidate, rfl⟩
  · exact ⟨.evidence, rfl⟩
  · exact ⟨.identity, rfl⟩

theorem isOperand_literal {v : Value} (h : IsLiteral v) : IsOperand (literal_node v) := by
  obtain ⟨l, rfl⟩ := h
  exact ⟨.literal l, rfl⟩

/-- An operand that is not a word. -/
def literalOperand (source : Str) : Parser Value := do
  if ← peek_symbol source "\"" then do
    let text ← string_literal source
    pure (literal_node (.str text))
  else if ← peek_symbol source "[" then do
    let members ← list_literal source LEVELS
    pure (literal_node (.list members))
  else do
    skip_whitespace source
    match integerOf (← remaining source) with
    | some text => do
      let value ← integer_literal source text
      pure (literal_node value)
    | none => fail_here source "An operand was expected." "operand"

theorem operand_reads (hd : d ≤ MAX_NESTING) :
    Reads source d m n 1 (operand source) IsOperand := by
  unfold operand
  refine Reads.of_skip ?_
  have hrest : ∀ n, Reads source d m n 1 (literalOperand source) IsOperand := by
    intro n
    unfold literalOperand
    refine Reads.of_peek_symbol ?_ (Reads.of_peek_symbol ?_ ?_)
    · rw [if_pos rfl]
      refine Reads.bind (l := 0) (string_literal_reads.less (Nat.zero_le _) le_rfl) fun text _ => ?_
      exact Reads.pure (isOperand_literal ⟨.str text, rfl⟩)
    · rw [if_pos rfl]
      have hlevels : MAX_NESTING < d + LEVELS := by unfold LEVELS; omega
      refine Reads.bind (l := 0) (list_literal_reads hd hlevels) ?_
      rintro _ ⟨ls, rfl⟩
      exact Reads.pure (isOperand_literal ⟨.list ls, rfl⟩)
    · refine Reads.of_skip (Reads.of_remaining fun rest _ => ?_)
      split
      · rename_i text htext
        obtain ⟨hlen, hle⟩ := integerOf_length htext
        refine Reads.bind (l := 0) (integer_literal_reads hlen hle) fun v hv => ?_
        exact Reads.pure (isOperand_literal hv)
      · exact reads_fail_here (encodable_lit _)
  have hword : ∀ (i : Nat) (b : Bool) (w : Str), 1 ≤ i → w.length = i →
      Reads source d m w.length 1 (do advance i; pure (literal_node (.bool b))) IsOperand := by
    intro i b w hi hw
    refine (Reads.of_advance (k := 0) hw.ge ?_).less le_rfl hi
    exact Reads.pure (isOperand_literal ⟨.bool b, rfl⟩)
  refine Reads.of_peek_word_at ?_ fun w => ?_
  · exact hrest 0
  · by_cases hroot : w ∈ PATH_ROOTS
    · obtain ⟨root, hw⟩ := root_of_mem hroot
      rw [if_pos (by simpa using hroot)]
      refine Prog.Triple.mono (path_at hw) (fun _ hs => hs) ?_
      rintro _ _ ⟨⟨p, rfl⟩, hs⟩
      exact ⟨⟨.path p, rfl⟩, hs⟩
    · rw [if_neg (by simpa using hroot)]
      refine Prog.Triple.mono (P := Ahead source d m w.length) ?_ (fun _ hs => hs.1)
        fun _ _ hs => hs
      by_cases htrue : w = lit "true"
      · rw [if_pos (congrArg some htrue)]
        exact hword 4 true w (by omega) (by rw [htrue]; rfl)
      · rw [if_neg (fun h => htrue (Option.some.inj h))]
        by_cases hfalse : w = lit "false"
        · rw [if_pos (congrArg some hfalse)]
          exact hword 5 false w (by omega) (by rw [hfalse]; rfl)
        · rw [if_neg (fun h => hfalse (Option.some.inj h))]
          exact hrest _

/-! ## Predicates -/

/-- The value of a tree of at most so great a height. -/
def IsNode (h : Nat) (v : Value) : Prop := ∃ e : Expr, v = e.node ∧ e.height ≤ h

theorem reject_extra_arguments_reads {name : Str} {arity : String} (h : Encodable name) :
    Reads source d m n 0 (reject_extra_arguments source name arity) fun _ => True := by
  unfold reject_extra_arguments
  refine Reads.of_skip (Reads.of_peek_symbol ?_ ?_)
  · exact Reads.of_position fun i => reads_type_fail (by simp [arity_message, h])
  · exact Reads.pure trivial

theorem close_call_reads {name : Str} {arity : String} (h : Encodable name) :
    Reads source d m n 0 (close_call source name arity) fun _ => True := by
  unfold close_call
  refine Reads.of_skip (Reads.of_peek_symbol ?_ ?_)
  · exact (reads_advance (by simp [lit, ofText])).less le_rfl (Nat.zero_le _)
  · exact reads_type_fail_here (by simp [arity_message, h])

/-- Both ends of a call: no further argument, and the closing parenthesis. -/
theorem reads_close {name : Str} {arity : String} {v : α} (h : Encodable name) (hv : Q v) :
    Reads source d m n 0 (do
      reject_extra_arguments source name arity
      close_call source name arity
      pure v) Q :=
  Reads.bind (k := 0) (l := 0) (reject_extra_arguments_reads h) fun _ _ =>
    Reads.bind (k := 0) (l := 0) (close_call_reads h) fun _ _ => Reads.pure hv

theorem evidence_function_reads {name : Str} (h : name = lit "fresh" ∨ name = lit "present") :
    Reads source d m n 0 (evidence_function source name) (IsNode 2) := by
  have hname : Encodable name := by rcases h with rfl | rfl <;> exact encodable_lit _
  unfold evidence_function
  refine Reads.of_skip (Reads.of_position fun offset => ?_)
  refine Reads.of_peek_word ?_ fun word _ => ?_
  · exact reads_type_fail (by simp [hname])
  · dsimp only
    by_cases hword : word ∈ KEYWORDS
    · rw [if_pos hword]
      exact reads_type_fail (by simp [hname])
    · rw [if_neg hword]
      refine (Reads.of_advance (k := 0) le_rfl ?_).less le_rfl (Nat.zero_le _)
      have hcall : Reads source d (m + word.length) 0 0 (do
          reject_extra_arguments source name "1"
          close_call source name "1"
          pure (.dict [("type", .str name), ("evidence_id", .str word)])) (IsNode 2) := by
        refine reads_close hname ?_
        rcases h with rfl | rfl
        · exact ⟨.fresh word, rfl, by simp [Expr.height]⟩
        · exact ⟨.present word, rfl, by simp [Expr.height]⟩
      refine Reads.of_skip (Reads.of_peek_symbol ?_ ?_)
      · refine Reads.of_peek_symbol ?_ ?_ <;> exact reads_type_fail (by simp [hname])
      · refine Reads.of_peek_symbol ?_ ?_
        · exact reads_type_fail (by simp [hname])
        · exact hcall

theorem matches_function_reads :
    Reads source d m n 0 (matches_function source) (IsNode 2) := by
  unfold matches_function
  refine Reads.of_skip (Reads.of_position fun offset => ?_)
  refine Reads.of_peek_word_at ?_ fun word => ?_
  · exact reads_type_fail (encodable_lit _)
  · by_cases hroot : word ∈ PATH_ROOTS
    · obtain ⟨root, hw⟩ := root_of_mem hroot
      rw [if_neg (by simpa using hroot)]
      refine Prog.Triple.bind (path_at hw) fun v => Prog.Triple.of_imp ?_
      rintro ⟨p, rfl⟩
      have hrest : Reads source d (m + 1) 0 0 (do
          skip_whitespace source
          if ¬ (← peek_symbol source ",") then
            type_fail_here source "`matches` takes exactly 2 arguments."
          else do
            advance 1
            skip_whitespace source
            let pattern_offset ← position
            if ¬ (← peek_symbol source "\"") then
              type_fail source "`matches` takes a string pattern as its second argument."
                pattern_offset (character_at source pattern_offset)
            else do
              let pattern ← string_literal source
              reject_extra_arguments source "matches" "2"
              close_call source "matches" "2"
              pure (.dict [("type", .str "matches"), ("path", p.node), ("pattern", .str pattern)]))
          (IsNode 2) := by
        refine Reads.of_skip (Reads.of_peek_symbol ?_ ?_)
        · refine (Reads.of_advance (k := 0) (by simp [lit, ofText]) ?_).less le_rfl (Nat.zero_le _)
          refine Reads.of_skip (Reads.of_position fun offset => Reads.of_peek_symbol ?_ ?_)
          · refine (Reads.bind (l := 0) (string_literal_reads.less (Nat.zero_le _) le_rfl)
              fun pattern _ => ?_).less le_rfl (Nat.zero_le _)
            exact reads_close (encodable_lit _) ⟨.matchesGlob p pattern, rfl, le_rfl⟩
          · exact reads_type_fail (encodable_lit _)
        · exact reads_type_fail_here (encodable_lit _)
      exact Prog.Triple.mono hrest (fun _ hs => hs) fun _ _ hs =>
        ⟨hs.1, hs.2.weaken (by omega) le_rfl⟩
    · rw [if_pos (by simpa using hroot)]
      exact Prog.Triple.throw (reportable_type_error (encodable_lit _) _ _)

theorem function_reads : Reads source d m n 1 (function source) (IsNode 2) := by
  unfold function
  refine Reads.bind (l := 0) reads_take_word fun name _ => ?_
  refine (Reads.of_take_symbol (k := 0) (encodable_lit _) ?_).less le_rfl (Nat.zero_le _)
  by_cases hname : name = lit "fresh" ∨ name = lit "present"
  · rw [if_pos hname]
    exact evidence_function_reads hname
  · rw [if_neg hname]
    exact matches_function_reads

theorem membership_reads {operand : Value} (negated : Bool) (hd : d ≤ MAX_NESTING)
    (h : IsOperand operand) :
    Reads source d m n 0 (membership source operand (membershipText negated)) (IsNode 2) := by
  obtain ⟨o, rfl⟩ := h
  unfold membership
  refine Reads.of_skip (Reads.of_peek_symbol ?_ ?_)
  · have hlevels : MAX_NESTING < d + LEVELS := by unfold LEVELS; omega
    refine (Reads.bind (l := 0) (list_literal_reads hd hlevels) ?_).less le_rfl (Nat.zero_le _)
    rintro _ ⟨ls, rfl⟩
    exact Reads.pure ⟨.membership negated o ls, rfl, le_rfl⟩
  · refine reads_type_fail_here ?_
    cases negated <;> simp [membershipText]

/-- The operators that the source compares with. -/
theorem operator_of_mem {text : Str} (h : text ∈ COMPARISON_OPERATORS) :
    ∃ o : Operator, text = o.text := by
  simp only [COMPARISON_OPERATORS, List.mem_cons, List.not_mem_nil, or_false] at h
  rcases h with rfl | rfl | rfl | rfl | rfl | rfl
  · exact ⟨.eq, rfl⟩
  · exact ⟨.ne, rfl⟩
  · exact ⟨.le, rfl⟩
  · exact ⟨.ge, rfl⟩
  · exact ⟨.lt, rfl⟩
  · exact ⟨.gt, rfl⟩

theorem Reads.of_comparison_operator {f : Option Str → Parser β}
    (hnone : Reads source d m 0 k (f none) R)
    (hsome : ∀ o : Operator, Reads source d m o.text.length k (f (some o.text)) R) :
    Reads source d m n k (comparison_operator source >>= f) R := by
  refine Prog.Triple.bind (S := fun found cursor => (∀ text, found = some text →
    ∃ o : Operator, text = o.text) ∧ Ahead source d m (found.elim 0 List.length) cursor) ?_
    fun found => Prog.Triple.of_imp fun hfound => ?_
  · unfold comparison_operator
    refine Prog.Triple.bind (S := fun _ => Ahead source d m 0)
      (Prog.Triple.mono reads_skip_whitespace (fun _ hs => hs) fun _ _ hs => hs.2) fun _ => ?_
    refine Prog.Triple.bind (S := fun rest cursor => rest = from_ source cursor.position ∧
      Ahead source d m 0 cursor) (fun s hs => ⟨rfl, hs⟩) fun rest => ?_
    refine Prog.Triple.pure fun s hs => ?_
    obtain ⟨rfl, hs⟩ := hs
    cases hfind : COMPARISON_OPERATORS.find? fun operator =>
      operator.isPrefixOf (from_ source s.position) with
    | none => exact ⟨fun _ h => (by cases h), hs⟩
    | some text =>
      refine ⟨fun _ h => Option.some.inj h ▸ operator_of_mem (List.mem_of_find?_eq_some hfind),
        hs.nesting, hs.lower, ?_⟩
      have hat : text.isPrefixOf (from_ source s.position) = true :=
        (List.find?_eq_some_iff_append.mp hfind).1
      have hlen := (List.isPrefixOf_iff_prefix.mp hat).length_le
      have := hs.upper
      rw [from_, List.length_drop] at hlen
      show s.position + text.length ≤ source.length
      omega
  · cases found with
    | none => exact hnone
    | some text =>
      obtain ⟨o, rfl⟩ := hfound text rfl
      exact hsome o

theorem reject_chained_comparison_reads :
    Reads source d m n 0 (reject_chained_comparison source) fun _ => True := by
  unfold reject_chained_comparison
  refine Reads.of_comparison_operator ?_ fun o => ?_
  · exact Reads.pure trivial
  · exact reads_fail_here (encodable_lit _)

theorem check_literal_comparison_reads {left right : Value} {offset : Nat} {operator : Str} :
    Reads source d m n 0 (check_literal_comparison source left right offset operator)
      fun _ => True := by
  unfold check_literal_comparison
  split
  · split
    · exact reads_type_fail (encodable_lit _)
    · split
      · exact reads_type_fail (encodable_lit _)
      · exact Reads.pure trivial
  · exact Reads.pure trivial

/-- A comparison or a membership, which starts with an operand. -/
def operandComparison (source : Str) : Parser Value := do
  let start ← position
  let left ← operand source
  if ← take_keyword_if source "not" then do
    if ← take_keyword_if source "in" then membership source left "not in"
    else fail_here source "`in` was expected after `not`." "in"
  else if ← take_keyword_if source "in" then membership source left "in"
  else
    match ← comparison_operator source with
    | some operator => do
      let operator_offset ← position
      advance operator.length
      let right ← operand source
      reject_chained_comparison source
      check_literal_comparison source left right operator_offset operator
      pure (.dict [("type", .str "compare"), ("operator", .str operator), ("left", left),
        ("right", right)])
    | none => do
      let stop ← position
      let token := strip ((source.take stop).drop start)
      fail_at source "A bare operand is not a predicate." "comparison operator" start
        (if token = [] then character_at source start else token)

theorem comparison_reads (hd : d ≤ MAX_NESTING) :
    Reads source d m n 1 (comparison source) (IsNode 2) := by
  unfold comparison
  have hrest : ∀ n, Reads source d m n 1 (operandComparison source) (IsNode 2) := by
    intro n
    unfold operandComparison
    refine Reads.of_position fun start => ?_
    refine Reads.bind (l := 0) (operand_reads hd) fun left hleft => ?_
    refine Reads.of_take_keyword ?_ (Reads.of_take_keyword ?_ ?_)
    · refine Reads.of_take_keyword ?_ ?_
      · exact membership_reads true hd hleft
      · exact reads_fail_here (encodable_lit _)
    · exact membership_reads false hd hleft
    · refine Reads.of_comparison_operator ?_ fun o => ?_
      · exact Reads.of_position fun stop => reads_fail_at (encodable_lit _)
      · refine Reads.of_position fun offset => ?_
        refine (Reads.of_advance (k := 0) le_rfl ?_).less le_rfl (Nat.zero_le _)
        refine (Reads.bind (l := 0) (operand_reads hd) fun right hright => ?_).less
          le_rfl (Nat.zero_le _)
        refine Reads.bind (k := 0) (l := 0) reject_chained_comparison_reads fun _ _ => ?_
        refine Reads.bind (k := 0) (l := 0) check_literal_comparison_reads fun _ _ => ?_
        obtain ⟨l, rfl⟩ := hleft
        obtain ⟨r, rfl⟩ := hright
        exact Reads.pure ⟨.compare o l r, rfl, le_rfl⟩
  refine Reads.of_peek_word ?_ fun word _ => ?_
  · exact hrest 0
  · by_cases hword : word ∈ FUNCTIONS
    · rw [if_pos (by simpa using hword)]
      exact function_reads
    · rw [if_neg (by simpa using hword)]
      exact hrest _

/-! ## Connectives -/

theorem unnegated_reads {inner : Parser Value} {h : Nat} (hd : d ≤ MAX_NESTING) (hh : 2 ≤ h)
    (hinner : d < MAX_NESTING → ∀ m, Reads source (d + 1) m 0 1 inner (IsNode h)) :
    Reads source d m n 1 (unnegated source inner) (IsNode h) := by
  unfold unnegated
  refine Reads.of_peek_symbol ?_ ?_
  · rw [if_pos rfl]
    unfold parenthesized
    refine Reads.of_nesting ?_
    by_cases hdeep : d ≥ MAX_NESTING
    · rw [if_pos hdeep]
      exact reads_tooNested
    · rw [if_neg hdeep]
      refine Reads.of_advance (k := 0) (by simp [lit, ofText]) ?_
      refine (Reads.nested (l := 0) ((hinner (by omega) _).less (Nat.zero_le _) le_rfl)
        fun node hnode => ?_).less le_rfl (Nat.zero_le _)
      refine (Reads.of_take_symbol (k := 0) (encodable_lit _) ?_).less le_rfl (Nat.zero_le _)
      exact Reads.pure hnode
  · refine (comparison_reads hd).mono le_rfl le_rfl ?_
    rintro _ ⟨e, rfl, he⟩
    exact ⟨e, rfl, he.trans hh⟩

theorem not_expression_reads {inner : Parser Value} {h : Nat} (hd : d ≤ MAX_NESTING) (hh : 2 ≤ h)
    (hinner : d < MAX_NESTING → ∀ m, Reads source (d + 1) m 0 1 inner (IsNode h)) :
    Reads source d m n 1 (not_expression source inner) (IsNode (h + 1)) := by
  unfold not_expression
  refine Reads.of_take_keyword ?_ ?_
  · have hnode : ∀ m n, Reads source d m n 1 (do
        let node ← unnegated source inner
        pure (.dict [("type", .str "not"), ("operand", node)])) (IsNode (h + 1)) := by
      intro m n
      refine Reads.bind (l := 0) (unnegated_reads hd hh hinner) ?_
      rintro _ ⟨e, rfl, he⟩
      exact Reads.pure ⟨.not e, rfl, Nat.succ_le_succ he⟩
    refine Reads.of_peek_word ?_ fun word _ => ?_
    · exact hnode _ _
    · by_cases hword : word = lit "not"
      · rw [if_pos (congrArg some hword)]
        exact reads_fail_here (encodable_lit _)
      · rw [if_neg (fun h => hword (Option.some.inj h))]
        exact hnode _ _
  · refine (unnegated_reads hd hh hinner).mono (Nat.zero_le _) le_rfl ?_
    rintro _ ⟨e, rfl, he⟩
    exact ⟨e, rfl, he.trans (Nat.le_succ h)⟩

/-- The values of trees of at most so great a height. -/
def AreNodes (h : Nat) (vs : List Value) : Prop :=
  ∃ es, vs = Expr.nodes es ∧ Expr.heights es ≤ h

theorem more_operands_reads {keyword : Str} {item : Parser Value} {fuel h : Nat}
    {operands : List Value} (hitem : ∀ m, Reads source d m 0 1 item (IsNode h))
    (hfuel : source.length < m + fuel) (hoperands : AreNodes h operands) :
    Reads source d m n 0 (more_operands source keyword item fuel operands) (AreNodes h) := by
  induction fuel generalizing m n operands with
  | zero => exact Reads.of_past_end (by omega)
  | succ fuel ih =>
    rw [more_operands]
    refine Reads.of_take_keyword ?_ ?_
    · refine (Reads.bind (l := 0) (hitem _) ?_).less le_rfl (Nat.zero_le _)
      rintro _ ⟨e, rfl, he⟩
      obtain ⟨es, rfl, hes⟩ := hoperands
      refine ih (by omega) ⟨es ++ [e], by simp [Expr.nodes_eq], ?_⟩
      rw [Expr.heights_le] at hes ⊢
      intro f hf
      rcases List.mem_append.mp hf with hf | hf
      · exact hes f hf
      · exact List.mem_singleton.mp hf ▸ he
    · exact Reads.pure hoperands

theorem connective_reads {keyword : Str} {item : Parser Value} {h : Nat}
    (hitem : ∀ m n, Reads source d m n 1 item (IsNode h))
    (hkeyword : ∀ es, Expr.heights es ≤ h → IsNode (h + 1)
      (.dict [("type", .str keyword), ("operands", .list (Expr.nodes es))])) :
    Reads source d m n 1 (connective source keyword item) (IsNode (h + 1)) := by
  unfold connective
  refine Reads.bind (l := 0) (hitem _ _) ?_
  rintro _ ⟨e, rfl, he⟩
  have hfirst : AreNodes h [e.node] := ⟨[e], rfl, by simpa [Expr.heights] using he⟩
  refine Reads.bind (k := 0) (l := 0)
    (more_operands_reads (fun m => hitem m 0) (by omega) hfirst) ?_
  rintro _ ⟨es, rfl, hes⟩
  split
  · rename_i v heq
    refine Reads.pure ?_
    cases es with
    | nil => cases heq
    | cons f rest =>
      simp only [Expr.nodes, List.cons.injEq] at heq
      rw [← heq.1]
      exact ⟨f, rfl, (Expr.heights_le.mp hes f (by simp)).trans (Nat.le_succ h)⟩
  · exact Reads.pure (hkeyword es hes)

/-- A tree nests at most three calls for each level of parentheses. -/
theorem or_expression_reads {levels : Nat} (hd : d ≤ MAX_NESTING)
    (hlevels : MAX_NESTING < d + levels) :
    Reads source d m n 1 (or_expression source levels) (IsNode (3 * levels + 2)) := by
  induction levels generalizing d m n with
  | zero => omega
  | succ levels ih =>
    rw [or_expression]
    have hinner : d < MAX_NESTING → ∀ m, Reads source (d + 1) m 0 1
        (or_expression source levels) (IsNode (3 * levels + 2)) := fun hlt m =>
      ih (by omega) (by omega)
    have hand : ∀ m n, Reads source d m n 1
        (and_expression source (or_expression source levels)) (IsNode (3 * levels + 4)) := by
      intro m n
      refine connective_reads (fun m n => not_expression_reads hd (by omega) hinner) ?_
      exact fun es hes => ⟨.and es, rfl, Nat.succ_le_succ hes⟩
    refine connective_reads hand ?_
    exact fun es hes => ⟨.or es, rfl, Nat.succ_le_succ hes⟩

/-- The greatest height of a parsed tree. -/
def HEIGHT : Nat := 3 * LEVELS + 2

theorem Reads.of_at_end {f : Bool → Parser β} (h : ∀ b, Reads source d m 0 k (f b) R) :
    Reads source d m n k (at_end source >>= f) R := by
  unfold at_end
  have hend : Reads source d m n 0 (at_end source) fun _ => True := by
    refine Reads.of_skip (Reads.of_remaining fun rest _ => ?_)
    exact (Reads.pure trivial).less (Nat.zero_le _) le_rfl
  have := Reads.bind hend fun b _ => h b
  rwa [Nat.zero_add] at this

theorem parse_reads : Reads source 0 0 0 0 (parse source) (IsNode HEIGHT) := by
  unfold parse
  refine Reads.of_at_end fun b => ?_
  cases b with
  | true => exact reads_fail_at (encodable_lit _)
  | false =>
    refine (Reads.bind (l := 0) (or_expression_reads (Nat.zero_le _) (by decide))
      fun tree htree => ?_).less le_rfl (Nat.zero_le _)
    refine Reads.of_at_end fun b => ?_
    cases b with
    | true => exact Reads.pure htree
    | false => exact reads_fail_here (encodable_lit _)

end Rules

/-! ## Parsed expressions -/

/-- A parsed expression is the canonical text of a tree, with the evidence ids
of the tree in source order. -/
structure Parsed (source : Str) (e : Expr) (parsed : ParsedExpression) : Prop where
  source_eq : parsed.source = source
  height : e.height ≤ HEIGHT
  canonical : canon.canonicalize e.node = .ok parsed.canonical
  depth : e.node.depth ≤ 64
  evidence_ids : parsed.evidence_ids = e.evidenceIds.foldl appendNew []

theorem Parsed.isCanonical {source : Str} {e : Expr} {parsed : ParsedExpression}
    (h : Parsed source e parsed) : e.node.Canonical := by
  have := h.canonical
  rw [canon.canonicalize_eq_encode] at this
  exact canon.canonical_of_encode (distinctKeys_node e) this

theorem canonical_bytes_of_canonicalize {v : Value} {t : Text}
    (h : canon.canonicalize v = .ok t) :
    canon.canonical_bytes v = .ok (String.ofList t).toByteArray := by
  rw [canon.canonical_bytes, h]
  rfl

/-- Parsing returns a tree or raises a failure that can be reported, unless it
meets an integer too long for the runtime. -/
theorem parsing_sat (source : Str) :
    (parsing source).Sat Answers Exn.Reportable fun parsed => ∃ e, Parsed source e parsed := by
  unfold parsing
  refine Prog.Sat.bind (Q := fun r => IsNode HEIGHT r.1) ?_ ?_
  · exact (parse_reads _ ⟨rfl, le_rfl, Nat.zero_le _⟩).mono (fun _ he => he) fun _ hr => hr.1
  · rintro ⟨tree, cursor⟩ ⟨e, rfl, he⟩
    have hframes : e.height ≤ schema.FRAMES := he.trans (by decide)
    simp only [collect_node e _ [] hframes]
    refine Prog.Sat.bind (Q := fun ids => ids = e.evidenceIds.foldl appendNew [])
      (lift_sat (fun _ h => by cases h) fun ids h => (Except.ok.inj h).symm) fun ids hids => ?_
    refine Prog.Sat.bind (Q := fun t => canon.canonicalize e.node = .ok t)
      (lift_sat (fun x hx => ?_) fun t ht => ht) fun t ht => ?_
    · rw [canon.canonicalize_eq_encode] at hx
      exact canon.encode_error _ x hx
    · have hc : e.node.Canonical := by
        rw [canon.canonicalize_eq_encode] at ht
        exact canon.canonical_of_encode (distinctKeys_node e) ht
      have hload : outcome (load.loading (String.ofList t).toByteArray) = _ :=
        load.load_canonical_bytes hc (canonical_bytes_of_canonicalize ht)
      refine Prog.Sat.bind (Q := fun _ => e.node.depth ≤ 64)
        (sat_of_outcome (load.loading_value_error_free _) ?_ ?_ ?_) fun _ hdepth => ?_
      · rw [hload]
        split <;> simp [load.tooDeep, fail]
      · intro x hx
        rw [hload] at hx
        split at hx
        · cases hx
        · cases hx
          exact ⟨_, rfl, encodable_lit _⟩
      · intro v hv
        rw [hload] at hv
        split at hv
        · assumption
        · cases hv
      · exact ⟨e, rfl, he, ht, hdepth, hids⟩

/-- What `parse_expression` does with a string. -/
theorem parse_expression_cases (source : Str) :
    (∃ e parsed, parse_expression (.str source) = .ok parsed ∧ Parsed source e parsed) ∨
      (∃ x : Exn, parse_expression (.str source) = .error x ∧ x.Reportable) ∨
      parse_expression (.str source) = .error .value_error ∧ ¬ ShortIntegers (parsing source) := by
  rcases outcome_sat (parsing_sat source) with ⟨parsed, hp, e, he⟩ | ⟨x, hx, hr | rfl⟩
  · exact Or.inl ⟨e, parsed, hp, he⟩
  · exact Or.inr (Or.inl ⟨x, hx, hr⟩)
  · have hfree : (parsing source).Sat Answers (· ≠ .value_error)
        fun parsed => ∃ e, Parsed source e parsed :=
      (parsing_sat source).mono (fun _ ⟨_, hf, _⟩ => by simp [hf]) fun _ h => h
    exact Or.inr (Or.inr ⟨hx, (outcome_value_error_iff hfree).mp hx⟩)

end vfy.expr
