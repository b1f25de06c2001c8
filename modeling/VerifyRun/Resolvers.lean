-- The implicit resolvers of the YAML parser against the plain scalars of the
-- subset: which texts another reader types, and which of them the loader
-- hands on as strings.
import VerifyRun.PatternLanguage
import VerifyRun.YamlLaws

namespace vfy.load

open calls python outcomes regular re

/-! ## The resolvers -/

/-- The types that the parser's resolvers give to a plain scalar. -/
inductive Tag where
  | bool
  | float
  | int
  | null
  | timestamp
deriving DecidableEq

/-- What a resolver matches between its anchors. -/
def notation_of : Tag → Str
  | .bool =>
    "yes|Yes|YES|no|No|NO|true|True|TRUE|false|False|FALSE|on|On|ON|off|Off|OFF"
  | .float =>
    "[-+]?(?:[0-9][0-9_]*)\\.[0-9_]*(?:[eE][-+][0-9]+)?|\\.[0-9][0-9_]*(?:[eE][-+][0-9]+)?|[-+]?[0-9][0-9_]*(?::[0-5]?[0-9])+\\.[0-9_]*|[-+]?\\.(?:inf|Inf|INF)|\\.(?:nan|NaN|NAN)"
  | .int =>
    "[-+]?0b[0-1_]+|[-+]?0[0-7_]+|[-+]?(?:0|[1-9][0-9_]*)|[-+]?0x[0-9a-fA-F_]+|[-+]?[1-9][0-9_]*(?::[0-5]?[0-9])+"
  | .null => "~|null|Null|NULL|"
  | .timestamp =>
    "[0-9][0-9][0-9][0-9]-[0-9][0-9]-[0-9][0-9]|[0-9][0-9][0-9][0-9]-[0-9][0-9]?-[0-9][0-9]?(?:[Tt]|[ \\t]+)[0-9][0-9]?:[0-9][0-9]:[0-9][0-9](?:\\.[0-9]*)?(?:[ \\t]*(?:Z|[-+][0-9][0-9]?(?::[0-9][0-9])?))?"

/-- The regular expression of a resolver. -/
def resolver (tag : Tag) : Str := lit "^(?:" ++ notation_of tag ++ lit ")$"

/-- The characters that a resolver is asked about, `none` for an empty scalar. -/
def firsts : Tag → List (Option CodePoint)
  | .bool => (lit "yYnNtTfFoO").map some
  | .float => (lit "-+0123456789.").map some
  | .int => (lit "-+0123456789").map some
  | .null => none :: (lit "~nN").map some
  | .timestamp => (lit "0123456789").map some

/-- The resolvers, in the order that the parser asks them. -/
def resolvers : List Tag := [.bool, .float, .int, .null, .timestamp]

/-- A resolver that is asked about the scalar matches it. -/
def answers (text : Str) (tag : Tag) : Bool :=
  decide (text.head? ∈ firsts tag) && decide (matchAtStart (resolver tag) text = some true)

/-- The type that a plain scalar resolves to, when it is not a string. -/
def resolve (text : Str) : Option Tag := resolvers.find? (answers text)

/-! ## The resolved value -/

def digitValue (c : Char) : Nat :=
  if 'a' ≤ c then c.toNat - 'a'.toNat + 10
  else if 'A' ≤ c then c.toNat - 'A'.toNat + 10
  else c.toNat - '0'.toNat

/-- `int(digits, base)`. -/
def numberIn (base : Nat) (digits : Text) : Nat :=
  digits.foldl (fun n c => base * n + digitValue c) 0

/-- The number that `construct_yaml_int` reads after the sign. -/
def magnitude (value : Text) : Nat :=
  if value = ['0'] then 0
  else if value.take 2 = ['0', 'b'] then numberIn 2 (value.drop 2)
  else if value.take 2 = ['0', 'x'] then numberIn 16 (value.drop 2)
  else if value.head? = some '0' then numberIn 8 value
  else if ':' ∈ value then (value.splitOn ':').foldl (fun n part => n * 60 + numberIn 10 part) 0
  else numberIn 10 value

/-- `construct_yaml_int`. -/
def construct_yaml_int (text : Text) : Int :=
  let value := text.filter (· ≠ '_')
  if value.head? = some '-' then -(magnitude value.tail : Int)
  else if value.head? = some '+' then magnitude value.tail
  else magnitude value

/-- The value that the parser constructs, when the value model has it. A float
and a timestamp are no values of the model. -/
def constructed (text : Str) : Tag → Option Value
  | .bool => some (.bool (decide (text ∈ [lit "yes", "Yes", "YES", "true", "True", "TRUE", "on", "On", "ON"])))
  | .null => some .null
  | .int => some (.int (construct_yaml_int ((toText? text).getD [])))
  | .float => none
  | .timestamp => none

/-- The loader returns the resolved value or raises a typed failure, and it
never returns the text as a string. -/
def Kept (tag : Tag) (text : Str) : Prop :=
  ((∃ v, outcome (plain_scalar text) = .ok v ∧ constructed text tag = some v) ∨
    ∃ e, outcome (plain_scalar text) = .error e ∧ e.IsVerify) ∧
  outcome (plain_scalar text) ≠ .ok (.str text)

/-! ## What the loader misses -/

def SEXAGESIMAL_FLOAT : Str := "[-+]?[0-9][0-9_]*(:[0-5]?[0-9])+\\.[0-9_]*"

def SPACED_TIMESTAMP : Str := "[0-9]\x7b4\x7d-[0-9]\x7b1,2\x7d-[0-9]\x7b1,2\x7d  .*"

/-- The notations that a resolver types and the loader does not know: digits
grouped by underscores, a sexagesimal number with a fraction, a timestamp with
a tab in it or with two spaces after its date, and a line break at the end.
The runtime refuses the last kind, an integer with too many digits. -/
inductive Missed (text : Str) : Prop where
  | underscore (h : .scalar '_' ∈ text)
      (hr : matchesPattern RESERVED_INTEGER_NOTATION text = false) : Missed text
  | sexagesimal (h : matchesPattern SEXAGESIMAL_FLOAT text = true) : Missed text
  | tab (h : .scalar '\t' ∈ text) : Missed text
  | spaces (h : matchesPattern SPACED_TIMESTAMP text = true) : Missed text
  | line_break (h : .scalar '\n' ∈ text) : Missed text
  | long (h : matchesPattern CANONICAL_INTEGER text = true)
      (hl : INT_MAX_STR_DIGITS < (digitsOf ((toText? text).getD [])).length) : Missed text

/-! ## The languages -/

/-- The plain scalars that the loader compares with. -/
def RESERVED_WORDS : List Str :=
  [lit "true", lit "false", lit "null"] ++ RESERVED_BOOLEANS ++ RESERVED_NULLS

set_option maxRecDepth 4000

/-- Every pattern compiles, and anchors stand in the resolvers only. -/
theorem patterns_compile :
    (isFree CANONICAL_INTEGER = true ∧ isFree RESERVED_INTEGER_NOTATION = true ∧
      isFree RESERVED_TIMESTAMP = true ∧ isFree RESERVED_FLOAT = true ∧
      isFree SEXAGESIMAL_FLOAT = true ∧ isFree SPACED_TIMESTAMP = true) ∧
    ∀ tag ∈ resolvers, isFree (notation_of tag) = true ∧ re.compile (resolver tag) =
      (re.compile (notation_of tag)).map fun r => .seq .start (.seq r (.seq .stop .empty)) := by
  have hinteger : RESERVED_INTEGER_NOTATION = ofText _ := lit_ofList _
  have htimestamp : RESERVED_TIMESTAMP = ofText _ := lit_ofList _
  have hfloat : RESERVED_FLOAT = ofText _ := lit_ofList _
  have hsexagesimal : SEXAGESIMAL_FLOAT = ofText _ := lit_ofList _
  have hspaced : SPACED_TIMESTAMP = ofText _ := lit_ofList _
  have hnull : notation_of .null = ofText _ := lit_ofList _
  have hbool : notation_of .bool = ofText _ := lit_ofList _
  have hint : notation_of .int = ofText _ := lit_ofList _
  have hreal : notation_of .float = ofText _ := lit_ofList _
  have htime : notation_of .timestamp = ofText _ := lit_ofList _
  simp only [resolvers, resolver, List.forall_mem_cons]
  rw [hinteger, htimestamp, hfloat, hsexagesimal, hspaced, hnull, hbool, hint, hreal, htime]
  decide +kernel

/-- A resolver types a notation that the loader knows, or one that it misses. -/
theorem typed_notations :
    compare id 2000 (regexOf (notation_of .bool)) (wordsRegex RESERVED_WORDS) = true ∧
    compare id 2000 (regexOf (notation_of .null)) (wordsRegex RESERVED_WORDS) = true ∧
    compare id 2000 (regexOf (notation_of .int)) (.alt (regexOf CANONICAL_INTEGER)
      (.alt (regexOf RESERVED_INTEGER_NOTATION) (hasRegex (.scalar '_')))) = true ∧
    compare id 2000 (regexOf (notation_of .float)) (.alt (regexOf RESERVED_FLOAT)
      (.alt (regexOf SEXAGESIMAL_FLOAT) (hasRegex (.scalar '_')))) = true ∧
    compare id 2000 (regexOf (notation_of .timestamp)) (.alt (regexOf RESERVED_TIMESTAMP)
      (.alt (regexOf SPACED_TIMESTAMP) (hasRegex (.scalar '\t')))) = true := by
  have hcanonical : CANONICAL_INTEGER = ofText _ := lit_ofList _
  have hinteger : RESERVED_INTEGER_NOTATION = ofText _ := lit_ofList _
  have htimestamp : RESERVED_TIMESTAMP = ofText _ := lit_ofList _
  have hfloat : RESERVED_FLOAT = ofText _ := lit_ofList _
  have hsexagesimal : SEXAGESIMAL_FLOAT = ofText _ := lit_ofList _
  have hspaced : SPACED_TIMESTAMP = ofText _ := lit_ofList _
  have hnull : notation_of .null = ofText _ := lit_ofList _
  have hbool : notation_of .bool = ofText _ := lit_ofList _
  have hint : notation_of .int = ofText _ := lit_ofList _
  have hreal : notation_of .float = ofText _ := lit_ofList _
  have htime : notation_of .timestamp = ofText _ := lit_ofList _
  rw [hcanonical, hinteger, htimestamp, hfloat, hsexagesimal, hspaced, hnull, hbool, hint, hreal,
    htime]
  refine ⟨?_, ?_, ?_, ?_, ?_⟩ <;> decide +kernel

/-- A canonical integer is typed as an integer only, and no notation that the
loader misses is a reserved timestamp. -/
theorem apart_notations :
    (∀ tag ∈ resolvers, tag ≠ .int →
      compare not 2000 (regexOf CANONICAL_INTEGER) (regexOf (notation_of tag)) = true) ∧
    compare not 2000 (regexOf SEXAGESIMAL_FLOAT) (regexOf RESERVED_TIMESTAMP) = true ∧
    compare not 2000 (regexOf SPACED_TIMESTAMP) (regexOf RESERVED_TIMESTAMP) = true ∧
    compare id 2000 (regexOf SEXAGESIMAL_FLOAT) (hasRegex (.scalar ':')) = true ∧
    compare id 2000 (regexOf SEXAGESIMAL_FLOAT) (hasRegex (.scalar '.')) = true ∧
    compare id 2000 (regexOf SPACED_TIMESTAMP) (hasRegex (.scalar ' ')) = true := by
  have hcanonical : CANONICAL_INTEGER = ofText _ := lit_ofList _
  have htimestamp : RESERVED_TIMESTAMP = ofText _ := lit_ofList _
  have hsexagesimal : SEXAGESIMAL_FLOAT = ofText _ := lit_ofList _
  have hspaced : SPACED_TIMESTAMP = ofText _ := lit_ofList _
  have hnull : notation_of .null = ofText _ := lit_ofList _
  have hbool : notation_of .bool = ofText _ := lit_ofList _
  have hreal : notation_of .float = ofText _ := lit_ofList _
  have htime : notation_of .timestamp = ofText _ := lit_ofList _
  have hint : notation_of .int = ofText _ := lit_ofList _
  simp only [resolvers, List.forall_mem_cons]
  rw [hcanonical, htimestamp, hsexagesimal, hspaced, hnull, hbool, hreal, htime, hint]
  refine ⟨?_, ?_, ?_, ?_, ?_, ?_⟩ <;> decide +kernel

/-- The characters that the loader's words and notations lack. -/
theorem lacking_characters :
    (∀ word ∈ RESERVED_WORDS, ∀ c ∈ lit "_\t\n: ", c ∉ word) ∧
    (∀ c ∈ lit "_\t\n: ", avoids inside c.ord (regexOf CANONICAL_INTEGER) = true) ∧
    (∀ c ∈ lit "\t\n. ", avoids inside c.ord (regexOf RESERVED_INTEGER_NOTATION) = true) ∧
    (∀ c ∈ lit "_\t\n: ", avoids inside c.ord (regexOf RESERVED_FLOAT) = true) ∧
    ∀ c ∈ lit "_\t\n", avoids inside c.ord (regexOf RESERVED_TIMESTAMP) = true := by
  have hcanonical : CANONICAL_INTEGER = ofText _ := lit_ofList _
  have hinteger : RESERVED_INTEGER_NOTATION = ofText _ := lit_ofList _
  have hfloat : RESERVED_FLOAT = ofText _ := lit_ofList _
  have htimestamp : RESERVED_TIMESTAMP = ofText _ := lit_ofList _
  rw [hcanonical, hinteger, hfloat, htimestamp]
  refine ⟨?_, ?_, ?_, ?_, ?_⟩ <;> decide +kernel

theorem word_characters : ∀ word ∈ RESERVED_WORDS, ∀ c ∈ lit "_\t\n: ", c ∉ word :=
  lacking_characters.1

theorem integer_characters :
    (∀ c ∈ lit "_\t\n: ", avoids inside c.ord (regexOf CANONICAL_INTEGER) = true) ∧
      ∀ c ∈ lit "\t\n. ", avoids inside c.ord (regexOf RESERVED_INTEGER_NOTATION) = true :=
  ⟨lacking_characters.2.1, lacking_characters.2.2.1⟩

theorem float_characters :
    ∀ c ∈ lit "_\t\n: ", avoids inside c.ord (regexOf RESERVED_FLOAT) = true :=
  lacking_characters.2.2.2.1

theorem timestamp_characters :
    ∀ c ∈ lit "_\t\n", avoids inside c.ord (regexOf RESERVED_TIMESTAMP) = true :=
  lacking_characters.2.2.2.2

theorem mem_resolvers (tag : Tag) : tag ∈ resolvers := by
  cases tag <;> decide

theorem matchesPattern_iff {pattern text : Str} (h : isFree pattern = true) :
    matchesPattern pattern text = true ↔ Matches inside (regexOf pattern) (wordOf text) := by
  unfold matchesPattern
  rw [decide_eq_true_eq, fullmatch_iff h]

/-- A character that the classes of an expression lack is in none of its words. -/
theorem not_mem_of_wordOf {c : CodePoint} {r : Regex Ranges} (h : avoids inside c.ord r = true)
    {text : Str} (hw : Matches inside r (wordOf text)) : c ∉ text :=
  fun hc => not_mem_of_avoids inside h hw (List.mem_map_of_mem hc)

/-- What a resolver types is a word of its notation, unless a line break ends it. -/
theorem notation_of_resolve {text : Str} {tag : Tag} (h : resolve text = some tag) :
    Matches inside (regexOf (notation_of tag)) (wordOf text) ∨ .scalar '\n' ∈ text := by
  have hanswer := List.find?_some h
  unfold answers at hanswer
  rw [Bool.and_eq_true, decide_eq_true_eq, decide_eq_true_eq] at hanswer
  obtain ⟨hfree, hcompile⟩ := patterns_compile.2 tag (mem_resolvers tag)
  rcases (matchAtStart_iff hfree hcompile).mp hanswer.2 with hw | ⟨w, rfl, -⟩
  · exact Or.inl hw
  · exact Or.inr (by simp)

/-! ## What the loader knows -/

/-- A plain scalar that the loader does not hand on as a string. -/
inductive Known (text : Str) : Prop where
  | word (h : text ∈ RESERVED_WORDS) : Known text
  | canonical (h : matchesPattern CANONICAL_INTEGER text = true) : Known text
  | integer (h : matchesPattern RESERVED_INTEGER_NOTATION text = true) : Known text
  | timestamp (h : matchesPattern RESERVED_TIMESTAMP text = true) : Known text
  | float (h : matchesPattern RESERVED_FLOAT text = true) : Known text

theorem mem_reserved_words {text : Str} : text ∈ RESERVED_WORDS ↔
    text = lit "true" ∨ text = lit "false" ∨ text = lit "null" ∨
      text ∈ RESERVED_BOOLEANS ∨ text ∈ RESERVED_NULLS := by
  simp only [RESERVED_WORDS, List.append_assoc, List.mem_append, List.mem_cons, List.not_mem_nil,
    or_false, or_assoc]

/-- A scalar that the loader does not know is handed on as a string. -/
theorem plain_scalar_of_not_known {text : Str} (h : ¬ Known text) :
    plain_scalar text = pure (.str text) := by
  have hword : text ∉ RESERVED_WORDS := fun hw => h (.word hw)
  simp only [mem_reserved_words, not_or] at hword
  obtain ⟨htrue, hfalse, hnull, hbooleans, hnulls⟩ := hword
  unfold plain_scalar
  rw [if_neg htrue, if_neg hfalse, if_neg hnull, if_neg fun hc => h (.canonical hc),
    if_neg (not_or.mpr ⟨hbooleans, hnulls⟩),
    if_neg (not_or.mpr ⟨fun hi => h (.integer hi), fun ht => h (.timestamp ht)⟩),
    if_neg fun hf => h (.float hf)]

/-- A known scalar that is no literal and no canonical integer is refused. -/
theorem plain_scalar_of_known {text : Str} (h : Known text) (htrue : text ≠ lit "true")
    (hfalse : text ≠ lit "false") (hnull : text ≠ lit "null")
    (hcanonical : matchesPattern CANONICAL_INTEGER text ≠ true) :
    ∃ e, outcome (plain_scalar text) = .error e ∧ e.IsVerify := by
  unfold plain_scalar
  rw [if_neg htrue, if_neg hfalse, if_neg hnull, if_neg hcanonical]
  by_cases hreserved : text ∈ RESERVED_BOOLEANS ∨ text ∈ RESERVED_NULLS
  · rw [if_pos hreserved]
    exact ⟨_, rfl, _, rfl⟩
  rw [if_neg hreserved]
  by_cases hnumber : matchesPattern RESERVED_INTEGER_NOTATION text = true ∨
      matchesPattern RESERVED_TIMESTAMP text = true
  · rw [if_pos hnumber]
    exact ⟨_, rfl, _, rfl⟩
  rw [if_neg hnumber]
  cases h with
  | word h =>
    rcases mem_reserved_words.mp h with h | h | h | h
    · exact (htrue h).elim
    · exact (hfalse h).elim
    · exact (hnull h).elim
    · exact (hreserved h).elim
  | canonical h => exact (hcanonical h).elim
  | integer h => exact (hnumber (Or.inl h)).elim
  | timestamp h => exact (hnumber (Or.inr h)).elim
  | float h =>
    rw [if_pos h]
    exact ⟨_, rfl, _, rfl⟩

/-- What a resolver types is known to the loader, or missed. -/
theorem known_or_missed {text : Str} {tag : Tag} (h : resolve text = some tag) :
    Known text ∨ Missed text := by
  obtain ⟨⟨hcanonical, hinteger, htimestamp, hfloat, hsexagesimal, hspaced⟩, -⟩ := patterns_compile
  obtain ⟨cbool, cnull, cint, cfloat, ctime⟩ := typed_notations
  rcases notation_of_resolve h with hw | hbreak
  · cases tag with
    | bool => exact Or.inl (.word (matches_wordsRegex.mp (included cbool hw)))
    | null => exact Or.inl (.word (matches_wordsRegex.mp (included cnull hw)))
    | int =>
      have hcases := included cint hw
      rw [matches_alt, matches_alt, ← matchesPattern_iff hcanonical, ← matchesPattern_iff hinteger,
        matches_hasRegex] at hcases
      by_cases hreserved : matchesPattern RESERVED_INTEGER_NOTATION text = true
      · exact Or.inl (.integer hreserved)
      · rcases hcases with hc | hi | hu
        · exact Or.inl (.canonical hc)
        · exact Or.inl (.integer hi)
        · exact Or.inr (.underscore hu (Bool.not_eq_true _ ▸ hreserved))
    | float =>
      have hcases := included cfloat hw
      rw [matches_alt, matches_alt, ← matchesPattern_iff hfloat, ← matchesPattern_iff hsexagesimal,
        matches_hasRegex] at hcases
      by_cases hreserved : matchesPattern RESERVED_INTEGER_NOTATION text = true
      · exact Or.inl (.integer hreserved)
      · rcases hcases with hf | hs | hu
        · exact Or.inl (.float hf)
        · exact Or.inr (.sexagesimal hs)
        · exact Or.inr (.underscore hu (Bool.not_eq_true _ ▸ hreserved))
    | timestamp =>
      have hcases := included ctime hw
      rw [matches_alt, matches_alt, ← matchesPattern_iff htimestamp, ← matchesPattern_iff hspaced,
        matches_hasRegex] at hcases
      rcases hcases with ht | hs | htab
      · exact Or.inl (.timestamp ht)
      · exact Or.inr (.spaces hs)
      · exact Or.inr (.tab htab)
  · exact Or.inr (.line_break hbreak)

/-- What a character of the text decides: it is in no word that is known. -/
theorem not_known_of_mem {text : Str} {c : CodePoint} (hc : c ∈ text) (hword : c ∈ lit "_\t\n: ")
    (hinteger : matchesPattern RESERVED_INTEGER_NOTATION text ≠ true)
    (htimestamp : matchesPattern RESERVED_TIMESTAMP text ≠ true) : ¬ Known text := by
  obtain ⟨⟨fcanonical, -, -, ffloat, -⟩, -⟩ := patterns_compile
  intro h
  cases h with
  | word h => exact word_characters text h c hword hc
  | canonical h =>
    exact not_mem_of_wordOf (integer_characters.1 c hword) ((matchesPattern_iff fcanonical).mp h) hc
  | integer h => exact hinteger h
  | timestamp h => exact htimestamp h
  | float h =>
    exact not_mem_of_wordOf (float_characters c hword) ((matchesPattern_iff ffloat).mp h) hc

/-- A character that no integer notation has. -/
theorem not_integer_of_mem {text : Str} {c : CodePoint} (hc : c ∈ text)
    (hi : c ∈ lit "\t\n. ") : matchesPattern RESERVED_INTEGER_NOTATION text ≠ true := by
  obtain ⟨⟨-, finteger, -⟩, -⟩ := patterns_compile
  rw [Ne, matchesPattern_iff finteger]
  exact fun h => not_mem_of_wordOf (integer_characters.2 c hi) h hc

/-- A character that no reserved timestamp has. -/
theorem not_timestamp_of_mem {text : Str} {c : CodePoint} (hc : c ∈ text)
    (ht : c ∈ lit "_\t\n") : matchesPattern RESERVED_TIMESTAMP text ≠ true := by
  obtain ⟨⟨-, -, ftimestamp, -⟩, -⟩ := patterns_compile
  rw [Ne, matchesPattern_iff ftimestamp]
  exact fun h => not_mem_of_wordOf (timestamp_characters c ht) h hc

/-- What the loader misses is a long integer, or it is not known. -/
theorem long_or_not_known {text : Str} (h : Missed text) :
    (matchesPattern CANONICAL_INTEGER text = true ∧
      INT_MAX_STR_DIGITS < (digitsOf ((toText? text).getD [])).length) ∨ ¬ Known text := by
  obtain ⟨⟨-, -, ftimestamp, -, fsexagesimal, fspaced⟩, -⟩ := patterns_compile
  obtain ⟨-, dsexagesimal, dspaced, hcolon, hpoint, hspace⟩ := apart_notations
  cases h with
  | underscore hu hr =>
    refine Or.inr (not_known_of_mem hu (by decide) (by simp [hr]) ?_)
    exact not_timestamp_of_mem hu (by decide)
  | tab htab =>
    refine Or.inr (not_known_of_mem htab (by decide) ?_ ?_)
    · exact not_integer_of_mem htab (by decide)
    · exact not_timestamp_of_mem htab (by decide)
  | line_break hbreak =>
    refine Or.inr (not_known_of_mem hbreak (by decide) ?_ ?_)
    · exact not_integer_of_mem hbreak (by decide)
    · exact not_timestamp_of_mem hbreak (by decide)
  | sexagesimal hs =>
    have hw := (matchesPattern_iff fsexagesimal).mp hs
    have hc := matches_hasRegex.mp (included hcolon hw)
    have hp := matches_hasRegex.mp (included hpoint hw)
    refine Or.inr (not_known_of_mem hc (by decide) (not_integer_of_mem hp (by decide)) ?_)
    rw [Ne, matchesPattern_iff ftimestamp]
    exact disjoint dsexagesimal hw
  | spaces hs =>
    have hw := (matchesPattern_iff fspaced).mp hs
    have hc := matches_hasRegex.mp (included hspace hw)
    refine Or.inr (not_known_of_mem hc (by decide) (not_integer_of_mem hc (by decide)) ?_)
    rw [Ne, matchesPattern_iff ftimestamp]
    exact disjoint dspaced hw
  | long h hl => exact Or.inl ⟨h, hl⟩

/-! ## Canonical integers -/

/-- A code point of a class of digits is a digit. -/
theorem digit_of_inside (lo hi : Char) {c : CodePoint} (hhi : hi.toNat < 0x80)
    (h : inside (false, [(lo.toNat, hi.toNat)]) c.ord = true) :
    ∃ d, c = .scalar d ∧ re.inRanges [(.scalar lo, .scalar hi)] (.scalar d) = true := by
  cases c with
  | scalar d =>
    refine ⟨d, rfl, ?_⟩
    have hrange := inside_ordinals false [(.scalar lo, .scalar hi)] (.scalar d)
    rw [Bool.bne_false] at hrange
    exact hrange ▸ h
  | surrogate n =>
    have hle : lo.toNat ≤ (CodePoint.surrogate n).ord ∧ (CodePoint.surrogate n).ord ≤ hi.toNat := by
      simpa [inside] using h
    have hord : (CodePoint.surrogate n).ord = 0xD800 + n.val := rfl
    omega

theorem digits_of_inside {s : Str} (h : ∀ a ∈ wordOf s, inside (false, [(48, 57)]) a = true) :
    ∃ ds : Text, s = ofText ds ∧ ∀ d ∈ ds, re.inRanges DIGITS (.scalar d) = true := by
  induction s with
  | nil => exact ⟨[], rfl, by simp⟩
  | cons c s ih =>
    obtain ⟨hc, hs⟩ := List.forall_mem_cons.mp h
    obtain ⟨d, rfl, hd⟩ := digit_of_inside '0' '9' (by decide) hc
    obtain ⟨ds, rfl, hds⟩ := ih hs
    exact ⟨d :: ds, rfl, List.forall_mem_cons.mpr ⟨hd, hds⟩⟩

/-- What the pattern of a canonical integer matches: a numeral, with a sign or
without one. -/
theorem numeral_of_canonical {text : Str} (h : matchesPattern CANONICAL_INTEGER text = true) :
    ∃ t, IsNumeral t ∧ (text = ofText t ∨ text = ofText ('-' :: t)) := by
  have hregex : regexOf CANONICAL_INTEGER = .seq (.alt .empty (.letter (false, [(45, 45)])))
      (.alt (.letter (false, [(48, 48)]))
        (.seq (.letter (false, [(49, 57)])) (.star (.letter (false, [(48, 57)]))))) := by
    rw [regexOf, compile_canonical_integer]
    rfl
  rw [matchesPattern_iff patterns_compile.1.1, hregex, matches_seq] at h
  obtain ⟨u', v', hu, hv, hw⟩ := h
  obtain ⟨u, v, rfl, rfl, rfl⟩ := List.map_eq_append_iff.mp hw
  have hnumeral : ∃ t, IsNumeral t ∧ v = ofText t := by
    rw [matches_alt] at hv
    rcases hv with hv | hv
    · obtain ⟨a, ha, hv⟩ := (matches_letter inside).mp hv
      obtain ⟨c, w, rfl, rfl, hnil⟩ := List.map_eq_cons_iff.mp hv
      rw [List.map_eq_nil_iff.mp hnil, ← (inside_char (.scalar '0') c).mp ha]
      exact ⟨['0'], .zero, rfl⟩
    · obtain ⟨x, y, hx, hy, hv⟩ := (matches_seq inside).mp hv
      obtain ⟨a, ha, rfl⟩ := (matches_letter inside).mp hx
      obtain ⟨c, w, rfl, rfl, rfl⟩ := List.map_eq_cons_iff.mp hv
      obtain ⟨d, rfl, hd⟩ := digit_of_inside '1' '9' (by decide) ha
      obtain ⟨ds, rfl, hds⟩ := digits_of_inside ((matches_star_letter inside).mp hy)
      exact ⟨d :: ds, .digits d ds hd hds, rfl⟩
  obtain ⟨t, ht, rfl⟩ := hnumeral
  rw [matches_alt, matches_empty] at hu
  refine ⟨t, ht, ?_⟩
  rcases hu with hu | hu
  · rw [List.map_eq_nil_iff.mp hu]
    exact Or.inl rfl
  · obtain ⟨a, ha, hu⟩ := (matches_letter inside).mp hu
    obtain ⟨c, w, rfl, rfl, hnil⟩ := List.map_eq_cons_iff.mp hu
    rw [List.map_eq_nil_iff.mp hnil, ← (inside_char (.scalar '-') c).mp ha]
    exact Or.inr rfl

theorem toNat_of_digit {d : Char} (h : re.inRanges DIGITS (.scalar d) = true) :
    48 ≤ d.toNat ∧ d.toNat ≤ 57 := by
  have hle : CodePoint.scalar '0' ≤ .scalar d ∧ CodePoint.scalar d ≤ .scalar '9' := by
    simpa [re.inRanges, DIGITS] using h
  exact hle

theorem numberIn_digits {ds : Text} (h : ∀ d ∈ ds, re.inRanges DIGITS (.scalar d) = true) (n : Nat) :
    ds.foldl (fun n c => 10 * n + digitValue c) n = Nat.ofDigitChars 10 ds n := by
  induction ds generalizing n with
  | nil => simp
  | cons d ds ih =>
    obtain ⟨hd, hds⟩ := List.forall_mem_cons.mp h
    have hvalue : digitValue d = d.toNat - '0'.toNat := by
      have hle := (toNat_of_digit hd).2
      have hlow : ¬ 'a' ≤ d := fun hc => by
        have hc' : 97 ≤ d.toNat := hc
        omega
      have hup : ¬ 'A' ≤ d := fun hc => by
        have hc' : 65 ≤ d.toNat := hc
        omega
      rw [digitValue, if_neg hlow, if_neg hup]
    rw [List.foldl_cons, ih hds, hvalue]
    rfl

theorem IsNumeral.digits_of_mem {t : Text} (h : IsNumeral t) {c : Char} (hc : c ∈ t) :
    48 ≤ c.toNat ∧ c.toNat ≤ 57 := by
  cases h with
  | zero =>
    rw [List.mem_singleton.mp hc]
    decide
  | digits d ds hd hds =>
    rcases List.mem_cons.mp hc with rfl | hc
    · have hle : CodePoint.scalar '1' ≤ .scalar c ∧ CodePoint.scalar c ≤ .scalar '9' := by
        simpa [re.inRanges] using hd
      have hle' : 49 ≤ c.toNat ∧ c.toNat ≤ 57 := hle
      omega
    · exact toNat_of_digit (hds c hc)

theorem magnitude_numeral {t : Text} (h : IsNumeral t) : magnitude t = Nat.ofDigitChars 10 t 0 := by
  have hall := fun c (hc : c ∈ t) => h.digits_of_mem hc
  cases h with
  | zero => rfl
  | digits d ds hd hds =>
    have hne : d ≠ '0' := by
      rintro rfl
      revert hd
      decide
    have hcolon : ':' ∉ d :: ds := fun hc => by
      have hle := (hall ':' hc).2
      revert hle
      decide
    have hdigits : ∀ c ∈ d :: ds, re.inRanges DIGITS (.scalar c) = true := by
      intro c hc
      have hle : CodePoint.scalar '0' ≤ .scalar c ∧ CodePoint.scalar c ≤ .scalar '9' := hall c hc
      simpa [re.inRanges, DIGITS] using hle
    have htake : ∀ c, (d :: ds).take 2 ≠ ['0', c] := by
      intro c hc
      rw [List.take_succ_cons] at hc
      exact hne (List.cons.inj hc).1
    rw [magnitude, if_neg (by simp [hne]), if_neg (htake _), if_neg (htake _),
      if_neg (by simp [hne]), if_neg hcolon, numberIn, numberIn_digits hdigits]

/-- The parser constructs from a canonical integer the number that it writes. -/
theorem construct_numeral {t : Text} (h : IsNumeral t) :
    construct_yaml_int t = decimalValue t ∧
      construct_yaml_int ('-' :: t) = decimalValue ('-' :: t) := by
  have hne : ∀ {c : Char}, c ∈ t → c ≠ '_' ∧ c ≠ '-' ∧ c ≠ '+' := by
    intro c hc
    obtain ⟨hlow, hhigh⟩ := h.digits_of_mem hc
    refine ⟨?_, ?_, ?_⟩ <;>
      (rintro rfl; revert hlow hhigh; decide)
  have hfilter : t.filter (· ≠ '_') = t :=
    List.filter_eq_self.mpr fun c hc => decide_eq_true (hne hc).1
  have hhead : ∀ {c : Char}, t.head? = some c → c ≠ '-' ∧ c ≠ '+' := fun hc =>
    (hne (List.mem_of_head? hc)).2
  refine ⟨?_, ?_⟩
  · have hminus : t.head? ≠ some '-' := fun hc => (hhead hc).1 rfl
    have hplus : t.head? ≠ some '+' := fun hc => (hhead hc).2 rfl
    unfold construct_yaml_int decimalValue
    dsimp only
    rw [hfilter, if_neg hminus, if_neg hplus, magnitude_numeral h]
    split
    · exact (hminus rfl).elim
    · rfl
  · unfold construct_yaml_int
    dsimp only
    rw [List.filter_cons_of_pos (by decide), hfilter, if_pos (by rfl), List.tail_cons,
      magnitude_numeral h]
    rfl

/-- A canonical integer is none of the words, so it is converted. -/
theorem plain_scalar_of_canonical {text : Str} (h : matchesPattern CANONICAL_INTEGER text = true) :
    plain_scalar text = integer_within_interval ((toText? text).getD []) := by
  have hwords : ∀ word ∈ [lit "true", lit "false", lit "null"],
      re.fullmatch CANONICAL_INTEGER word ≠ some true := by decide +kernel
  have hne : ∀ word ∈ [lit "true", lit "false", lit "null"], text ≠ word := by
    rintro word hword rfl
    unfold matchesPattern at h
    exact hwords text hword (of_decide_eq_true h)
  unfold plain_scalar
  rw [if_neg (hne _ (by simp)), if_neg (hne _ (by simp)), if_neg (hne _ (by simp)), if_pos h]

/-- What a canonical integer gives: a failure of the runtime when it has too
many digits, else its number or a typed failure. -/
theorem outcome_canonical {text : Str} (h : matchesPattern CANONICAL_INTEGER text = true) :
    outcome (plain_scalar text) =
      if INT_MAX_STR_DIGITS < (digitsOf ((toText? text).getD [])).length then .error .value_error
      else
        let value := construct_yaml_int ((toText? text).getD [])
        if value < canon.MIN_SAFE_INTEGER ∨ canon.MAX_SAFE_INTEGER < value then
          .error (fail .canonical_form_invalid INTERVAL_MESSAGE)
        else .ok (.int value) := by
  obtain ⟨t, ht, htext⟩ := numeral_of_canonical h
  have hvalue : construct_yaml_int ((toText? text).getD []) =
      decimalValue ((toText? text).getD []) := by
    rcases htext with rfl | rfl
    · rw [toText?_ofText]
      exact (construct_numeral ht).1
    · rw [toText?_ofText]
      exact (construct_numeral ht).2
  rw [plain_scalar_of_canonical h, integer_within_interval, outcome_bind, outcome_int, hvalue]
  by_cases hlong : INT_MAX_STR_DIGITS < (digitsOf ((toText? text).getD [])).length
  · have hreach : withinLimit ((toText? text).getD []) = false := by
      rw [withinLimit, decide_eq_false_iff_not]
      omega
    rw [if_pos hlong, convert, Prog.limited, hreach]
    rfl
  · rw [if_neg hlong, convert_of_short (by omega), ok_bind]
    dsimp only
    split <;> rfl

/-- A canonical integer resolves to an integer and to nothing else. -/
theorem tag_of_canonical {text : Str} {tag : Tag} (h : resolve text = some tag)
    (hc : matchesPattern CANONICAL_INTEGER text = true) : tag = .int := by
  have hword := (matchesPattern_iff patterns_compile.1.1).mp hc
  by_contra hne
  rcases notation_of_resolve h with hw | hbreak
  · exact disjoint (apart_notations.1 tag (mem_resolvers tag) hne) hword hw
  · exact not_mem_of_wordOf (integer_characters.1 (.scalar '\n') (by decide)) hword hbreak

theorem isVerify_value_error : ¬ Exn.IsVerify .value_error := by
  rintro ⟨f, hf⟩
  cases hf

/-- A plain scalar that some resolver types keeps its type in the loader, or
is refused, exactly when it is none of the notations that the loader misses. -/
theorem plain_scalar_keeps_iff {text : Str} {tag : Tag} (h : resolve text = some tag) :
    Kept tag text ↔ ¬ Missed text := by
  constructor
  · rintro ⟨hkept, hstring⟩ hmissed
    rcases long_or_not_known hmissed with ⟨hc, hlong⟩ | hknown
    · rw [outcome_canonical hc, if_pos hlong] at hkept
      rcases hkept with ⟨v, hv, -⟩ | ⟨e, he, hverify⟩
      · cases hv
      · cases he
        exact isVerify_value_error hverify
    · rw [plain_scalar_of_not_known hknown] at hstring
      exact hstring rfl
  · intro hmissed
    have hknown := (known_or_missed h).resolve_right hmissed
    by_cases htrue : text = lit "true"
    · subst htrue
      have htag : resolve (lit "true") = some .bool := by decide +kernel
      obtain rfl := Option.some.inj (h.symm.trans htag)
      refine ⟨Or.inl ⟨.bool true, rfl, ?_⟩, by rintro ⟨⟩⟩
      exact congrArg (fun b => some (Value.bool b)) (by decide +kernel)
    by_cases hfalse : text = lit "false"
    · subst hfalse
      have htag : resolve (lit "false") = some .bool := by decide +kernel
      obtain rfl := Option.some.inj (h.symm.trans htag)
      have hout : outcome (plain_scalar (lit "false")) = .ok (.bool false) := by
        rw [plain_scalar, if_neg htrue, if_pos rfl]
        rfl
      refine ⟨Or.inl ⟨.bool false, hout, ?_⟩, by rw [hout]; rintro ⟨⟩⟩
      exact congrArg (fun b => some (Value.bool b)) (by decide +kernel)
    by_cases hnull : text = lit "null"
    · subst hnull
      have htag : resolve (lit "null") = some .null := by decide +kernel
      obtain rfl := Option.some.inj (h.symm.trans htag)
      have hout : outcome (plain_scalar (lit "null")) = .ok .null := by
        rw [plain_scalar, if_neg htrue, if_neg hfalse, if_pos rfl]
        rfl
      exact ⟨Or.inl ⟨.null, hout, rfl⟩, by rw [hout]; rintro ⟨⟩⟩
    by_cases hcanonical : matchesPattern CANONICAL_INTEGER text = true
    · obtain rfl := tag_of_canonical h hcanonical
      have hshort : ¬ INT_MAX_STR_DIGITS < (digitsOf ((toText? text).getD [])).length :=
        fun hl => hmissed (.long hcanonical hl)
      unfold Kept
      rw [outcome_canonical hcanonical, if_neg hshort]
      dsimp only
      split
      · exact ⟨Or.inr ⟨_, rfl, _, rfl⟩, by rintro ⟨⟩⟩
      · exact ⟨Or.inl ⟨_, rfl, rfl⟩, by rintro ⟨⟩⟩
    · obtain ⟨e, he, hverify⟩ := plain_scalar_of_known hknown htrue hfalse hnull hcanonical
      exact ⟨Or.inr ⟨e, he, hverify⟩, by rw [he]; rintro ⟨⟩⟩

/-- It is so for the literal of a boolean. -/
theorem plain_scalar_keeps_true : Kept .bool (lit "true") ↔ ¬ Missed (lit "true") :=
  plain_scalar_keeps_iff (by decide +kernel)

/-- The parser reads `1_000` as an integer, and the loader as a string. -/
theorem grouped_integer_becomes_a_string :
    resolve (lit "1_000") = some .int ∧ outcome (plain_scalar (lit "1_000")) = .ok (.str (lit "1_000")) ∧
      ¬ Kept .int (lit "1_000") := by
  have hbool : answers (lit "1_000") .bool = false := by decide +kernel
  have hfloat : answers (lit "1_000") .float = false :=
    of_literal (P := fun s => (decide ((lit "1_000").head? ∈ firsts .float) &&
      decide (matchAtStart (lit "^(?:" ++ s ++ lit ")$") (lit "1_000") = some true)) = false) rfl
      (by decide +kernel)
  have hint : answers (lit "1_000") .int = true :=
    of_literal (P := fun s => (decide ((lit "1_000").head? ∈ firsts .int) &&
      decide (matchAtStart (lit "^(?:" ++ s ++ lit ")$") (lit "1_000") = some true)) = true) rfl
      (by decide +kernel)
  have hreserved : matchesPattern RESERVED_INTEGER_NOTATION (lit "1_000") ≠ true := by
    unfold matchesPattern
    rw [Ne, decide_eq_true_eq]
    exact of_literal (P := fun s => re.fullmatch s (lit "1_000") ≠ some true) rfl
      (by decide +kernel)
  have hgroup : CodePoint.scalar '_' ∈ lit "1_000" := by decide +kernel
  have hstring : outcome (plain_scalar (lit "1_000")) = .ok (.str (lit "1_000")) := by
    rw [plain_scalar_of_not_known]
    · rfl
    · exact not_known_of_mem hgroup (by decide) hreserved (not_timestamp_of_mem hgroup (by decide))
  refine ⟨?_, hstring, fun hkept => hkept.2 hstring⟩
  rw [resolve, resolvers, List.find?_cons_of_neg (by simp [hbool]),
    List.find?_cons_of_neg (by simp [hfloat]), List.find?_cons_of_pos hint]

end vfy.load
