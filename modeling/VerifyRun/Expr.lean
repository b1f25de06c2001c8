-- Expression parsing: a `when` string becomes one tree. The lexer and the
-- recursive-descent parser move one cursor over the source; the loops of the
-- parser have fuel, and later laws say that it never runs out.
import VerifyRun.Rulebook

namespace vfy.expr

open calls python

/-- The greatest nesting of parentheses and lists. -/
def MAX_NESTING : Nat := 64

def PATH_ROOTS : List Str := ["candidate", "evidence", "identity"]

def FUNCTIONS : List Str := ["fresh", "present", "matches"]

def KEYWORDS : List Str :=
  [lit "and", lit "or", lit "not", lit "in", lit "true", lit "false"] ++ FUNCTIONS

def COMPARISON_OPERATORS : List Str := ["==", "!=", "<=", ">=", "<", ">"]

/-! ## The cursor -/

/-- Where the parser is. -/
structure Cursor where
  position : Nat
  nesting : Nat

/-- A step of the parser: it moves the cursor, it may fail, and it may ask the
runtime for an integer. -/
abbrev Parser (α : Type) := StateT Cursor Py α

/-- The source from an offset on. -/
def from_ (source : Str) (offset : Nat) : Str := source.drop offset

/-- `source[offset:offset + 1]`. -/
def character_at (source : Str) (offset : Nat) : Str := (source.drop offset).take 1

/-! ## Failures -/

/-- `_line_column`. -/
def line_column (source : Str) (offset : Nat) : Nat × Nat :=
  let before := source.take offset
  let after_newline := (before.reverse.takeWhile (· ≠ .scalar '\n')).length
  (before.count (.scalar '\n') + 1, offset - (before.length - after_newline) + 1)

def parse_error (source message expected : Str) (offset : Nat) (token : Str) : Exn :=
  let (line, column) := line_column source offset
  .verify { code := .expression_parse_error, message,
            location := .expression offset line column token (some expected) }

def type_error (source message : Str) (offset : Nat) (token : Str) : Exn :=
  let (line, column) := line_column source offset
  .verify { code := .expression_type_error, message,
            location := .expression offset line column token none }

/-- `_fail`, with an offset and a token. -/
def fail_at {α : Type} (source message expected : Str) (offset : Nat) (token : Str) : Parser α :=
  fun _ => raise (parse_error source message expected offset token)

/-- `_fail`, at the cursor. -/
def fail_here {α : Type} (source message expected : Str) : Parser α := fun cursor =>
  raise (parse_error source message expected cursor.position
    (character_at source cursor.position))

/-- `_type_fail`. -/
def type_fail {α : Type} (source message : Str) (offset : Nat) (token : Str) : Parser α :=
  fun _ => raise (type_error source message offset token)

/-- `_type_fail`, at the cursor and with the character there. -/
def type_fail_here {α : Type} (source message : Str) : Parser α := fun cursor =>
  raise (type_error source message cursor.position (character_at source cursor.position))

/-! ## Lexing -/

def isWhitespace (c : CodePoint) : Bool :=
  c = .scalar ' ' ∨ c = .scalar '\t' ∨ c = .scalar '\r' ∨ c = .scalar '\n'

/-- `self.position += n`. -/
def advance (n : Nat) : Parser Unit :=
  modify fun cursor => { cursor with position := cursor.position + n }

/-- `self.position`. -/
def position : Parser Nat := do
  let cursor ← get
  pure cursor.position

/-- `self.nesting`. -/
def nesting : Parser Nat := do
  let cursor ← get
  pure cursor.nesting

def set_nesting (n : Nat) : Parser Unit := modify fun cursor => { cursor with nesting := n }

/-- The source from the cursor on. -/
def remaining (source : Str) : Parser Str := do
  let cursor ← get
  pure (from_ source cursor.position)

def skip_whitespace (source : Str) : Parser Unit := do
  let rest ← remaining source
  advance (rest.takeWhile isWhitespace).length

def at_end (source : Str) : Parser Bool := do
  skip_whitespace source
  let rest ← remaining source
  pure (rest = [])

/-- The identifier at the head of a string. -/
def wordOf : Str → Option Str
  | c :: rest =>
    if schema.identifierStart c then some (c :: rest.takeWhile schema.identifierPart) else none
  | [] => none

/-- The identifier or keyword at the cursor, without consuming it. -/
def peek_word (source : Str) : Parser (Option Str) := do
  skip_whitespace source
  let rest ← remaining source
  pure (wordOf rest)

def take_word (source : Str) : Parser Str := do
  match ← peek_word source with
  | some word => do
    advance word.length
    pure word
  | none => fail_here source "An identifier was expected." "identifier"

def peek_symbol (source symbol : Str) : Parser Bool := do
  skip_whitespace source
  let rest ← remaining source
  pure (symbol.isPrefixOf rest)

def take_symbol (source symbol expected : Str) : Parser Unit := do
  if ← peek_symbol source symbol then advance symbol.length
  else fail_here source (lit "'" ++ symbol ++ lit "' was expected.") expected

/-- Consume a keyword only when it stands alone, never as a prefix of an
identifier. -/
def take_keyword_if (source word : Str) : Parser Bool := do
  if (← peek_word source) = some word then do
    advance word.length
    pure true
  else pure false

/-! ## Literals -/

/-- `_STRING_ESCAPES`. -/
def string_escapes : CodePoint → Option CodePoint
  | .scalar '"' => some (.scalar '"')
  | .scalar '\\' => some (.scalar '\\')
  | .scalar 'b' => some (.scalar '\x08')
  | .scalar 't' => some (.scalar '\t')
  | .scalar 'n' => some (.scalar '\n')
  | .scalar 'f' => some (.scalar '\x0c')
  | .scalar 'r' => some (.scalar '\r')
  | _ => none

/-- The number of four hexadecimal digits at the head of a string. -/
def hexDigits : Str → Option Nat
  | .scalar a :: .scalar b :: .scalar c :: .scalar d :: _ => json.hexNumber a b c d
  | _ => none

/-- The loop of `_string_literal`, after the opening quote at `start`. -/
def string_pieces (source : Str) (start : Nat) : Nat → Str → Parser Str
  | 0, _ => fun _ => raise .recursion_error
  | fuel + 1, pieces => do
    match ← remaining source with
    | [] => fail_at source "Unterminated string literal." "closing quote" start "\""
    | .scalar '"' :: _ => do
      advance 1
      pure pieces
    | .scalar '\n' :: _ =>
      fail_here source "A literal newline is not permitted inside a string." "string content"
    | .scalar '\\' :: rest => do
      advance 1
      match rest with
      | [] => fail_here source "Unterminated escape sequence." "escape"
      | marker :: rest =>
        match string_escapes marker with
        | some c => do
          advance 1
          string_pieces source start fuel (pieces ++ [c])
        | none =>
          if marker = .scalar 'u' then
            match hexDigits rest with
            | none => fail_here source "A \\u escape needs four hexadecimal digits." "escape"
            | some code_point =>
              if 0xD800 ≤ code_point ∧ code_point ≤ 0xDFFF then
                fun _ => raise (fail .surrogate_not_permitted
                  "A string may not carry a code point in U+D800-U+DFFF.")
              else do
                advance 5
                string_pieces source start fuel (pieces ++ [.scalar (Char.ofNat code_point)])
          else do
            fail_at source "Unsupported escape sequence." "escape" (← position)
              [.scalar '\\', marker]
    | character :: _ => do
      advance 1
      string_pieces source start fuel (pieces ++ [character])

def string_literal (source : Str) : Parser Str := do
  skip_whitespace source
  let start ← position
  take_symbol source "\"" "string"
  string_pieces source start (source.length + 1) []

def isDigit (c : CodePoint) : Bool := (re.digit? c).isSome

/-- `0|[1-9][0-9]*` at the head of a string. -/
def indexOf : Str → Option Str
  | c :: rest =>
    if c = .scalar '0' then some [c]
    else if isDigit c then some (c :: rest.takeWhile isDigit)
    else none
  | [] => none

/-- `-?(0|[1-9][0-9]*)` at the head of a string. -/
def integerOf : Str → Option Str
  | .scalar '-' :: rest => (indexOf rest).map fun digits => .scalar '-' :: digits
  | rest => indexOf rest

/-- `int(text)` of ASCII decimal text. -/
def int_of (text : Str) : Parser Int := fun cursor => do
  let value ← int (text.filterMap fun c =>
    match c with
    | .scalar ch => some ch
    | .surrogate _ => none)
  pure (value, cursor)

def integer_literal (source text : Str) : Parser Value := do
  let offset ← position
  advance text.length
  let following := character_at source (offset + text.length)
  if following = lit "." ∨ following = lit "e" ∨ following = lit "E" then
    fail_at source "Numbers are integers only; carry decimals as quoted strings." "integer" offset
      (text ++ following)
  else do
    let value ← int_of text
    if value < canon.MIN_SAFE_INTEGER ∨ value > canon.MAX_SAFE_INTEGER then
      fail_at source "Integer outside the range every implementation holds exactly." "integer"
        offset text
    else pure (.int value)

/-- One member of a list literal. `inner` reads a list inside it. -/
def list_member (source : Str) (inner : Parser (List Value)) : Parser Value := do
  skip_whitespace source
  let word ← peek_word source
  if word = some (lit "true") then do
    advance 4
    pure (.bool true)
  else if word = some (lit "false") then do
    advance 5
    pure (.bool false)
  else if ← peek_symbol source "\"" then do
    let text ← string_literal source
    pure (.str text)
  else if ← peek_symbol source "[" then do
    let members ← inner
    pure (.list members)
  else
    match integerOf (← remaining source) with
    | some text => integer_literal source text
    | none => fail_here source "A list holds literals only." "literal"

/-- The loop of `_list_literal`, where a member is expected. -/
def list_members (source : Str) (inner : Parser (List Value)) :
    Nat → List Value → Parser (List Value)
  | 0, _ => fun _ => raise .recursion_error
  | fuel + 1, members => do
    let value ← list_member source inner
    skip_whitespace source
    if ← peek_symbol source "," then do
      advance 1
      skip_whitespace source
      if ← peek_symbol source "]" then
        fail_here source "A trailing comma is not permitted in a list." "literal"
      else list_members source inner fuel (members ++ [value])
    else do
      take_symbol source "]" "closing bracket or comma"
      pure (members ++ [value])

def tooNested {α : Type} (source : Str) : Parser α :=
  fail_here source "Expression nests deeper than the declared maximum of 64." "expression"

/-- The part of `_list_literal` after the opening bracket. -/
def list_body (source : Str) (inner : Parser (List Value)) : Parser (List Value) := do
  skip_whitespace source
  if ← peek_symbol source "]" then do
    advance 1
    pure []
  else list_members source inner (source.length + 1) []

/-- `_list_literal`, with so many levels of lists left. -/
def list_literal (source : Str) : Nat → Parser (List Value)
  | 0 => fun _ => raise .recursion_error
  | levels + 1 => do
    let depth ← nesting
    if depth ≥ MAX_NESTING then tooNested source
    else do
      take_symbol source "[" "opening bracket"
      set_nesting (depth + 1)
      let members ← list_body source (list_literal source levels)
      set_nesting depth
      pure members

/-- More levels than any source nests. -/
def LEVELS : Nat := MAX_NESTING + 1

/-! ## Paths and operands -/

/-- The loop of `_path`. -/
def path_segments (source : Str) : Nat → List Value → Parser (List Value)
  | 0, _ => fun _ => raise .recursion_error
  | fuel + 1, segments => do
    if ← peek_symbol source "." then do
      advance 1
      let word ← take_word source
      path_segments source fuel (segments ++ [.dict [("member", .str word)]])
    else if ← peek_symbol source "[" then do
      advance 1
      skip_whitespace source
      match indexOf (← remaining source) with
      | none => fail_here source "An index must be a non-negative canonical integer." "index"
      | some text => do
        advance text.length
        let index ← int_of text
        take_symbol source "]" "closing bracket"
        path_segments source fuel (segments ++ [.dict [("index", .int index)]])
    else pure segments

def path (source : Str) : Parser Value := do
  let root ← take_word source
  take_symbol source "." "dot"
  let word ← take_word source
  let segments ← path_segments source (source.length + 1) [.dict [("member", .str word)]]
  pure (.dict [("type", .str "path"), ("root", .str root), ("segments", .list segments)])

/-- `{"type": "literal", "value": value}`. -/
def literal_node (value : Value) : Value := .dict [("type", .str "literal"), ("value", value)]

def operand (source : Str) : Parser Value := do
  skip_whitespace source
  let word ← peek_word source
  if word.any (· ∈ PATH_ROOTS) then path source
  else if word = some (lit "true") then do
    advance 4
    pure (literal_node (.bool true))
  else if word = some (lit "false") then do
    advance 5
    pure (literal_node (.bool false))
  else if ← peek_symbol source "\"" then do
    let text ← string_literal source
    pure (literal_node (.str text))
  else if ← peek_symbol source "[" then do
    let members ← list_literal source LEVELS
    pure (literal_node (.list members))
  else do
    skip_whitespace source
    match integerOf (← remaining source) with
    | some text => do
      let value ← integer_literal source text
      pure (literal_node value)
    | none => fail_here source "An operand was expected." "operand"

/-! ## Static checks -/

/-- `_canonical_kind`. -/
def canonical_kind : Value → Str
  | .bool _ => "boolean"
  | .int _ => "integer"
  | .str _ => "string"
  | _ => "list"

/-- `\A-?(0|[1-9][0-9]*)(\.[0-9]+)?\Z`. -/
def is_decimal_string (s : Str) : Bool :=
  match integerOf s with
  | none => false
  | some whole =>
    match s.drop whole.length with
    | [] => true
    | .scalar '.' :: c :: rest => (c :: rest).all isDigit
    | _ => false

def is_numeric : Value → Bool
  | .int _ => true
  | .str s => is_decimal_string s
  | _ => false

/-- The value of a literal node. -/
def literal_value (node : Value) : Option Value :=
  match node.get? "type" with
  | some (.str kind) => if kind = lit "literal" then node.get? "value" else none
  | _ => none

def check_literal_comparison (source : Str) (left right : Value) (offset : Nat) (operator : Str) :
    Parser Unit := do
  match literal_value left, literal_value right with
  | some first, some second =>
    if canonical_kind first ≠ canonical_kind second then
      type_fail source "A literal is compared to a literal of another type." offset operator
    else if operator ∉ [lit "==", lit "!="] ∧ ¬ (is_numeric first ∧ is_numeric second) then
      type_fail source "An ordering comparison needs numeric operands." offset operator
    else pure ()
  | _, _ => pure ()

/-! ## Functions -/

/-- "`name` takes exactly arity argument(s)." -/
def arity_message (name : Str) (arity : String) : Str :=
  lit "`" ++ name ++ lit "` takes exactly " ++ lit arity ++ lit " argument(s)."

def reject_extra_arguments (source name : Str) (arity : String) : Parser Unit := do
  skip_whitespace source
  if ← peek_symbol source "," then
    type_fail source (arity_message name arity) (← position) ","
  else pure ()

def close_call (source name : Str) (arity : String) : Parser Unit := do
  skip_whitespace source
  if ← peek_symbol source ")" then advance 1
  else type_fail_here source (arity_message name arity)

/-- The argument of `fresh` or `present`. -/
def evidence_function (source name : Str) : Parser Value := do
  skip_whitespace source
  let argument_offset ← position
  match ← peek_word source with
  | none =>
    type_fail source (lit "`" ++ name ++ lit "` takes one evidence identifier.")
      argument_offset (character_at source argument_offset)
  | some word =>
    if word ∈ KEYWORDS then
      type_fail source (lit "`" ++ name ++ lit "` takes one evidence identifier.")
        argument_offset (character_at source argument_offset)
    else do
      advance word.length
      skip_whitespace source
      if (← peek_symbol source ".") || (← peek_symbol source "[") then
        type_fail source (lit "`" ++ name ++ lit "` names a declared evidence id, not a path.")
          argument_offset word
      else do
        reject_extra_arguments source name "1"
        close_call source name "1"
        pure (.dict [("type", .str name), ("evidence_id", .str word)])

/-- The arguments of `matches`. -/
def matches_function (source : Str) : Parser Value := do
  skip_whitespace source
  let argument_offset ← position
  let word ← peek_word source
  if ¬ word.any (· ∈ PATH_ROOTS) then
    type_fail source "`matches` takes a path as its first argument." argument_offset
      (character_at source argument_offset)
  else do
    let path ← path source
    skip_whitespace source
    if ¬ (← peek_symbol source ",") then
      type_fail_here source "`matches` takes exactly 2 arguments."
    else do
      advance 1
      skip_whitespace source
      let pattern_offset ← position
      if ¬ (← peek_symbol source "\"") then
        type_fail source "`matches` takes a string pattern as its second argument." pattern_offset
          (character_at source pattern_offset)
      else do
        let pattern ← string_literal source
        reject_extra_arguments source "matches" "2"
        close_call source "matches" "2"
        pure (.dict [("type", .str "matches"), ("path", path), ("pattern", .str pattern)])

/-- `_function`. -/
def function (source : Str) : Parser Value := do
  let name ← take_word source
  take_symbol source "(" "opening parenthesis"
  if name = lit "fresh" ∨ name = lit "present" then evidence_function source name
  else matches_function source

/-! ## Predicates -/

def membership (source : Str) (operand : Value) (operator : Str) : Parser Value := do
  skip_whitespace source
  if ¬ (← peek_symbol source "[") then
    type_fail_here source
      (lit "The right operand of `" ++ operator ++ lit "` must be a list literal.")
  else do
    let members ← list_literal source LEVELS
    pure (.dict [("type", .str "membership"), ("operator", .str operator), ("operand", operand),
      ("list", literal_node (.list members))])

/-- The comparison operator at the cursor. -/
def comparison_operator (source : Str) : Parser (Option Str) := do
  skip_whitespace source
  let rest ← remaining source
  pure (COMPARISON_OPERATORS.find? fun operator => operator.isPrefixOf rest)

def reject_chained_comparison (source : Str) : Parser Unit := do
  match ← comparison_operator source with
  | some _ => fail_here source "Comparisons do not chain." "end of comparison"
  | none => pure ()

/-- What `str.strip()` takes off. -/
def isUnicodeSpace (c : CodePoint) : Bool :=
  let n := c.ord
  (0x9 ≤ n ∧ n ≤ 0xD) ∨ (0x1C ≤ n ∧ n ≤ 0x20) ∨ n = 0x85 ∨ n = 0xA0 ∨ n = 0x1680 ∨
    (0x2000 ≤ n ∧ n ≤ 0x200A) ∨ n = 0x2028 ∨ n = 0x2029 ∨ n = 0x202F ∨ n = 0x205F ∨ n = 0x3000

def strip (s : Str) : Str :=
  ((s.dropWhile isUnicodeSpace).reverse.dropWhile isUnicodeSpace).reverse

def comparison (source : Str) : Parser Value := do
  let word ← peek_word source
  if word.any (· ∈ FUNCTIONS) then function source
  else do
    let start ← position
    let left ← operand source
    if ← take_keyword_if source "not" then do
      if ← take_keyword_if source "in" then membership source left "not in"
      else fail_here source "`in` was expected after `not`." "in"
    else if ← take_keyword_if source "in" then membership source left "in"
    else
      match ← comparison_operator source with
      | some operator => do
        let operator_offset ← position
        advance operator.length
        let right ← operand source
        reject_chained_comparison source
        check_literal_comparison source left right operator_offset operator
        pure (.dict [("type", .str "compare"), ("operator", .str operator), ("left", left),
          ("right", right)])
      | none => do
        let stop ← position
        let token := strip ((source.take stop).drop start)
        fail_at source "A bare operand is not a predicate." "comparison operator" start
          (if token = [] then character_at source start else token)

/-! ## Connectives -/

/-- An expression in parentheses, at the opening one. `inner` reads what they hold. -/
def parenthesized (source : Str) (inner : Parser Value) : Parser Value := do
  let depth ← nesting
  if depth ≥ MAX_NESTING then tooNested source
  else do
    advance 1
    set_nesting (depth + 1)
    let node ← inner
    set_nesting depth
    take_symbol source ")" "closing parenthesis"
    pure node

/-- What `not` stands before. -/
def unnegated (source : Str) (inner : Parser Value) : Parser Value := do
  if ← peek_symbol source "(" then parenthesized source inner else comparison source

def not_expression (source : Str) (inner : Parser Value) : Parser Value := do
  if ← take_keyword_if source "not" then
    if (← peek_word source) = some (lit "not") then
      fail_here source "`not not` is not derivable; write `not (not …)`." "predicate"
    else do
      let node ← unnegated source inner
      pure (.dict [("type", .str "not"), ("operand", node)])
  else unnegated source inner

/-- The loop of `_or_expression` and of `_and_expression`. -/
def more_operands (source keyword : Str) (item : Parser Value) :
    Nat → List Value → Parser (List Value)
  | 0, _ => fun _ => raise .recursion_error
  | fuel + 1, operands => do
    if ← take_keyword_if source keyword then do
      let operand ← item
      more_operands source keyword item fuel (operands ++ [operand])
    else pure operands

/-- Operands with a keyword between them. One operand alone is itself. -/
def connective (source keyword : Str) (item : Parser Value) : Parser Value := do
  let first ← item
  match ← more_operands source keyword item (source.length + 1) [first] with
  | [operand] => pure operand
  | operands => pure (.dict [("type", .str keyword), ("operands", .list operands)])

def and_expression (source : Str) (inner : Parser Value) : Parser Value :=
  connective source "and" (not_expression source inner)

/-- `_or_expression`, with so many levels of parentheses left. -/
def or_expression (source : Str) : Nat → Parser Value
  | 0 => fun _ => raise .recursion_error
  | levels + 1 => connective source "or" (and_expression source (or_expression source levels))

/-- `_Parser.parse`. -/
def parse (source : Str) : Parser Value := do
  if ← at_end source then
    fail_at source "An expression was expected." "expression" source.length []
  else do
    let tree ← or_expression source LEVELS
    if ← at_end source then pure tree
    else fail_here source "Unexpected trailing input." "end of expression"

/-! ## Parsed expressions -/

/-- A parsed expression. -/
structure ParsedExpression where
  source : Str
  canonical : Text
  evidence_ids : List Str

/-- A fresh reconstruction of the tree. -/
def ParsedExpression.ast (parsed : ParsedExpression) : Except Exn Value :=
  load.load_json_bytes (String.ofList parsed.canonical).toByteArray

/-- `_append_once`. -/
def append_once (out : List Str) (identifier : Value) : Except Exn (List Str) := do
  let identifier ← string identifier
  pure (if identifier ∈ out then out else out ++ [identifier])

/-- `_collect_evidence_ids`, on a stack of so many frames. -/
def collect_evidence_ids : Nat → List Str → Value → Except Exn (List Str)
  | 0, _, _ => .error .recursion_error
  | frames + 1, out, node => do
    let kind ← getItem node "type"
    if isStr kind "fresh" || isStr kind "present" then
      append_once out (← getItem node "evidence_id")
    else if isStr kind "path" then do
      let root ← getItem node "root"
      if isStr root "evidence" then
        match ← iterate (← getItem node "segments") with
        | [] => pure out
        | first :: _ =>
          match first.get? "member" with
          | some identifier => append_once out identifier
          | none => pure out
      else pure out
    else if isStr kind "and" || isStr kind "or" then do
      let operands ← iterate (← getItem node "operands")
      operands.foldlM (collect_evidence_ids frames) out
    else if isStr kind "not" then
      collect_evidence_ids frames out (← getItem node "operand")
    else if isStr kind "compare" then do
      let out ← collect_evidence_ids frames out (← getItem node "left")
      collect_evidence_ids frames out (← getItem node "right")
    else if isStr kind "membership" then
      collect_evidence_ids frames out (← getItem node "operand")
    else if isStr kind "matches" then
      collect_evidence_ids frames out (← getItem node "path")
    else pure out

/-- `parse_expression`, as a computation that asks the runtime for its integers. -/
def parsing (source : Str) : Py ParsedExpression := do
  let (tree, _) ← parse source { position := 0, nesting := 0 }
  let evidence_ids ← lift (collect_evidence_ids schema.FRAMES [] tree)
  let canonical ← lift (canon.canonicalize tree)
  let _ ← load.loading (String.ofList canonical).toByteArray
  pure { source, canonical, evidence_ids }

/-- Return the parsed expression for one `when` string. -/
def parse_expression (source : Value) : Except Exn ParsedExpression :=
  match source with
  | .str source => outcome (parsing source)
  | _ => .error .type_error

/-- Check every evidence reference against the pinned declarations. -/
def validate_expression (parsed : ParsedExpression) (loaded : rulebook.LoadedRulebook) :
    Except Exn Unit := do
  let declared ← byId (← getItem (← loaded.value) "evidence")
  forM parsed.evidence_ids fun identifier =>
    outcomes.raiseIf (declared.lookup identifier).isNone (fail .undeclared_evidence_id
      (lit "An expression names an evidence id the rulebook does not declare: " ++ identifier))

end vfy.expr
