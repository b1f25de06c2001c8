-- The YAML subset: the parser hands over a stream of events, and every value
-- is built here, one event at a time. Anchors, aliases, tags, merge keys and
-- the scalars that some implementation resolves to a number are refused.
import VerifyRun.Dynamic
import VerifyRun.Load
import VerifyRun.Pattern

namespace vfy.load

open calls python outcomes

/-! ## Events -/

/-- An event of the YAML parser. -/
inductive Event where
  | stream_start
  | stream_end
  | document_start
  | document_end
  | aliased (anchor : Str)
  | scalar (anchor tag style : Option Str) (value : Str)
  | sequence_start (anchor tag : Option Str)
  | sequence_end
  | mapping_start (anchor tag : Option Str)
  | mapping_end
deriving DecidableEq

/-- `yaml.parse`, which is another package: the events of a text, or nothing
where it raises a `YAMLError`. -/
abbrev Yaml := Text → Option (List Event)

/-- The events of one node. -/
inductive IsNode : List Event → Prop where
  | aliased (anchor : Str) : IsNode [.aliased anchor]
  | scalar (anchor tag style : Option Str) (value : Str) : IsNode [.scalar anchor tag style value]
  | sequence (anchor tag : Option Str) {nodes : List (List Event)} (h : ∀ node ∈ nodes, IsNode node) :
    IsNode (.sequence_start anchor tag :: (nodes.flatten ++ [.sequence_end]))
  | mapping (anchor tag : Option Str) {nodes : List (List Event)} (h : ∀ node ∈ nodes, IsNode node) :
    IsNode (.mapping_start anchor tag :: (nodes.flatten ++ [.mapping_end]))

/-- The events of one document. -/
def document (node : List Event) : List Event := .document_start :: (node ++ [.document_end])

/-- The events of a stream of documents. -/
def stream (nodes : List (List Event)) : List Event :=
  .stream_start :: ((nodes.map document).flatten ++ [.stream_end])

/-- The parser hands over streams of documents, and nothing else. -/
def Yaml.Streams (yaml : Yaml) : Prop :=
  ∀ text events, yaml text = some events →
    ∃ nodes, events = stream nodes ∧ ∀ node ∈ nodes, IsNode node

/-! ## Plain scalars -/

/-- A plain scalar under one of the two parsers. -/
def isPlain (style : Option Str) : Bool := style = none ∨ style = some []

/-- `_CANONICAL_INTEGER`. -/
def CANONICAL_INTEGER : Str := "-?(0|[1-9][0-9]*)"

def RESERVED_BOOLEANS : List Str :=
  ["True", "False", "TRUE", "FALSE", "yes", "Yes", "YES", "no", "No", "NO", "on", "On", "ON", "off",
    "Off", "OFF"]

def RESERVED_NULLS : List Str := ["~", "Null", "NULL", ""]

/-- Integer notations some implementation resolves to a number. -/
def RESERVED_INTEGER_NOTATION : Str :=
  "[-+]?0[xX][0-9a-fA-F_]+|[-+]?0[bB][01_]+|[-+]?0[oO][0-7_]+|[-+]?[0-9][0-9_]*(:[0-5]?[0-9])+|\\+[0-9]+|-?0[0-9]+"

def RESERVED_TIMESTAMP : Str :=
  "[0-9]\x7b4\x7d-[0-9]\x7b1,2\x7d-[0-9]\x7b1,2\x7d([Tt ][0-9]\x7b1,2\x7d:[0-9]\x7b2\x7d:[0-9]\x7b2\x7d(\\.[0-9]*)?([ ]*([Zz]|[-+][0-9]\x7b1,2\x7d(:[0-9]\x7b2\x7d)?))?)?"

def RESERVED_FLOAT : Str :=
  "[-+]?(\\.[0-9]+|[0-9]+(\\.[0-9]*)?)([eE][-+]?[0-9]+)?|[-+]?\\.(inf|Inf|INF|nan|NaN|NAN)"

/-- A pattern of the module matches a whole text. -/
@[irreducible] def matchesPattern (pattern text : Str) : Bool := re.fullmatch pattern text = some true

/-- `_plain_scalar`. -/
def plain_scalar (text : Str) : Py Value :=
  if text = lit "true" then pure (.bool true)
  else if text = lit "false" then pure (.bool false)
  else if text = lit "null" then pure .null
  else if matchesPattern CANONICAL_INTEGER text then
    -- the pattern admits digits and a sign, so the text has no surrogate
    integer_within_interval ((toText? text).getD [])
  else if text ∈ RESERVED_BOOLEANS ∨ text ∈ RESERVED_NULLS then
    raise (fail .source_construct_unsupported
      "Only lowercase true, false, and null are typed; quote this scalar or write it canonically.")
  else if matchesPattern RESERVED_INTEGER_NOTATION text ∨ matchesPattern RESERVED_TIMESTAMP text then
    raise (fail .source_construct_unsupported
      "This plain scalar resolves to a number or a timestamp in some YAML implementations; quote it or write a canonical integer.")
  else if matchesPattern RESERVED_FLOAT text then raise (fail .float_not_permitted FLOAT_MESSAGE)
  else pure (.str text)

/-! ## Building the value -/

/-- An open collection. -/
inductive Frame where
  | map (members : List (Str × Value)) (pending : Option Str) (seen : List Str)
  | seq (items : List Value)

/-- The open collections, the innermost first, and the root once it is there. -/
structure Builder where
  stack : List Frame
  root : Option Value

/-- The value takes its place in the innermost collection. -/
def Frame.add (value : Value) : Frame → Except Exn Frame
  | .seq items => .ok (.seq (items ++ [value]))
  | .map members (some key) seen => .ok (.map (setItem members key value) none seen)
  | .map members none seen =>
    match value with
    | .str key =>
      if key = lit "<<" then
        .error (fail .source_construct_unsupported "A merge key is not part of the subset.")
      else if key ∈ seen then
        .error (fail .canonical_form_invalid "Duplicate mapping key in source.")
      else .ok (.map members (some key) (key :: seen))
    | _ => .error (fail .canonical_form_invalid "Mapping keys are always strings in the subset.")

/-- `_place`. -/
def place (builder : Builder) (value : Value) : Except Exn Builder :=
  match builder.stack with
  | [] => .ok { builder with root := some value }
  | frame :: rest => do
    let frame ← frame.add value
    pure { builder with stack := frame :: rest }

def TAG_MESSAGE : Str := "An explicit tag is not part of the subset: "

/-- A field of an event that is there and is not empty. -/
def truthy (field : Option Str) : Option Str := field.filter (· ≠ [])

/-- An explicit tag is refused. -/
def refuse_tag (tag : Option Str) : Except Exn Unit :=
  match truthy tag with
  | some text => .error (fail .source_construct_unsupported (TAG_MESSAGE ++ text))
  | none => .ok ()

def refuse_anchor (anchor : Option Str) : Except Exn Unit :=
  raiseIf (truthy anchor ≠ none)
    (fail .source_construct_unsupported "An anchor is not part of the subset.")

/-- `_yaml_scalar_value`. -/
def yaml_scalar_value (tag style : Option Str) (value : Str) : Py Value := do
  lift (refuse_tag tag)
  if isPlain style then plain_scalar value else pure (.str value)

/-- A collection opens. -/
def push (builder : Builder) (frame : Frame) : Except Exn Builder := do
  let stack := frame :: builder.stack
  raiseIf ((stack.length : Int) > MAX_DEPTH)
    (fail .source_too_deep "Source nests deeper than the declared maximum of 64.")
  pure { builder with stack }

/-- The value of a collection that closes. -/
def Frame.value : Frame → Except Exn Value
  | .map _ (some _) _ =>
    .error (fail .source_syntax_invalid "Mapping ended with a key and no value.")
  | .map members none _ => .ok (.dict members)
  | .seq items => .ok (.list items)

/-- A collection closes. -/
def pop (builder : Builder) : Except Exn Builder :=
  match builder.stack with
  | [] => .error .index_error
  | frame :: rest => do
    let value ← frame.value
    place { builder with stack := rest } value

/-- One turn of the loop over the events. -/
def step (builder : Builder) : Event → Py Builder
  | .aliased _ =>
    raise (fail .source_construct_unsupported "An alias is not part of the subset.")
  | .scalar anchor tag style value => do
    lift (refuse_anchor anchor)
    let value ← yaml_scalar_value tag style value
    lift (place builder value)
  | .sequence_start anchor tag => do
    lift (refuse_anchor anchor)
    lift (refuse_tag tag)
    lift (push builder (.seq []))
  | .mapping_start anchor tag => do
    lift (refuse_anchor anchor)
    lift (refuse_tag tag)
    lift (push builder (.map [] none []))
  | .sequence_end => lift (pop builder)
  | .mapping_end => lift (pop builder)
  | _ => pure builder

/-- The loop over the events. -/
def build (builder : Builder) : List Event → Py Builder
  | [] => pure builder
  | event :: events => do
    let builder ← step builder event
    build builder events

/-- The events of the only document. -/
def body_of (events : List Event) : Except Exn (List Event) := do
  let starts := events.count .document_start
  raiseIf (starts = 0) (fail .source_syntax_invalid "Source contains no document.")
  raiseIf (starts > 1) (fail .source_syntax_invalid "Source contains more than one document.")
  raiseIf (.document_end ∉ events) .stop_iteration
  let start := events.idxOf .document_start + 1
  pure ((events.take (events.idxOf .document_end)).drop start)

/-- The document is one plain scalar with nothing in it. -/
def isEmptyDocument : List Event → Bool
  | [.scalar _ _ style value] => isPlain style && decide (value = [])
  | _ => false

/-- The document starts with a mapping. -/
def startsMapping : List Event → Bool
  | .mapping_start _ _ :: _ => true
  | _ => false

/-- `_value_from_yaml_events`. -/
def value_from_yaml_events (events : List Event) : Py Value := do
  let body ← lift (body_of events)
  lift (raiseIf (isEmptyDocument body = true)
    (fail .source_syntax_invalid "Source contains an empty document."))
  lift (raiseIf (startsMapping body = false)
    (fail .source_construct_unsupported "The root of a YAML document must be a mapping."))
  let builder ← build { stack := [], root := none } body
  match builder.stack, builder.root with
  | [], some value => pure value
  | _, _ => raise (fail .source_syntax_invalid "Source is not well-formed YAML.")

/-! ## Loading -/

/-- The events of a source text. -/
def events_of (yaml : Yaml) (text : Text) : Except Exn (List Event) :=
  match yaml text with
  | some events => .ok events
  | none => .error (fail .source_syntax_invalid "Source is not well-formed YAML.")

/-- `load_yaml_bytes`, as a computation that asks the runtime for its integers. -/
def loading_yaml (yaml : Yaml) (data : ByteArray) : Py Value := do
  let text ← lift (decode_utf8 data)
  let events ← lift (events_of yaml text)
  let value ← value_from_yaml_events events
  let _ ← lift (canon.canonicalize value)
  pure value

/-- Return the canonical value the YAML source bytes denote. -/
def load_yaml_bytes (yaml : Yaml) (data : ByteArray) : Except Exn Value :=
  outcome (loading_yaml yaml data)

end vfy.load
