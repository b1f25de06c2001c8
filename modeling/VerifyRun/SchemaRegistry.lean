-- Registry checking: what `build_registry` looks at before a schema document
-- is used. Every document is walked through its named and nested schemas; a
-- reference is resolved there, and its target is not walked.
import VerifyRun.Schema

namespace vfy.schema

open python keys outcomes

/-! ## The supported subset -/

def ASSERTIONS : List Str :=
  ["type", "required", "properties", "additionalProperties", "items", "enum", "const",
   "pattern", "format", "minItems", "minLength", "minimum"]

def ANNOTATIONS : List Str := ["$schema", "$id", "title", "description", "default"]

def STRUCTURAL : List Str := ["$defs", "$ref"]

def SUPPORTED : List Str := ASSERTIONS ++ ANNOTATIONS ++ STRUCTURAL

def SUPPORTED_TYPES : List Str := ["object", "array", "string", "integer", "boolean"]

def SUPPORTED_FORMATS : List Str := ["date-time"]

/-- `_FORBIDDEN_REGEX`. -/
def FORBIDDEN_REGEX : List Str :=
  ["(?=", "(?!", "(?<", "(?P", "(?i", "(?m", "(?s", "(?x",
   "\\d", "\\w", "\\s", "\\b", "\\B", "\\A", "\\Z", "\\z", "\\G"]

/-- `_BACKREFERENCE.search(text)`, as a truth value. -/
def hasBackreference : Str → Bool
  | .scalar '\\' :: c :: rest =>
    decide (.scalar '1' ≤ c ∧ c ≤ .scalar '9') || hasBackreference (c :: rest)
  | _ :: rest => hasBackreference rest
  | [] => false

section

/- What `%r` writes of a value, and `re.compile`. -/
variable (repr : Value → Str) {R : Type} (compile : Str → Option R)

/-- `_check_pattern`. -/
def check_schema_pattern (pattern : Value) (identifier : Str) : Except Exn Unit :=
  match pattern with
  | .str text => do
    raiseIf (¬ ([.scalar '^'].isPrefixOf text ∧ [.scalar '$'].isSuffixOf text))
      (registryFailure (lit "A pattern must be anchored ^...$ so full-match and search agree: " ++
        repr (.str text) ++ lit " in " ++ identifier))
    forM FORBIDDEN_REGEX fun construct => raiseIf (construct <:+: text)
      (registryFailure (lit "Regex construct " ++ repr (.str construct) ++
        lit " is outside the subset: " ++ repr (.str text) ++ lit " in " ++ identifier))
    raiseIf (hasBackreference text)
      (registryFailure (lit "A backreference is outside the subset: " ++ repr (.str text) ++
        lit " in " ++ identifier))
    raiseIf (compile text).isNone
      (registryFailure (lit "A pattern does not compile: " ++ repr (.str text) ++ lit " in " ++
        identifier))
  | _ => .error (registryFailure (lit "A pattern must be a string in " ++ identifier))

end

/-! ## The keywords of a node -/

variable (repr : Value → Str)

def check_supported (keywords : List (Str × Value)) (identifier : Str) : Except Exn Unit :=
  forM (sortByKey keywords) fun m => raiseIf (m.1 ∉ SUPPORTED)
    (registryFailure (lit "Unsupported schema keyword " ++ repr (.str m.1) ++ lit " in " ++
      identifier))

/-- The value is one of these strings. -/
def isAmong (names : List Str) : Value → Bool
  | .str s => decide (s ∈ names)
  | _ => false

def check_declared_type (keywords : List (Str × Value)) (identifier : Str) : Except Exn Unit :=
  match keywords.lookup (lit "type") with
  | none => pure ()
  | some .null => pure ()
  | some declared => raiseIf (¬ isAmong SUPPORTED_TYPES declared)
      (registryFailure (lit "Unsupported schema type " ++ repr declared ++ lit " in " ++ identifier))

/-- A list or a mapping is in no set: the look raises. -/
def check_declared_format (keywords : List (Str × Value)) (identifier : Str) : Except Exn Unit :=
  match keywords.lookup (lit "format") with
  | none => pure ()
  | some (.list _) => .error .type_error
  | some (.dict _) => .error .type_error
  | some format => raiseIf (¬ isAmong SUPPORTED_FORMATS format)
      (registryFailure (lit "Unsupported format " ++ repr format ++ lit " in " ++ identifier))

def check_declared_pattern [engine : re.Engine] (keywords : List (Str × Value)) (identifier : Str) :
    Except Exn Unit :=
  match keywords.lookup (lit "pattern") with
  | none => pure ()
  | some pattern => check_schema_pattern repr engine.matcher pattern identifier

def check_reference (registry : Registry) (keywords : List (Str × Value)) (identifier : Str) :
    Except Exn Unit :=
  match keywords.lookup (lit "$ref") with
  | none => pure ()
  | some reference => (resolve reference identifier registry).map fun _ => ()

/-! ## The walk -/

section

variable [re.Engine] (registry : Registry) (identifier : Str)

mutual

/-- `_check_schema_node`. -/
def check_schema_node : Value → Except Exn Unit
  | .dict keywords => do
    check_supported repr keywords identifier
    check_declared_type repr keywords identifier
    check_declared_format repr keywords identifier
    check_declared_pattern repr keywords identifier
    check_reference registry keywords identifier
    check_named "properties" keywords
    check_named "$defs" keywords
    check_nested "items" keywords
    check_nested "additionalProperties" keywords
  | _ => .error (registryFailure (lit "A schema node must be an object in " ++ identifier))

/-- The schemas that a keyword holds by name: `node.get(key, {}).items()`. -/
def check_named (key : Str) : List (Str × Value) → Except Exn Unit
  | [] => pure ()
  | (k, .dict members) :: rest =>
    if k = key then check_members members else check_named key rest
  | (k, _) :: rest => if k = key then .error .attribute_error else check_named key rest

def check_members : List (Str × Value) → Except Exn Unit
  | [] => pure ()
  | (_, child) :: rest => do
    check_schema_node child
    check_members rest

/-- The schema that a keyword holds, if it is an object. -/
def check_nested (key : Str) : List (Str × Value) → Except Exn Unit
  | [] => pure ()
  | (k, .dict members) :: rest =>
    if k = key then check_schema_node (.dict members) else check_nested key rest
  | (k, _) :: rest => if k = key then pure () else check_nested key rest

end

end

/-! ## The registry -/

/-- One turn of the first loop of `build_registry`. -/
def add_document (registry : Registry) (document : Value) : Except Exn Registry :=
  match document with
  | .dict members =>
    match members.lookup (lit "$id") with
    | some (.str (c :: rest)) =>
      if (registry.lookup (c :: rest)).isSome then
        .error (registryFailure (lit "Duplicate $id in the registry: " ++ c :: rest))
      else pure (registry ++ [(c :: rest, document)])
    | _ => .error (registryFailure "A schema document must declare a string $id.")
  | _ => .error (registryFailure "A schema document must be an object.")

/-- Return a frozen registry mapping `$id` to schema document. -/
def build_registry [re.Engine] (documents : List Value) : Except Exn Registry := do
  let registry ← documents.foldlM add_document []
  forM registry fun entry => check_schema_node repr registry entry.1 entry.2
  pure registry

/-! ## What is accepted -/

/-- What the check of a pattern leaves: anchored text that compiles. -/
theorem pattern_of_ok {repr : Value → Str} {R : Type} {compile : Str → Option R}
    {text identifier : Str}
    (h : check_schema_pattern repr compile (.str text) identifier = .ok ()) :
    [.scalar '^'] <+: text ∧ [.scalar '$'] <:+ text ∧ ∃ r, compile text = some r := by
  unfold check_schema_pattern at h
  obtain ⟨hanchored, h⟩ := seq_eq_ok.mp h
  obtain ⟨_, h⟩ := seq_eq_ok.mp h
  obtain ⟨_, hcompile⟩ := seq_eq_ok.mp h
  rw [raiseIf_eq_ok, not_not] at hanchored
  rw [raiseIf_eq_ok] at hcompile
  refine ⟨List.isPrefixOf_iff_prefix.mp hanchored.1, List.isSuffixOf_iff_suffix.mp hanchored.2, ?_⟩
  cases hc : compile text with
  | none =>
    rw [hc] at hcompile
    exact absurd rfl hcompile
  | some r => exact ⟨r, rfl⟩

section

variable {repr : Value → Str} {registry : Registry} {identifier : Str}

theorem isAmong_iff {names : List Str} {v : Value} :
    isAmong names v = true ↔ ∃ t ∈ names, v = .str t := by
  cases v <;> simp [isAmong]

theorem check_supported_eq_ok {keywords : List (Str × Value)} :
    check_supported repr keywords identifier = .ok () ↔ ∀ m ∈ keywords, m.1 ∈ SUPPORTED := by
  unfold check_supported
  rw [forM_eq_ok]
  simp only [mem_sortByKey, raiseIf_eq_ok, not_not]

theorem check_declared_type_eq_ok {keywords : List (Str × Value)} :
    check_declared_type repr keywords identifier = .ok () ↔
      ∀ v, keywords.lookup (lit "type") = some v → v = .null ∨ ∃ t ∈ SUPPORTED_TYPES, v = .str t := by
  unfold check_declared_type
  cases keywords.lookup (lit "type") with
  | none => simp [pure, Except.pure]
  | some v =>
    cases v with
    | null => simp [pure, Except.pure]
    | _ => simp [isAmong_iff]

theorem check_declared_format_eq_ok {keywords : List (Str × Value)} :
    check_declared_format repr keywords identifier = .ok () ↔
      ∀ v, keywords.lookup (lit "format") = some v → ∃ f ∈ SUPPORTED_FORMATS, v = .str f := by
  unfold check_declared_format
  cases keywords.lookup (lit "format") with
  | none => simp [pure, Except.pure]
  | some v => cases v <;> simp [isAmong_iff]

theorem check_reference_eq_ok {keywords : List (Str × Value)} :
    check_reference registry keywords identifier = .ok () ↔
      ∀ v, keywords.lookup (lit "$ref") = some v →
        ∃ target, resolve v identifier registry = .ok target := by
  unfold check_reference
  cases keywords.lookup (lit "$ref") with
  | none => simp [pure, Except.pure]
  | some v =>
    cases hr : resolve v identifier registry with
    | error e => simp [Except.map, hr]
    | ok target => exact ⟨fun _ w hw => ⟨target, by cases hw; exact hr⟩, fun _ => by simp [Except.map, hr]⟩

/-- A document with a new identifier is added at the end. -/
theorem add_document_new {members : List (Str × Value)} {c : CodePoint} {rest : Str}
    (hid : members.lookup (lit "$id") = some (.str (c :: rest)))
    (hnew : registry.lookup (c :: rest) = none) :
    add_document registry (.dict members) = .ok (registry ++ [(c :: rest, .dict members)]) := by
  simp [add_document, hid, hnew, pure, Except.pure]

theorem add_document_eq_ok {registry' : Registry} {document : Value}
    (h : add_document registry document = .ok registry') :
    ∃ id, registry' = registry ++ [(id, document)] := by
  unfold add_document at h
  split at h
  · split at h
    · split at h
      · cases h
      · cases h
        exact ⟨_, rfl⟩
    · cases h
  · cases h

variable [engine : re.Engine]

theorem check_members_eq (members : List (Str × Value)) :
    check_members repr registry identifier members =
      forM members fun m => check_schema_node repr registry identifier m.2 := by
  induction members with
  | nil => rfl
  | cons m rest ih =>
    rw [check_members, List.forM_cons, ih]

theorem check_named_eq (key : Str) (keywords : List (Str × Value)) :
    check_named repr registry identifier key keywords =
      match keywords.lookup key with
      | none => pure ()
      | some (.dict members) => forM members fun m => check_schema_node repr registry identifier m.2
      | some _ => .error .attribute_error := by
  induction keywords with
  | nil => rfl
  | cons m rest ih =>
    obtain ⟨k, v⟩ := m
    by_cases hk : k = key
    · subst hk
      rw [List.lookup_cons_self]
      cases v with
      | dict members => rw [check_named, if_pos rfl, check_members_eq]
      | _ =>
        rw [check_named]
        · rw [if_pos rfl]
        · simp
    · rw [List.lookup_cons, beq_false_of_ne (Ne.symm hk), ← ih]
      cases v with
      | dict members => rw [check_named, if_neg hk]
      | _ =>
        rw [check_named]
        · rw [if_neg hk]
        · simp

theorem check_nested_eq (key : Str) (keywords : List (Str × Value)) :
    check_nested repr registry identifier key keywords =
      match keywords.lookup key with
      | some (.dict members) => check_schema_node repr registry identifier (.dict members)
      | _ => pure () := by
  induction keywords with
  | nil => rfl
  | cons m rest ih =>
    obtain ⟨k, v⟩ := m
    by_cases hk : k = key
    · subst hk
      rw [List.lookup_cons_self]
      cases v with
      | dict members => rw [check_nested, if_pos rfl]
      | _ =>
        rw [check_nested]
        · rw [if_pos rfl]
        · simp
    · rw [List.lookup_cons, beq_false_of_ne (Ne.symm hk), ← ih]
      cases v with
      | dict members => rw [check_nested, if_neg hk]
      | _ =>
        rw [check_nested]
        · rw [if_neg hk]
        · simp

/-- What the checks of a node say of its keywords. -/
structure Checked (repr : Value → Str) (registry : Registry) (identifier : Str)
    (keywords : List (Str × Value)) : Prop where
  supported : ∀ m ∈ keywords, m.1 ∈ SUPPORTED
  type : ∀ v, keywords.lookup (lit "type") = some v → v = .null ∨ ∃ t ∈ SUPPORTED_TYPES, v = .str t
  format : ∀ v, keywords.lookup (lit "format") = some v → ∃ f ∈ SUPPORTED_FORMATS, v = .str f
  pattern : ∀ v, keywords.lookup (lit "pattern") = some v →
    ∃ text, v = .str text ∧ check_schema_pattern repr engine.matcher (.str text) identifier = .ok ()
  reference : ∀ v, keywords.lookup (lit "$ref") = some v →
    ∃ target, resolve v identifier registry = .ok target
  named : ∀ key ∈ [lit "properties", lit "$defs"], ∀ v, keywords.lookup key = some v →
    ∃ members, v = .dict members ∧
      ∀ m ∈ members, check_schema_node repr registry identifier m.2 = .ok ()
  nested : ∀ key ∈ [lit "items", lit "additionalProperties"], ∀ members,
    keywords.lookup key = some (.dict members) →
      check_schema_node repr registry identifier (.dict members) = .ok ()

theorem check_named_eq_ok {key : Str} {keywords : List (Str × Value)} :
    check_named repr registry identifier key keywords = .ok () ↔
      ∀ v, keywords.lookup key = some v → ∃ members, v = .dict members ∧
        ∀ m ∈ members, check_schema_node repr registry identifier m.2 = .ok () := by
  rw [check_named_eq]
  cases keywords.lookup key with
  | none => simp [pure, Except.pure]
  | some v => cases v <;> simp [forM_eq_ok]

theorem check_nested_eq_ok {key : Str} {keywords : List (Str × Value)} :
    check_nested repr registry identifier key keywords = .ok () ↔
      ∀ members, keywords.lookup key = some (.dict members) →
        check_schema_node repr registry identifier (.dict members) = .ok () := by
  rw [check_nested_eq]
  cases keywords.lookup key with
  | none => simp [pure, Except.pure]
  | some v => cases v <;> simp [pure, Except.pure]

theorem check_declared_pattern_eq_ok {keywords : List (Str × Value)} :
    check_declared_pattern repr keywords identifier = .ok () ↔
      ∀ v, keywords.lookup (lit "pattern") = some v → ∃ text, v = .str text ∧
        check_schema_pattern repr engine.matcher (.str text) identifier = .ok () := by
  unfold check_declared_pattern
  cases keywords.lookup (lit "pattern") with
  | none => simp [pure, Except.pure]
  | some v => cases v <;> simp [check_schema_pattern]

/-- A node passes when it is an object whose keywords pass. -/
theorem check_schema_node_eq_ok {keywords : List (Str × Value)} :
    check_schema_node repr registry identifier (.dict keywords) = .ok () ↔
      Checked repr registry identifier keywords := by
  rw [check_schema_node]
  simp only [seq_eq_ok, check_supported_eq_ok, check_declared_type_eq_ok,
    check_declared_format_eq_ok, check_declared_pattern_eq_ok, check_reference_eq_ok,
    check_named_eq_ok, check_nested_eq_ok]
  constructor
  · rintro ⟨hsupported, htype, hformat, hpattern, href, hprops, hdefs, hitems, hadditional⟩
    refine ⟨hsupported, htype, hformat, hpattern, href, ?_, ?_⟩
    · intro key hkey
      rcases List.mem_pair.mp hkey with rfl | rfl
      · exact hprops
      · exact hdefs
    · intro key hkey
      rcases List.mem_pair.mp hkey with rfl | rfl
      · exact hitems
      · exact hadditional
  · intro h
    exact ⟨h.supported, h.type, h.format, h.pattern, h.reference, h.named _ (by simp),
      h.named _ (by simp), h.nested _ (by simp), h.nested _ (by simp)⟩

theorem checked_of_ok {node : Value}
    (h : check_schema_node repr registry identifier node = .ok ()) :
    ∃ keywords, node = .dict keywords ∧ Checked repr registry identifier keywords := by
  cases node with
  | dict keywords => exact ⟨keywords, rfl, check_schema_node_eq_ok.mp h⟩
  | _ => cases h

/-- The documents of a registry have distinct identifiers and pass. -/
theorem checked_of_registry {documents : List Value} (h : build_registry repr documents = .ok registry)
    {document : Value} (hd : registry.lookup identifier = some document) :
    check_schema_node repr registry identifier document = .ok () := by
  obtain ⟨R, _, h⟩ := bind_eq_ok.mp h
  obtain ⟨hall, hR⟩ := seq_eq_ok.mp h
  cases hR
  exact forM_eq_ok.mp hall _ (mem_of_lookup hd)

/-- A registry has the documents that it was built from. -/
theorem mem_documents {documents : List Value} (h : build_registry repr documents = .ok registry)
    {document : Value} (hd : registry.lookup identifier = some document) :
    document ∈ documents := by
  have hfold : ∀ (documents : List Value) (start built : Registry),
      documents.foldlM add_document start = .ok built →
        ∀ entry ∈ built, entry ∈ start ∨ entry.2 ∈ documents := by
    intro documents
    induction documents with
    | nil =>
      intro start built hbuilt entry hentry
      cases hbuilt
      exact .inl hentry
    | cons document documents ih =>
      intro start built hbuilt entry hentry
      rw [List.foldlM_cons] at hbuilt
      obtain ⟨next, hnext, hbuilt⟩ := bind_eq_ok.mp hbuilt
      obtain ⟨id, rfl⟩ := add_document_eq_ok hnext
      rcases ih _ built hbuilt entry hentry with hentry | hentry
      · rcases List.mem_append.mp hentry with hentry | hentry
        · exact .inl hentry
        · rw [List.mem_singleton.mp hentry]
          exact .inr (by simp)
      · exact .inr (List.mem_cons_of_mem _ hentry)
  obtain ⟨built, hbuilt, h⟩ := bind_eq_ok.mp h
  obtain ⟨_, hpure⟩ := seq_eq_ok.mp h
  cases hpure
  rcases hfold documents [] registry hbuilt _ (mem_of_lookup hd) with hmem | hmem
  · cases hmem
  · exact hmem

theorem build_registry_of {documents : List Value}
    (hadd : documents.foldlM add_document [] = .ok registry)
    (hnode : ∀ entry ∈ registry, check_schema_node repr registry entry.1 entry.2 = .ok ()) :
    build_registry repr documents = .ok registry := by
  unfold build_registry
  rw [hadd, ok_bind, forM_eq_ok.mpr hnode]
  rfl

/-- A single document makes a registry when its keywords pass there. -/
theorem build_registry_single {members : List (Str × Value)} {c : CodePoint} {rest : Str}
    (hid : members.lookup (lit "$id") = some (.str (c :: rest)))
    (h : Checked repr [(c :: rest, .dict members)] (c :: rest) members) :
    build_registry repr [.dict members] = .ok [(c :: rest, .dict members)] := by
  refine build_registry_of ?_ ?_
  · rw [List.foldlM_cons, add_document_new hid rfl]
    rfl
  · intro entry hentry
    rw [List.mem_singleton.mp hentry]
    exact check_schema_node_eq_ok.mpr h

end

end vfy.schema
