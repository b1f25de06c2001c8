-- What validation raises: against a document whose keywords have their
-- shapes, only typed failures with fixed messages.
import VerifyRun.Schemas

namespace vfy.schema

open python keys outcomes

/-! ## Checks that raise only typed failures -/

/-- The check raises only failures that can be reported. -/
def Raises (check : Except Exn Unit) : Prop := ∀ e, check = .error e → e.Reportable

theorem raises_pure : Raises (pure ()) := fun _ h => absurd h pure_ne_error

theorem raises_error {e : Exn} (h : e.Reportable) : Raises (.error e) := fun _ he => by
  cases he
  exact h

theorem raises_raiseIf {p : Prop} [Decidable p] {e : Exn} (h : e.Reportable) :
    Raises (raiseIf p e) := fun _ he => (raiseIf_eq_error.mp he).2 ▸ h

theorem raises_seq {x : Except Exn Unit} {f : Unit → Except Exn Unit} (hx : Raises x)
    (hf : Raises (f ())) : Raises (x >>= f) := by
  intro e he
  rcases bind_eq_error.mp he with h | ⟨_, _, h⟩
  · exact hx e h
  · exact hf e h

theorem raises_forM {α : Type} {f : α → Except Exn Unit} {l : List α}
    (h : ∀ a ∈ l, Raises (f a)) : Raises (forM l f) := by
  induction l with
  | nil => exact raises_pure
  | cons a l ih =>
    rw [List.forM_cons]
    exact raises_seq (h a (by simp)) (ih fun b hb => h b (by simp [hb]))

theorem reportable_failure (spot : Spot) (message keyword : String) :
    (spot.failure message keyword).Reportable := ⟨_, rfl, encodable_lit _⟩

theorem reportable_memberFailure (spot : Spot) (message : String) (name keyword : Str) :
    (spot.memberFailure message name keyword).Reportable := ⟨_, rfl, encodable_lit _⟩

/-! ## Documents whose keywords have their shapes -/

def isInt : Option Value → Bool
  | none => true
  | some (.int _) => true
  | some _ => false

def areStrs : Option Value → Bool
  | none => true
  | some (.list names) => names.all fun name =>
    match name with
    | .str _ => true
    | _ => false
  | some _ => false

def isListed : Option Value → Bool
  | none => true
  | some (.list _) => true
  | some _ => false

def isPattern : Option Value → Bool
  | none => true
  | some (.str pattern) => (re.compile pattern).isSome
  | some _ => false

/-- The members of a keyword that holds schemas by name. -/
def areSchemas (child : Value → Bool) : Option Value → Bool
  | none => true
  | some (.dict members) => members.all fun m => child m.2
  | some _ => false

/-- A keyword that holds a schema, or something that validation passes over. -/
def isSchema (child : Value → Bool) : Option Value → Bool
  | some (.dict members) => child (.dict members)
  | _ => true

/-- The keywords of the node, and of every node that it leads to, have the
shapes that validation expects. -/
def shaped (registry : Registry) : Nat → Str → Value → Bool
  | 0, _, _ => false
  | n + 1, identifier, .dict keywords =>
    match keywords.lookup (lit "$ref") with
    | some (.str reference) =>
      match resolve (.str reference) identifier registry with
      | .ok (target, target_id) => shaped registry n target_id target
      | .error _ => false
    | some _ => false
    | none =>
      areStrs (keywords.lookup (lit "required")) && isListed (keywords.lookup (lit "enum")) &&
        isInt (keywords.lookup (lit "minItems")) && isInt (keywords.lookup (lit "minLength")) &&
        isInt (keywords.lookup (lit "minimum")) && isPattern (keywords.lookup (lit "pattern")) &&
        areSchemas (shaped registry n identifier) (keywords.lookup (lit "properties")) &&
        isSchema (shaped registry n identifier) (keywords.lookup (lit "additionalProperties")) &&
        isSchema (shaped registry n identifier) (keywords.lookup (lit "items"))
  | _, _, _ => false

section Checks

variable {spot : Spot} {child : Child} {keywords : List (Str × Value)}

theorem raises_type (value : Value) : Raises (check_type spot value (.dict keywords)) := by
  unfold check_type
  split
  · exact raises_pure
  · exact raises_pure
  · exact raises_raiseIf (reportable_failure _ _ _)
  · exact raises_error (reportable_failure _ _ _)

theorem raises_required {members : List (Str × Value)}
    (h : areStrs (keywords.lookup (lit "required")) = true) :
    Raises (check_required spot members (.dict keywords)) := by
  unfold check_required
  rw [Value.get?_dict]
  cases hr : keywords.lookup (lit "required") with
  | none => exact raises_forM fun a ha => by cases ha
  | some required =>
    rw [hr] at h
    cases required with
    | list names =>
      refine raises_forM fun name hname => ?_
      have hstr := List.all_eq_true.mp h name hname
      cases name with
      | str s => exact raises_raiseIf (reportable_memberFailure _ _ _ _)
      | _ => cases hstr
    | _ => cases h

theorem raises_object {value : Value} (hr : areStrs (keywords.lookup (lit "required")) = true)
    (hp : ∀ properties, keywords.lookup (lit "properties") = some properties →
      ∃ members, properties = .dict members ∧ ∀ m ∈ members, ∀ v ip sp, Raises (child v m.2 ip sp))
    (ha : ∀ members, keywords.lookup (lit "additionalProperties") = some (.dict members) →
      ∀ v ip sp, Raises (child v (.dict members) ip sp)) :
    Raises (validate_object spot child value (.dict keywords)) := by
  unfold validate_object
  cases value with
  | dict members =>
    obtain ⟨properties, hproperties, hall⟩ : ∃ properties,
        propertiesOf (.dict keywords) = some properties ∧
          ∀ m ∈ properties, ∀ v ip sp, Raises (child v m.2 ip sp) := by
      unfold propertiesOf
      rw [Value.get?_dict]
      cases hl : keywords.lookup (lit "properties") with
      | none => exact ⟨[], rfl, by simp⟩
      | some w =>
        obtain ⟨ms, rfl, hms⟩ := hp w hl
        exact ⟨ms, rfl, hms⟩
    refine raises_seq (raises_required hr) (raises_seq ?_ ?_)
    · rw [check_declared_eq hproperties]
      refine raises_forM fun m _ => ?_
      cases hl : properties.lookup m.1 with
      | none => exact raises_pure
      | some s => exact hall _ (mem_of_lookup hl) _ _ _
    · unfold check_undeclared
      simp only [isDeclared_eq hproperties, ok_bind]
      split
      · exact raises_forM fun m _ => raises_raiseIf (reportable_memberFailure _ _ _ _)
      · rename_i additional hadditional
        refine raises_forM fun m _ => ?_
        split
        · exact ha _ hadditional _ _ _
        · exact raises_pure
      · exact raises_pure
  | _ => exact raises_pure

theorem raises_enum {value : Value} (h : isListed (keywords.lookup (lit "enum")) = true) :
    Raises (check_enum spot value (.dict keywords)) := by
  unfold check_enum
  rw [Value.get?_dict]
  cases he : keywords.lookup (lit "enum") with
  | none => exact raises_pure
  | some options =>
    rw [he] at h
    cases options with
    | list items => exact raises_raiseIf (reportable_failure _ _ _)
    | _ => cases h

theorem raises_const (value : Value) : Raises (check_const spot value (.dict keywords)) := by
  unfold check_const
  split
  · exact raises_pure
  · exact raises_raiseIf (reportable_failure _ _ _)

theorem raises_least {size : Int} {message keyword : String}
    (h : isInt (keywords.lookup (lit keyword)) = true) :
    Raises (check_least spot size (.dict keywords) message keyword) := by
  unfold check_least
  rw [Value.get?_dict]
  cases hk : keywords.lookup (lit keyword) with
  | none => exact raises_pure
  | some least =>
    rw [hk] at h
    cases least with
    | int i => exact raises_raiseIf (reportable_failure _ _ _)
    | _ => cases h

theorem raises_array {value : Value} (hl : isInt (keywords.lookup (lit "minItems")) = true)
    (hi : ∀ members, keywords.lookup (lit "items") = some (.dict members) →
      ∀ v ip sp, Raises (child v (.dict members) ip sp)) :
    Raises (check_array spot child value (.dict keywords)) := by
  unfold check_array
  cases value with
  | list items =>
    refine raises_seq (raises_least hl) ?_
    split
    · rename_i members hmembers
      exact raises_forM fun item _ => hi _ hmembers _ _ _
    · exact raises_pure
  | _ => exact raises_pure

theorem fullmatch_isSome {pattern : Str} (h : (re.compile pattern).isSome = true) (s : Str) :
    ∃ b, re.fullmatch pattern s = some b := by
  obtain ⟨p, hp⟩ := Option.isSome_iff_exists.mp h
  simp [re.fullmatch_eq_map, hp]

theorem raises_string {value : Value} (hl : isInt (keywords.lookup (lit "minLength")) = true)
    (hp : isPattern (keywords.lookup (lit "pattern")) = true) :
    Raises (check_string spot value (.dict keywords)) := by
  unfold check_string
  cases value with
  | str s =>
    refine raises_seq (raises_least hl) (raises_seq ?_ ?_)
    · unfold check_pattern
      rw [Value.get?_dict]
      cases hpat : keywords.lookup (lit "pattern") with
      | none => exact raises_pure
      | some w =>
        rw [hpat] at hp
        cases w with
        | str pattern =>
          obtain ⟨b, hb⟩ := fullmatch_isSome hp s
          simp only [string, ok_bind, hb]
          cases b with
          | true => exact raises_pure
          | false => exact raises_error (reportable_failure _ _ _)
        | _ => cases hp
    · unfold check_format
      split
      · exact raises_raiseIf (reportable_failure _ _ _)
      · exact raises_pure
  | _ => exact raises_pure

theorem raises_integer {value : Value} (hl : isInt (keywords.lookup (lit "minimum")) = true) :
    Raises (check_integer spot value (.dict keywords)) := by
  unfold check_integer
  cases value with
  | int i => exact raises_least hl
  | _ => exact raises_pure

end Checks

/-- Validation against a node of a well shaped document raises only typed
failures with fixed messages. -/
theorem validate_node_raises {registry : Registry} {code : Code} : ∀ {n : Nat} {identifier : Str}
    {schema : Value}, shaped registry n identifier schema = true → ∀ {frames : Nat}, n ≤ frames →
    ∀ value ip sp depth,
      Raises (validate_node registry code identifier frames value schema ip sp depth) := by
  intro n
  induction n with
  | zero =>
    intro identifier schema h
    cases h
  | succ n ih =>
    intro identifier schema h frames hframes value ip sp depth
    obtain ⟨frames, rfl⟩ : ∃ k, frames = k + 1 := ⟨frames - 1, by omega⟩
    have hn : n ≤ frames := by omega
    cases schema with
    | dict keywords =>
      rw [validate_node]
      refine raises_seq (raises_raiseIf ⟨_, rfl, encodable_lit _⟩) ?_
      rw [shaped] at h
      simp only [refOf, ok_bind]
      cases href : keywords.lookup (lit "$ref") with
      | some reference =>
        rw [href] at h
        cases reference with
        | str reference =>
          dsimp only at h ⊢
          split at h
          · rename_i target target_id hresolve
            rw [hresolve, ok_bind]
            exact ih h hn _ _ _ _
          · cases h
        | _ => cases h
      | none =>
        rw [href] at h
        simp only [Bool.and_eq_true] at h
        obtain ⟨⟨⟨⟨⟨⟨⟨⟨hreq, henum⟩, hitems⟩, hlength⟩, hminimum⟩, hpattern⟩, hprops⟩, hadd⟩,
          hitem⟩ := h
        unfold check_node
        refine raises_seq (raises_type _) (raises_seq (raises_object hreq ?_ ?_)
          (raises_seq (raises_enum henum) (raises_seq (raises_const _)
            (raises_seq (raises_array hitems ?_) (raises_seq (raises_string hlength hpattern)
              (raises_integer hminimum))))))
        · intro properties hproperties
          rw [hproperties] at hprops
          cases properties with
          | dict members =>
            refine ⟨members, rfl, fun m hm v ip sp => ?_⟩
            exact ih (List.all_eq_true.mp hprops m hm) hn _ _ _ _
          | _ => cases hprops
        · intro members hmembers v ip sp
          rw [hmembers] at hadd
          exact ih hadd hn _ _ _ _
        · intro members hmembers v ip sp
          rw [hmembers] at hitem
          exact ih hitem hn _ _ _ _
    | _ => cases h

theorem validate_raises {schema_id : Str} {registry : Registry} {document : Value} {code : Code}
    (hd : registry.lookup schema_id = some document) (hc : CODE_BY_ID.lookup schema_id = some code)
    {n : Nat} (hn : n ≤ FRAMES) (h : shaped registry n schema_id document = true) (v : Value) :
    Raises (validate v schema_id registry) := by
  rw [validate_eq hd hc]
  exact validate_node_raises h hn _ _ _ _

theorem compile_digest_isSome : (re.compile "^sha256:[a-f0-9]{64}$").isSome = true := by
  have := compile_digest_pattern
  rw [DIGEST_PATTERN] at this
  rw [this]
  rfl

theorem validate_candidate_raises (v : Value) :
    Raises (validate v CANDIDATE_SCHEMA_ID REGISTRY) := by
  refine @validate_raises _ _ CANDIDATE_SCHEMA .candidate_schema_invalid
    (by simp [REGISTRY, CANDIDATE_SCHEMA_ID, AUTHORIZATION_SCHEMA_ID])
    (by simp [CODE_BY_ID, CANDIDATE_SCHEMA_ID]) 5 (by decide) ?_ v
  simp [shaped, CANDIDATE_SCHEMA, closed, TEXT, TEXTS, oneOf, names, areStrs, isListed, isInt,
    isPattern, areSchemas, isSchema]

theorem validate_snapshot_raises (v : Value) :
    Raises (validate v SNAPSHOT_SCHEMA_ID REGISTRY) := by
  refine @validate_raises _ _ SNAPSHOT_SCHEMA .snapshot_schema_invalid
    (by simp [REGISTRY, SNAPSHOT_SCHEMA_ID, AUTHORIZATION_SCHEMA_ID, CANDIDATE_SCHEMA_ID])
    (by simp [CODE_BY_ID, SNAPSHOT_SCHEMA_ID]) 5 (by decide) ?_ v
  simp [shaped, SNAPSHOT_SCHEMA, ITEM, closed, TEXT, DATE, DIGEST, naturals, oneOf, names, areStrs,
    isListed, isInt, isPattern, areSchemas, isSchema, compile_digest_isSome]

end vfy.schema
