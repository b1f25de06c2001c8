-- The promise that no parser exception reaches the caller, for the loaders and
-- for the expression parser: it is kept on every input whose integers the
-- runtime converts, and broken on every other.
import VerifyRun.Preparation
import VerifyRun.YamlLaws

namespace vfy.load

open calls json python keys outcomes canon

/-- The outcome is a result that is accepted, or a typed failure. -/
def IsTyped {α : Type} (accepted : α → Prop) (x : Except Exn α) : Prop :=
  (∃ a, x = .ok a ∧ accepted a) ∨ ∃ failure, x = .error (.verify failure)

/-- `canonicalize` accepts the value. -/
def Accepted (v : Value) : Prop := ∃ t, canon.canonicalize v = .ok t

/-- A computation that promises typed failures leaves with one, or with a
result, exactly when its integers are short. -/
theorem isTyped_iff {α : Type} {Q : α → Prop} {p : Py α} (h : p.Sat Answers Exn.IsVerify Q) :
    IsTyped Q (outcome p) ↔ ShortIntegers p := by
  have hfree : p.Sat Answers (· ≠ .value_error) Q :=
    h.mono (fun _ ⟨_, hf⟩ => by simp [hf]) fun _ hq => hq
  have hiff := outcome_value_error_iff hfree
  constructor
  · intro htyped
    by_contra hlong
    have hraise := hiff.mpr hlong
    rcases htyped with ⟨a, ha, -⟩ | ⟨failure, hf⟩
    · rw [ha] at hraise
      cases hraise
    · rw [hf] at hraise
      cases hraise
  · intro hshort
    rcases outcome_sat h with ⟨a, ha, hq⟩ | ⟨e, he, hv | rfl⟩
    · exact Or.inl ⟨a, ha, hq⟩
    · obtain ⟨failure, rfl⟩ := hv
      exact Or.inr ⟨failure, he⟩
    · exact absurd hshort (hiff.mp he)

theorem accepted_of_canonical {v : Value} (h : v.Canonical) : Accepted v := by
  obtain ⟨t, ht⟩ := canon.encode_of_canonical h
  exact ⟨t, by rw [canon.canonicalize_eq_encode, ht]⟩

/-! ## Long integers -/

/-- The bytes of a text. -/
def bytesOf (text : Text) : ByteArray := (String.ofList text).toByteArray

theorem bytesOf_eq (text : Text) : bytesOf text = text.utf8Encode := by
  simp [bytesOf]

/-- The runtime converts no numeral from 10 ^ 4300 on. -/
theorem convert_long {n : Nat} (h : 10 ^ 4300 ≤ n) : convert (decimal n) = .error .value_error := by
  have hlong : ¬ (Nat.toDigits 10 n).length ≤ 4300 := by
    rw [Nat.length_toDigits_le_iff (by norm_num) (by norm_num)]
    omega
  have hwithin : withinLimit (decimal n) = false := by
    unfold withinLimit
    rw [digitsOf_decimal]
    exact decide_eq_false hlong
  unfold convert Prog.limited
  rw [hwithin]
  rfl

theorem integer_long {n : Nat} (h : 10 ^ 4300 ≤ n) :
    outcome (integer_within_interval (decimal n)) = .error .value_error := by
  unfold integer_within_interval
  rw [outcome_bind, outcome_int, convert_long h, error_bind]

theorem inert_decimal (n : Nat) : ∀ c ∈ decimal n, Inert c := fun _ hc =>
  inert_of_digit (Nat.isDigit_of_mem_toDigits (by norm_num) (by norm_num) hc)

/-- Every number from 10 ^ 4300 on makes the JSON loader raise `ValueError`. -/
theorem load_long {n : Nat} (h : 10 ^ 4300 ≤ n) :
    load_json_bytes (bytesOf (decimal n)) = .error .value_error := by
  obtain ⟨c, s, hcs, _, _, _, hlt⟩ := startsValue_decimal n
  have hst := startsValue_decimal n
  have hdecode : decode_utf8 (bytesOf (decimal n)) = .ok (decimal n) := by
    rw [bytesOf_eq, hcs]
    exact decode_text (by omega) s
  have hdepth : reject_excess_depth (decimal n) = .ok () := by
    have := Opens.inert (inert_decimal n) [] 0 (by omega)
    simpa [reject_excess_depth, depth_loop] using this
  have hloads : outcome (loads hooks (decimal n)) = .error .value_error := by
    have hbom : ∀ rest, decimal n ≠ '\uFEFF' :: rest := by
      intro rest heq
      rw [heq] at hcs
      obtain ⟨rfl, -⟩ := List.cons.inj hcs
      exact absurd hlt (by decide)
    have hscan : scan_once hooks _ _ = _ := scan_once_decimal (p := integer_within_interval)
      (f := hooks.parse_float) n stops_nil (3 * (decimal n).length + 2)
    rw [List.append_nil] at hscan
    rw [loads_eq hbom, hst.skip_space, fuelFor, hscan]
    show outcome ((integer_within_interval (decimal n) >>= fun v => _) >>= _) = _
    rw [outcome_bind, outcome_bind, integer_long h]
    rfl
  unfold load_json_bytes loading
  simp only [outcome_bind, outcome_lift, hdecode, ok_bind, hdepth]
  rw [outcome_mapThrow rfl, hloads]
  rfl

/-- The events of a block mapping of one key to a plain scalar. -/
def oneMember (key value : Text) : List Event :=
  [.mapping_start none none, .scalar none none none (ofText key),
    .scalar none none none (ofText value), .mapping_end]

theorem isNode_oneMember (key value : Text) : IsNode (oneMember key value) := by
  have hmapping := @IsNode.mapping none none
    [[.scalar none none none (ofText key)], [.scalar none none none (ofText value)]]
    (by simp [IsNode.scalar])
  simpa [oneMember] using hmapping

/-- A parser of one text, which is a block mapping of one key to a plain scalar. -/
def readsOne (key value : Text) : Yaml := fun text =>
  if text = key ++ ": ".toList ++ value then some (stream [oneMember key value]) else none

theorem streams_readsOne (key value : Text) : (readsOne key value).Streams := by
  intro text events h
  unfold readsOne at h
  split at h
  · cases h
    exact ⟨_, rfl, by simpa using isNode_oneMember key value⟩
  · cases h

theorem plain_scalar_n : plain_scalar (ofText ['n']) = pure (.str (ofText ['n'])) := by
  have hn : ∀ pattern ∈ [CANONICAL_INTEGER, RESERVED_INTEGER_NOTATION, RESERVED_TIMESTAMP,
      RESERVED_FLOAT], matchesPattern pattern (ofText ['n']) = false := by decide +kernel
  simp only [List.mem_cons, List.not_mem_nil, or_false, forall_eq_or_imp, forall_eq] at hn
  obtain ⟨hinteger, hnumber, htimestamp, hfloat⟩ := hn
  unfold plain_scalar
  rw [if_neg (by decide), if_neg (by decide), if_neg (by decide), if_neg (by simp [hinteger]),
    if_neg (by decide), if_neg (by simp [hnumber, htimestamp]), if_neg (by simp [hfloat])]

/-- Every number from 10 ^ 4300 on makes the YAML loader raise `ValueError`. -/
theorem load_yaml_long {n : Nat} (h : 10 ^ 4300 ≤ n) :
    load_yaml_bytes (readsOne ['n'] (decimal n)) (bytesOf ("n: ".toList ++ decimal n)) =
      .error .value_error := by
  have hdecode : decode_utf8 (bytesOf ("n: ".toList ++ decimal n)) =
      .ok ("n: ".toList ++ decimal n) := by
    rw [bytesOf_eq]
    exact decode_text (by decide) _
  have hevents : events_of (readsOne ['n'] (decimal n)) ("n: ".toList ++ decimal n) =
      .ok (stream [oneMember ['n'] (decimal n)]) := by
    have hread : readsOne ['n'] (decimal n) ("n: ".toList ++ decimal n) =
        some (stream [oneMember ['n'] (decimal n)]) := if_pos rfl
    unfold events_of
    rw [hread]
  have hbuild : outcome (build { stack := [], root := none } (oneMember ['n'] (decimal n))) =
      .error .value_error := by
    have hn : (ofText ['n']) ≠ lit "<<" := by decide
    simp [oneMember, build, step, refuse_anchor, refuse_tag, truthy, push, yaml_scalar_value,
      isPlain, plain_scalar_n, plain_scalar_decimal, place, Frame.add, hn, integer_long h,
      MAX_DEPTH]
  unfold load_yaml_bytes loading_yaml value_from_yaml_events
  simp only [outcome_bind, outcome_lift, hdecode, ok_bind, hevents,
    body_of_stream (isNode_oneMember _ _)]
  rw [raiseIf_neg (by simp [oneMember, isEmptyDocument]),
    ok_bind, raiseIf_neg (by simp [oneMember, startsMapping]), ok_bind, hbuild]
  rfl

/-! ## The promise -/

/-- Every loader leaves with an accepted value or a typed failure exactly when
no integer that it converts has more than 4300 digits, and so does the
expression parser. -/
theorem loaders_fail_typed_iff {yaml : Yaml} (hy : yaml.Streams) :
    (∀ data, IsTyped Accepted (load_json_bytes data) ↔ ShortIntegers (loading data)) ∧
    (∀ data, IsTyped Accepted (load_yaml_bytes yaml data) ↔
      ShortIntegers (loading_yaml yaml data)) ∧
    ∀ source, IsTyped (fun _ => True) (expr.parse_expression (.str source)) ↔
      ShortIntegers (expr.parsing source) := by
  refine ⟨fun data => ?_, fun data => ?_, fun source => ?_⟩
  · exact isTyped_iff ((loading_sat data).mono (fun _ h => h) fun _ => accepted_of_canonical)
  · exact isTyped_iff ((loading_yaml_sat hy data).mono (fun _ h => h) fun _ => accepted_of_canonical)
  · exact isTyped_iff ((expr.parsing_sat source).mono (fun _ h => h.isVerify) fun _ _ => trivial)

/-- The integers of these sources are short, so the loaders return. -/
theorem loaders_fail_typed_short :
    IsTyped Accepted (load_json_bytes (bytesOf "[1]".toList)) ∧
    IsTyped Accepted (load_yaml_bytes (readsOne ['n'] ['1']) (bytesOf "n: 1".toList)) ∧
    IsTyped (fun _ => True) (expr.parse_expression (.str "candidate.n == 1")) := by
  obtain ⟨hjson, hyaml, hexpr⟩ := loaders_fail_typed_iff (streams_readsOne ['n'] ['1'])
  exact ⟨(hjson _).mpr (by decide +kernel), (hyaml _).mpr (by decide +kernel),
    (hexpr _).mpr (by decide +kernel)⟩

/-- Such an integer makes every one of them raise `ValueError`. -/
theorem loaders_raise_on_long_integer :
    load_json_bytes (bytesOf (decimal (10 ^ 4300 : Nat))) = .error .value_error ∧
    load_yaml_bytes (readsOne ['n'] (decimal (10 ^ 4300 : Nat)))
      (bytesOf ("n: ".toList ++ decimal (10 ^ 4300 : Nat))) = .error .value_error ∧
    expr.parse_expression (.str gate.longComparison) = .error .value_error ∧
    ¬ IsTyped Accepted (load_json_bytes (bytesOf (decimal (10 ^ 4300 : Nat)))) ∧
    ¬ IsTyped Accepted (load_yaml_bytes (readsOne ['n'] (decimal (10 ^ 4300 : Nat)))
      (bytesOf ("n: ".toList ++ decimal (10 ^ 4300 : Nat)))) ∧
    ¬ IsTyped (fun _ => True) (expr.parse_expression (.str gate.longComparison)) := by
  have hjson := @load_long (10 ^ 4300) le_rfl
  have hyaml := @load_yaml_long (10 ^ 4300) le_rfl
  have hexpr := gate.parse_longComparison
  have hraise : ∀ {α : Type} {accepted : α → Prop} {x : Except Exn α},
      x = .error .value_error → ¬ IsTyped accepted x := by
    rintro α accepted x rfl (⟨a, ha, -⟩ | ⟨failure, hf⟩)
    · cases ha
    · cases hf
  exact ⟨hjson, hyaml, hexpr, hraise hjson, hraise hyaml, hraise hexpr⟩

end vfy.load
