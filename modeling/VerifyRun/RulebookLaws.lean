-- What pinning guarantees: a pinned rulebook was accepted by its schema, and
-- its canonical text reads back as the value that was pinned.
import VerifyRun.Rulebook
import VerifyRun.RoundTrip

namespace vfy.rulebook

open python keys outcomes schema

/-! ## How deep a rulebook is -/

theorem depth_closedObject {required : List String} {fields : List Field} {v : Value} {d : Nat}
    (h : ClosedObject required fields v) (hf : ∀ f ∈ fields, ∀ w, f.2.2 w → w.depth ≤ d) :
    v.depth ≤ d + 1 := by
  obtain ⟨members, rfl, -, hall⟩ := h
  rw [Value.depth_dict_le]
  intro m hm
  obtain ⟨f, hff, -, hP⟩ := hall m hm
  exact hf f hff _ hP

theorem depth_isList {P : Value → Prop} {v : Value} {d : Nat} (h : IsList P v)
    (hP : ∀ x, P x → x.depth ≤ d) : v.depth ≤ d + 1 := by
  obtain ⟨items, rfl, hall⟩ := h
  rw [Value.depth_list_le]
  exact fun x hx => hP x (hall x hx)

theorem depth_isText {v : Value} (h : IsText v) (d : Nat) : v.depth ≤ d := by
  obtain ⟨s, rfl⟩ := h
  exact Nat.zero_le d

theorem depth_isOneOf {options : List String} {v : Value} (h : IsOneOf options v) (d : Nat) :
    v.depth ≤ d := by
  obtain ⟨o, -, rfl⟩ := h
  exact Nat.zero_le d

theorem isList_of_isLongList {least : Int} {P : Value → Prop} {v : Value} (h : IsLongList least P v) :
    IsList P v := by
  obtain ⟨items, hv, -, hall⟩ := h
  exact ⟨items, hv, hall⟩

theorem depth_isDeclaration {v : Value} (h : IsDeclaration v) : v.depth ≤ 1 := by
  refine depth_closedObject h fun f hf w hw => ?_
  simp only [declarationFields, List.mem_cons, List.not_mem_nil, or_false] at hf
  rcases hf with rfl | rfl | rfl | rfl | rfl
  · exact depth_isText hw 0
  · exact depth_isOneOf hw 0
  · exact depth_isText hw 0
  · obtain ⟨i, rfl, -⟩ := hw
    exact le_rfl
  · obtain ⟨b, rfl⟩ := hw
    exact le_rfl

theorem depth_isRule {v : Value} (h : IsRule v) : v.depth ≤ 2 := by
  refine depth_closedObject h fun f hf w hw => ?_
  simp only [ruleFields, List.mem_cons, List.not_mem_nil, or_false] at hf
  rcases hf with rfl | rfl | rfl | rfl | rfl
  · exact depth_isText hw 1
  · exact depth_isText hw 1
  · exact depth_isOneOf hw 1
  · exact depth_isText hw 1
  · exact depth_isList hw fun x hx => depth_isText hx 0

theorem depth_isRulebook {v : Value} (h : IsRulebook v) : v.depth ≤ 4 := by
  refine depth_closedObject h fun f hf w hw => ?_
  simp only [rulebookFields, List.mem_cons, List.not_mem_nil, or_false] at hf
  rcases hf with rfl | rfl | rfl | rfl | rfl | rfl | rfl | rfl | rfl
  · obtain ⟨s, rfl, -⟩ := hw
    exact Nat.zero_le _
  · obtain ⟨s, rfl, -⟩ := hw
    exact Nat.zero_le _
  · obtain ⟨s, rfl, -⟩ := hw
    exact Nat.zero_le _
  · exact depth_isText hw 3
  · exact (depth_isList hw fun x hx => depth_isText hx 0).trans (by omega)
  · exact (depth_isList (isList_of_isLongList hw) fun x hx => depth_isDeclaration hx).trans (by omega)
  · exact depth_isList (isList_of_isLongList hw) fun x hx => depth_isRule hx
  · exact depth_isOneOf hw 3
  · refine (depth_closedObject hw (d := 0) fun f hf w hw => ?_).trans (by omega)
    simp only [settingsFields, List.mem_cons, List.not_mem_nil, or_false] at hf
    rcases hf with rfl | rfl
    · obtain ⟨i, rfl, -⟩ := hw
      exact le_rfl
    · rw [show w = .bool true from hw]
      exact le_rfl

/-! ## Pinning -/

/-- The members that pinning reads off a rulebook. -/
structure Identity (v : Value) (P : LoadedRulebook) : Prop where
  rulebook_id : v.get? "rulebook_id" = some (.str P.rulebook_id)
  version : v.get? "version" = some (.str P.version)
  adopted_at : v.get? "adopted_at" = some (.str P.adopted_at)

theorem string_eq_ok {v : Value} {s : Str} : string v = .ok s ↔ v = .str s := by
  cases v <;> simp [string]

theorem pin_eq_ok {v : Value} {registry : Registry} {P : LoadedRulebook} :
    pin v registry = .ok P ↔ schema.validate v RULEBOOK_SCHEMA_ID registry = .ok () ∧
      check_load_time_semantics v = .ok () ∧ canon.canonicalize v = .ok P.canonical ∧
      canon.digest v = .ok P.digest ∧ Identity v P := by
  have htext : ∀ {t : Text}, canon.canonicalize v = .ok t → canon.digest v =
      .ok (lit "sha256:" ++ ofText (canon.sha256_hexdigest (String.ofList t).toByteArray)) := by
    intro t ht
    simp only [canon.digest, canon.canonical_bytes, ht, ok_bind]
    rfl
  simp only [pin, bind_eq_ok, exists_unit, pure_eq_ok, canon.hex_digest_of_text, toText?_ofText,
    string_eq_ok, getItem_eq_ok]
  constructor
  · rintro ⟨hvalid, hsem, t, ht, digest, hd, _, hid, _, rfl, _, hversion, _, rfl, _, hadopted, _,
      rfl, rfl⟩
    cases hd
    exact ⟨hvalid, hsem, ht, htext ht, hid, hversion, hadopted⟩
  · rintro ⟨hvalid, hsem, ht, hd, hid, hversion, hadopted⟩
    rw [htext ht] at hd
    refine ⟨hvalid, hsem, _, ht, _, rfl, _, hid, _, rfl, _, hversion, _, rfl, _, hadopted, _,
      rfl, ?_⟩
    cases P
    simpa using Except.ok.inj hd

/-- A pinned rulebook reads back as the value that was pinned. -/
theorem value_of_pin {v : Value} (hd : v.DistinctKeys) {P : LoadedRulebook}
    (h : pin v REGISTRY = .ok P) : P.value = .ok v.normalize := by
  obtain ⟨hvalid, -, hcanonical, -, -⟩ := pin_eq_ok.mp h
  have hcan := canon.canonical_of_encode hd (canon.canonicalize_eq_encode v ▸ hcanonical)
  have hdepth := depth_isRulebook ((validate_rulebook_iff v).mp hvalid)
  have hbytes : canon.canonical_bytes v = .ok P.canonical_bytes := by
    rw [canon.canonical_bytes, hcanonical]
    rfl
  rw [LoadedRulebook.value, load.load_canonical_bytes hcan hbytes, if_pos (by omega)]

/-! ## Load-time semantics -/

theorem declared_of_check {items : List Value} {known declared : List Str}
    (h : items.foldlM check_declaration known = .ok declared) :
    ∀ id ∈ declared, id ∈ known ∨ ∃ item ∈ items, item.get? "id" = some (.str id) := by
  induction items generalizing known with
  | nil =>
    rw [List.foldlM_nil, pure_eq_ok] at h
    exact fun id hid => .inl (h ▸ hid)
  | cons item rest ih =>
    rw [List.foldlM_cons, bind_eq_ok] at h
    obtain ⟨next, hnext, h⟩ := h
    simp only [check_declaration, bind_eq_ok, pure_eq_ok, string_eq_ok, getItem_eq_ok] at hnext
    obtain ⟨_, hid, identifier, rfl, _, -, _, -, rfl⟩ := hnext
    intro id hmem
    rcases ih h id hmem with hknown | ⟨found, hfound, heq⟩
    · rcases List.mem_append.mp hknown with hknown | hnew
      · exact .inl hknown
      · exact .inr ⟨item, by simp, List.mem_singleton.mp hnew ▸ hid⟩
    · exact .inr ⟨found, by simp [hfound], heq⟩

theorem needs_of_check {rules : List Value} {declared seen out : List Str}
    (h : rules.foldlM (check_rule declared) seen = .ok out) :
    ∀ rule ∈ rules, ∀ needs, getOr rule "requires_evidence" (.list []) = .ok (.list needs) →
      ∀ need ∈ needs, ∃ id ∈ declared, need = .str id := by
  induction rules generalizing seen with
  | nil => simp
  | cons rule rest ih =>
    rw [List.foldlM_cons, bind_eq_ok] at h
    obtain ⟨next, hnext, h⟩ := h
    intro r hr needs hneeds need hneed
    rcases List.mem_cons.mp hr with rfl | hr
    · simp only [check_rule, bind_eq_ok, hneeds, Except.ok.injEq] at hnext
      obtain ⟨_, -, _, -, _, -, _, rfl, items, hitems, _, hall, -⟩ := hnext
      cases hitems
      obtain ⟨id, hid, hin⟩ := bind_eq_ok.mp (forM_eq_ok.mp hall need hneed)
      rw [raiseIf_eq_ok, not_not] at hin
      exact ⟨id, hin, string_eq_ok.mp hid⟩
    · exact ih h r hr needs hneeds need hneed

/-- A pinned rulebook declares the evidence that its rules require. -/
theorem needs_of_pin {v : Value} {registry : Registry} {P : LoadedRulebook}
    (h : pin v registry = .ok P) {evidence rules : List Value}
    (hevidence : v.get? "evidence" = some (.list evidence))
    (hrules : v.get? "rules" = some (.list rules)) {rule : Value} (hrule : rule ∈ rules)
    {needs : List Value} (hneeds : getOr rule "requires_evidence" (.list []) = .ok (.list needs)) :
    ∀ need ∈ needs, ∃ id, need = .str id ∧ ∃ item ∈ evidence, item.get? "id" = some (.str id) := by
  obtain ⟨-, hcheck, -⟩ := pin_eq_ok.mp h
  simp only [check_load_time_semantics, getItem_eq_ok.mpr hevidence, getItem_eq_ok.mpr hrules,
    ok_bind, iterate, bind_eq_ok] at hcheck
  obtain ⟨declared, hdeclared, out, hout, -⟩ := hcheck
  intro need hneed
  obtain ⟨id, hid, rfl⟩ := needs_of_check hout rule hrule needs hneeds need hneed
  refine ⟨id, rfl, ?_⟩
  rcases declared_of_check hdeclared id hid with hnil | hitem
  · cases hnil
  · exact hitem

/-! ## A rulebook -/

/-- A rulebook with one declaration and one rule, which allows when `when_` is true. -/
def rulebookSince (adopted_at when_ : Str) : Value := .dict
  [("adopted_at", .str adopted_at), ("default_outcome", .str "BLOCK"),
   ("evidence", .list [.dict [("id", .str "report"), ("source", .str "inline")]]),
   ("rulebook_id", .str "small"),
   ("rules", .list [.dict [("id", .str "first"), ("outcome", .str "ALLOW"),
      ("reason", .str "always"), ("when", .str when_)]]),
   ("version", .str "1.0.0")]

section Since

variable {adopted_at when_ : Str}

theorem canonical_rulebookSince (ha : Encodable adopted_at) (h : Encodable when_) :
    (rulebookSince adopted_at when_).Canonical := by
  simp [rulebookSince, Distinct, encodable_lit, ha, h]

theorem normalize_rulebookSince (adopted_at when_ : Str) :
    (rulebookSince adopted_at when_).normalize = rulebookSince adopted_at when_ := rfl

theorem isRulebook_rulebookSince (ha : is_date_time adopted_at = true) (when_ : Str) :
    IsRulebook (rulebookSince adopted_at when_) := by
  refine ⟨_, rfl, by simp, ?_⟩
  simp only [List.mem_cons, List.not_mem_nil, or_false, forall_eq_or_imp, forall_eq,
    rulebookFields, exists_eq_or_imp, exists_eq_left, lit_inj, String.reduceEq, false_and,
    false_or, true_and, or_false]
  refine ⟨⟨_, rfl, ha⟩, ⟨"BLOCK", by simp, rfl⟩, ⟨_, rfl, by simp, ?_⟩,
    ⟨_, rfl, by decide +kernel⟩, ⟨_, rfl, by simp, ?_⟩, ⟨_, rfl, by decide +kernel⟩⟩
  · simp only [List.mem_singleton, forall_eq]
    refine ⟨_, rfl, by simp, ?_⟩
    simp [declarationFields, IsText, IsOneOf]
  · simp only [List.mem_singleton, forall_eq]
    refine ⟨_, rfl, by simp, ?_⟩
    simp [ruleFields, IsText, IsOneOf]

theorem check_rulebookSince (adopted_at when_ : Str) :
    check_load_time_semantics (rulebookSince adopted_at when_) = .ok () := by
  have hid : is_identifier "report" = true := by decide +kernel
  simp [check_load_time_semantics, rulebookSince, check_declaration, check_rule, iterate, string,
    getOr, getMethod, hid, List.foldlM_cons, pure, Except.pure]

/-- The rulebook is pinned. -/
theorem pin_rulebookSince (hdate : is_date_time adopted_at = true) (ha : Encodable adopted_at)
    (h : Encodable when_) :
    ∃ P, pin (rulebookSince adopted_at when_) REGISTRY = .ok P ∧ P.adopted_at = adopted_at := by
  obtain ⟨t, ht⟩ := canon.encode_of_canonical (canonical_rulebookSince ha h)
  rw [← canon.canonicalize_eq_encode] at ht
  refine ⟨⟨t, lit "sha256:" ++ ofText (canon.sha256_hexdigest (String.ofList t).toByteArray),
    "small", "1.0.0", adopted_at⟩, pin_eq_ok.mpr ⟨?_, ?_, ht, ?_, ?_⟩, rfl⟩
  · exact (validate_rulebook_iff _).mpr (isRulebook_rulebookSince hdate when_)
  · exact check_rulebookSince adopted_at when_
  · simp only [canon.digest, canon.canonical_bytes, ht, ok_bind]
    rfl
  · exact ⟨by simp [rulebookSince], by simp [rulebookSince], by simp [rulebookSince]⟩

end Since

/-- Such a rulebook, adopted when the year 2026 began. -/
def rulebookWith (when_ : Str) : Value := .dict
  [("adopted_at", .str "2026-01-01T00:00:00Z"), ("default_outcome", .str "BLOCK"),
   ("evidence", .list [.dict [("id", .str "report"), ("source", .str "inline")]]),
   ("rulebook_id", .str "small"),
   ("rules", .list [.dict [("id", .str "first"), ("outcome", .str "ALLOW"),
      ("reason", .str "always"), ("when", .str when_)]]),
   ("version", .str "1.0.0")]

theorem canonical_rulebookWith {when_ : Str} (h : Encodable when_) :
    (rulebookWith when_).Canonical := canonical_rulebookSince (encodable_lit _) h

theorem normalize_rulebookWith (when_ : Str) :
    (rulebookWith when_).normalize = rulebookWith when_ := rfl

/-- The rulebook is pinned. -/
theorem pin_rulebookWith {when_ : Str} (h : Encodable when_) :
    ∃ P, pin (rulebookWith when_) REGISTRY = .ok P ∧
      P.adopted_at = lit "2026-01-01T00:00:00Z" :=
  pin_rulebookSince (by decide +kernel) (encodable_lit _) h

/-- A rulebook with one declaration and one rule. -/
def smallRulebook : Value := .dict
  [("adopted_at", .str "2026-01-01T00:00:00Z"), ("default_outcome", .str "BLOCK"),
   ("evidence", .list [.dict [("id", .str "report"), ("source", .str "inline")]]),
   ("rulebook_id", .str "small"),
   ("rules", .list [.dict [("id", .str "first"), ("outcome", .str "ALLOW"),
      ("reason", .str "always"), ("when", .str "true")]]),
   ("version", .str "1.0.0")]

/-- The rulebook is pinned. -/
theorem pin_smallRulebook : ∃ P, pin smallRulebook REGISTRY = .ok P ∧
    P.adopted_at = lit "2026-01-01T00:00:00Z" := pin_rulebookWith (encodable_lit _)

end vfy.rulebook
