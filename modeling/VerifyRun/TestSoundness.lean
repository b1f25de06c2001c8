-- A check of evidence returns an observation, and the observation is sound: it
-- says something only of evidence that an authentic snapshot accounts for. The
-- exceptions that a check turns into reasons are all that it meets but one, the
-- `AttributeError` of a signed value that is no mapping.
import VerifyRun.Lib.Raises
import VerifyRun.RetainedEvidence
import VerifyRun.ServiceLaws

namespace vfy.service_tests

open python keys outcomes child_ledger common_capacity managed_capacity engineer service_attempt

/-! ## What a check turns into a reason -/

/-- An exception that a check turns into a reason. -/
def Filtered : Refusal → Prop
  | .refused _ => True
  | .raised e => (caught e).isSome = true

theorem filtered_refused (message : Str) : Filtered (.refused message) := trivial

theorem filtered_verify {e : Exn} (h : e.IsVerify) : Filtered (.raised e) := by
  obtain ⟨f, rfl⟩ := h
  rfl

theorem filtered_refusalOf {e : Exn} (h : e.IsVerify) : Filtered (refusalOf e) := by
  obtain ⟨f, rfl⟩ := h
  rfl

section Parts

theorem raises_needOr {p : Prop} [Decidable p] (message : Str) : Raises Filtered (needOr p message) :=
  .raiseIf (filtered_refused message)

theorem raises_need {p : Prop} [Decidable p] : Raises Filtered (need p) := raises_needOr REFUSED

theorem raises_refused {α : Type} (message : Str) :
    Raises Filtered (.error (.refused message) : Checked α) :=
  .error (filtered_refused message)

theorem raises_lift {α : Type} {x : Except Exn α} (h : Raises (fun e => Filtered (.raised e)) x) :
    Raises Filtered (lift x) :=
  h.mapError fun _ he => he

theorem raises_load (data : ByteArray) : Raises Filtered (lift (load.load_json_bytes data)) := by
  refine raises_lift fun e h => ?_
  rcases load.load_error h with h | rfl
  · exact filtered_verify h
  · rfl

theorem raises_raw (v : Value) : Raises Filtered (raw v) := by
  refine raises_lift (.bind (fun e h => ?_) fun _ _ => .pure _)
  rw [canon.canonicalize_eq_encode] at h
  exact filtered_verify (canon.encode_error v e h).isVerify

theorem raises_item (v : Value) (key : Str) : Raises Filtered (item v key) := by
  refine raises_lift fun e h => ?_
  unfold getItem at h
  split at h
  · split at h
    · cases h
    · cases h
      rfl
  · cases h
    rfl

theorem raises_needKeys (v : Value) (names : List Str) : Raises Filtered (needKeys v names) := by
  unfold needKeys
  split
  · exact .bind raises_need fun _ _ => .pure _
  · exact raises_refused _

theorem raises_exactly (v : Value) (names : List Str) (message : Str) :
    Raises Filtered (exactly v names message) := by
  unfold exactly
  split
  · exact .bind (raises_needOr _) fun _ _ => .pure _
  · exact raises_refused _

theorem raises_stringOf (v : Value) : Raises Filtered (stringOf v) := by
  unfold stringOf
  split
  · exact .pure _
  · exact raises_refused _

theorem raises_stringOr (v : Value) (message : Str) : Raises Filtered (stringOr v message) := by
  unfold stringOr
  split
  · exact .pure _
  · exact raises_refused _

theorem raises_textOf (v : Value) : Raises Filtered (textOf v) := by
  unfold textOf
  split
  · exact .bind raises_need fun _ _ => .pure _
  · exact raises_refused _

theorem raises_hex64Of (v : Value) : Raises Filtered (hex64Of v) := by
  unfold hex64Of
  split
  · exact .bind raises_need fun _ _ => .pure _
  · exact raises_refused _

theorem raises_integerOf (v : Value) : Raises Filtered (integerOf v) := by
  unfold integerOf
  split
  · exact .bind raises_need fun _ _ => .pure _
  · exact raises_refused _

theorem raises_hex64Or (v : Value) (message : Str) : Raises Filtered (hex64Or v message) :=
  .bind (raises_stringOr _ _) fun _ _ => .bind (raises_needOr _) fun _ _ => .pure _

theorem raises_integerOr (v : Value) (message : Str) : Raises Filtered (integerOr v message) := by
  unfold integerOr
  split
  · exact .bind (raises_needOr _) fun _ _ => .pure _
  · exact raises_refused _

theorem raises_boolOr (v : Value) (message : Str) : Raises Filtered (boolOr v message) := by
  unfold boolOr
  split
  · exact .pure _
  · exact raises_refused _

theorem raises_hexBytes (v : Value) : Raises Filtered (hexBytes v) := by
  unfold hexBytes
  split
  · split
    · exact .pure _
    · exact .error rfl
  · exact .error rfl

theorem raises_stringOrNull (v : Value) : Raises Filtered (stringOrNull v) := by
  unfold stringOrNull
  split
  · exact .pure _
  · exact .bind (raises_stringOf _) fun _ _ => .pure _

theorem raises_stateOf (v : Value) : Raises Filtered (stateOf v) := by
  refine .bind (raises_stringOf v) fun s _ => ?_
  split
  · exact .pure _
  · exact raises_refused _

theorem raises_exitOf (v : Value) : Raises Filtered (exitOf v) := by
  unfold exitOf
  split
  · exact .pure _
  · exact .bind raises_need fun _ _ => .pure _
  · exact raises_refused _

theorem raises_bounded (limits : Limits) (inputs : List (Str × ByteArray)) :
    Raises Filtered (bounded limits inputs) :=
  .bind (raises_needOr _) fun _ _ => .bind (raises_needOr _) fun _ _ => .pure _

/-- A JSON parser with the hooks of evidence. -/
theorem evidence_rules :
    json.HookRules (hooks finite) (fun e => Filtered (refusalOf e)) fun _ => True where
  pairs ms _ := by
    refine lift_sat (fun e he => ?_) fun _ _ => trivial
    unfold load.object_from_pairs at he
    split at he
    · cases he
    · exact filtered_refusalOf ⟨_, (Except.error.inj he).symm⟩
  float t := by
    refine lift_sat (fun e he => ?_) fun _ _ => trivial
    unfold finite at he
    split at he
    · cases he
    · cases he
      exact filtered_refused _
  int t := by
    have hraise : ∀ (p : Prop) (message : Str) [Decidable p],
        (python.lift (raiseIf p (.refused message))).Sat Answers (fun e => Filtered (refusalOf e))
          fun _ => True := by
      intro p message _
      refine lift_sat (fun e he => ?_) fun _ _ => trivial
      obtain ⟨-, rfl⟩ := raiseIf_eq_error.mp he
      exact filtered_refused message
    refine calls.Prog.Sat.bind (hraise _ _) fun _ _ => ?_
    refine calls.Prog.Sat.bind (Q := fun _ => True) (fun _ _ => trivial) fun n _ => ?_
    exact calls.Prog.Sat.bind (hraise _ _) fun _ _ => calls.Prog.Sat.pure trivial
  constant t := filtered_refusalOf ⟨_, rfl⟩
  syntax_error := rfl
  null := trivial
  bool _ := trivial
  str _ := trivial
  list _ _ := trivial

/-- The JSON of evidence fails with a typed failure or a `ValueError`. -/
theorem raises_evidence (data : ByteArray) : Raises Filtered (evidence data) := by
  refine .bind (.bind raises_need fun _ _ => ?_) fun v _ => ?_
  · refine .bind (raises_lift fun e h => filtered_verify (load.decode_utf8_error h)) fun text _ => ?_
    refine .bind (raises_lift fun e h => filtered_verify (load.depth_loop_error h)) fun _ _ => ?_
    refine .mapError (show Raises (fun e => Filtered (refusalOf e)) _ from fun e h => ?_) fun _ he => he
    rcases outcome_sat (json.loads_sat evidence_rules text) with ⟨v, hv, -⟩ | ⟨e', he', hfiltered⟩
    · rw [hv] at h
      cases h
    · rw [he'] at h
      cases h
      rcases hfiltered with hfiltered | rfl
      · exact hfiltered
      · rfl
  · split
    · exact .pure _
    · exact raises_refused _

theorem raises_resources (v : Value) (positive : Bool) : Raises Filtered (resources v positive) := by
  have hamount : ∀ name, Raises Filtered (amountOf v positive name) := fun name =>
    .bind (raises_item _ _) fun _ _ => .bind (raises_integerOf _) fun _ _ =>
      .bind raises_need fun _ _ => .pure _
  refine .bind (raises_needKeys _ _) fun _ _ => ?_
  refine .bind (hamount _) fun _ _ => .bind (hamount _) fun _ _ => ?_
  refine .bind (hamount _) fun _ _ => .bind (hamount _) fun _ _ => ?_
  exact .bind (hamount _) fun _ _ => .pure _

theorem raises_read_request (P : ServicePool) (data : ByteArray) : Raises Filtered (read_request P data) := by
  refine .bind (raises_load _) fun q _ => .bind (raises_needKeys _ _) fun _ _ => ?_
  refine .bind (raises_item _ _) fun _ _ => .bind (raises_item _ _) fun _ _ => ?_
  refine .bind (raises_textOf _) fun _ _ => .bind (raises_item _ _) fun _ _ => ?_
  refine .bind (raises_item _ _) fun _ _ => .bind (raises_item _ _) fun _ _ => ?_
  refine .bind (raises_hex64Of _) fun _ _ => .bind (raises_item _ _) fun _ _ => ?_
  refine .bind (raises_item _ _) fun _ _ => .bind raises_need fun _ _ => ?_
  refine .bind (raises_item _ _) fun _ _ => .bind (raises_textOf _) fun _ _ => ?_
  refine .bind raises_need fun _ _ => .bind (raises_item _ _) fun _ _ => ?_
  exact .bind (raises_resources _ _) fun _ _ => .pure _

theorem raises_recordOf (data : ByteArray) : Raises Filtered (recordOf data) := by
  refine .bind (raises_load _) fun v _ => .bind (raises_needKeys _ _) fun _ _ => ?_
  refine .bind (raises_item _ _) fun _ _ => .bind (raises_stringOf _) fun _ _ => ?_
  refine .bind (raises_item _ _) fun _ _ => .bind (raises_item _ _) fun _ _ => ?_
  refine .bind (raises_item _ _) fun _ _ => .bind (raises_stringOf _) fun _ _ => ?_
  exact .bind (raises_item _ _) fun _ _ => .bind (raises_stringOf _) fun _ _ => .pure _

theorem raises_resultOf (v : Value) : Raises Filtered (resultOf v) := by
  unfold resultOf
  split
  · exact .pure _
  refine .bind (raises_needKeys _ _) fun _ _ => ?_
  refine .bind (raises_item _ _) fun _ _ => .bind (raises_hex64Of _) fun _ _ => ?_
  refine .bind (raises_item _ _) fun _ _ => .bind (raises_hex64Of _) fun _ _ => ?_
  refine .bind (raises_item _ _) fun _ _ => .bind (raises_hex64Of _) fun _ _ => ?_
  refine .bind (raises_item _ _) fun _ _ => .bind (raises_integerOf _) fun _ _ => ?_
  refine .bind (raises_item _ _) fun _ _ => .bind (raises_integerOf _) fun _ _ => ?_
  refine .bind (raises_item _ _) fun _ _ => .bind (raises_exitOf _) fun _ _ => ?_
  refine .bind (raises_item _ _) fun _ _ => .bind (raises_stateOf _) fun _ _ => ?_
  exact .bind (raises_item _ _) fun _ _ => .bind (raises_textOf _) fun _ _ => .pure _

theorem raises_totals (P : ServicePool) (b : service_attempt.Body) : Raises Filtered (totals P b) := by
  refine .bind (.foldlM (fun s e _ => ?_) _) fun _ _ => ?_
  · exact .bind (raises_read_request _ _) fun _ _ => .pure _
  · exact .bind (raises_needOr _) fun _ _ => .bind (raises_needOr _) fun _ _ => .pure _

end Parts

/-! ## Where the filter ends -/

/-- The body is a mapping. -/
def isMapping : Value → Bool
  | .dict _ => true
  | _ => false

/-- The bytes are of a record that is signed and trusted, whose body is no mapping. -/
def Bodiless (host : Host) (trust : Trust) (data : ByteArray) : Prop :=
  ∃ record, recordOf data = .ok record ∧ Trusted host record trust ∧ isMapping record.body = false

/-- The approval of an entry has no body, or what is unknown of it is a list of
the two keys; everything before that is as it should be. -/
inductive Odd (P : ServicePool) (seen : service_attempt.Seen) (v : Value) : Prop where
  | approval {a : Admission} (admitted : read_admission P seen v = .ok a)
      (bodiless : Bodiless P.owner.host P.policy.approval_trust a.approval_raw)
  | unknown {a : Admission} {e : service_attempt.Entry} {items : List Value}
      (admitted : read_admission P seen v = .ok a)
      (approved : check_approval P a.approval_raw a.request_raw a.request = .ok ())
      (started : read_start a v = .ok e) (present : item v "unknown" = .ok (.list items))
      (keys : listed items ["reason", "recorded_at"])

/-- A snapshot whose record has no body, or with an odd entry after entries that
are as they should be. -/
inductive OddSnapshot (P : ServicePool) (data : ByteArray) : Prop where
  | record (bodiless : Bodiless P.owner.host P.owner.trust data)
  | entry {s : Snapshot} {before after : List Value} {v : Value} {es : List service_attempt.Entry}
      {seen : service_attempt.Seen}
      (snapshot : read_snapshot P data = .ok s) (items : s.items = before ++ v :: after)
      (read : read_entries P ⟨[], [], [], 1⟩ before = .ok (es, seen)) (odd : Odd P seen v)

/-- The exception that no reason is made of. -/
def ODD : Refusal := .raised .attribute_error

theorem not_filtered_odd : ¬ Filtered ODD := fun h => by cases h

/-- Whatever is raised is filtered, or it is that exception and this is why. -/
def RaisesOr {α : Type} (why : Prop) (x : Checked α) : Prop :=
  Raises (fun e => Filtered e ∨ e = ODD ∧ why) x

section Escapes

variable {P : ServicePool} {host : Host} {trust : Trust} {data : ByteArray}

theorem raises_digest (v : Value) : Raises Filtered (digest v) :=
  .bind (raises_raw _) fun _ _ => .pure _

theorem getMethod_of_mapping {v : Value} (h : isMapping v = true) (key : Str) :
    ∃ o, getMethod v key = .ok o := by
  cases v with
  | dict members => exact ⟨_, rfl⟩
  | _ => cases h

theorem getMethod_odd {v : Value} (h : isMapping v = false) (key : Str) :
    getMethod v key = .error .attribute_error := by
  cases v with
  | dict members => cases h
  | _ => rfl

/-- A record that authenticates is trusted, and so is one that fails for its body alone. -/
theorem authenticate_raises (record : Envelope Value) :
    RaisesOr (Trusted host record trust ∧ isMapping record.body = false) (authenticate host record trust) := by
  have hleft : ∀ {α : Type} {x : Checked α}, Raises Filtered x →
      RaisesOr (Trusted host record trust ∧ isMapping record.body = false) x :=
    fun hx => hx.mono fun _ => .inl
  refine .bind (hleft (raises_digest _)) fun d hd => .bind (hleft raises_need) fun _ hsame => ?_
  split
  · exact hleft (raises_refused _)
  · rename_i entry hentry
    refine .bind (hleft (raises_needOr _)) fun _ hproducer => ?_
    refine .bind (hleft (.bind (raises_raw _) fun _ _ => .pure _)) fun bytes hbytes => ?_
    refine .bind (hleft (raises_needOr _)) fun _ hverify => ?_
    by_cases hbody : isMapping record.body = true
    · obtain ⟨o, ho⟩ := getMethod_of_mapping hbody (lit "authority_granted")
      refine .bind ?_ fun _ _ => .bind (hleft raises_need) fun _ _ => .pure _
      intro e he
      rw [show value record.body = record.body from rfl, ho] at he
      cases he
    · rw [Bool.not_eq_true] at hbody
      refine .bind ?_ fun _ _ => .bind (hleft raises_need) fun _ _ => .pure _
      intro e he
      rw [show value record.body = record.body from rfl, getMethod_odd hbody] at he
      cases he
      refine .inr ⟨rfl, ⟨?_, entry, bytes, hentry, needOr_eq_ok.mp hproducer, hbytes, needOr_eq_ok.mp hverify⟩,
        hbody⟩
      rw [hd, need_eq_ok.mp hsame]

theorem authenticate_odd {record : Envelope Value} (h : Trusted host record trust)
    (hbody : isMapping record.body = false) : authenticate host record trust = .error ODD := by
  rw [h.authenticate, show value record.body = record.body from rfl, getMethod_odd hbody]
  rfl

theorem check_approval_eq (approval_bytes request_bytes : ByteArray) (q : service_attempt.Request) :
    check_approval P approval_bytes request_bytes q = (do
      let approval ← recordOf approval_bytes
      let body ← authenticate P.owner.host approval P.policy.approval_trust
      need (python.eq body (approval_body P request_bytes q.preview_sha256) = true)) := by
  unfold check_approval recordOf
  rw [bind_assoc]

theorem check_approval_raises (approval_bytes request_bytes : ByteArray) (q : service_attempt.Request) :
    RaisesOr (Bodiless P.owner.host P.policy.approval_trust approval_bytes)
      (check_approval P approval_bytes request_bytes q) := by
  rw [check_approval_eq]
  refine .bind ((raises_recordOf _).mono fun _ => .inl) fun record hrecord => .bind ?_ fun _ _ =>
    raises_need.mono fun _ => .inl
  refine (authenticate_raises record).mono fun e he => he.imp_right fun ⟨hodd, htrusted, hbody⟩ => ?_
  exact ⟨hodd, record, hrecord, htrusted, hbody⟩

theorem check_approval_odd {approval_bytes : ByteArray} (request_bytes : ByteArray)
    (q : service_attempt.Request) (h : Bodiless P.owner.host P.policy.approval_trust approval_bytes) :
    check_approval P approval_bytes request_bytes q = .error ODD := by
  obtain ⟨record, hrecord, htrusted, hbody⟩ := h
  rw [check_approval_eq, hrecord, ok_bind, authenticate_odd htrusted hbody]
  rfl

theorem unknownOf_raises (v : Value) :
    RaisesOr (∃ items, v = .list items ∧ listed items ["reason", "recorded_at"]) (unknownOf v) := by
  unfold unknownOf
  split
  · exact .pure _
  · rename_i items
    split
    · rename_i hlisted
      exact .error (.inr ⟨rfl, items, rfl, hlisted⟩)
    · exact .error (.inl (filtered_refused _))
  · refine Raises.mono (.bind (raises_needKeys _ _) fun _ _ => ?_) fun _ => .inl
    refine .bind (raises_item _ _) fun _ _ => .bind (raises_textOf _) fun _ _ => ?_
    exact .bind (raises_item _ _) fun _ _ => .bind (raises_textOf _) fun _ _ => .pure _

theorem raises_read_admission (seen : service_attempt.Seen) (v : Value) :
    Raises Filtered (read_admission P seen v) := by
  refine .bind (raises_needKeys _ _) fun _ _ => ?_
  refine .bind (raises_item _ _) fun _ _ => .bind (raises_hexBytes _) fun _ _ => ?_
  refine .bind (raises_read_request _ _) fun _ _ => ?_
  refine .bind (raises_item _ _) fun _ _ => .bind (raises_stringOf _) fun _ _ => ?_
  refine .bind (raises_item _ _) fun _ _ => .bind (raises_textOf _) fun _ _ => ?_
  refine .bind (raises_item _ _) fun _ _ => .bind (raises_stateOf _) fun _ _ => ?_
  refine .bind raises_need fun _ _ => .bind (raises_needOr _) fun _ _ => ?_
  refine .bind (raises_item _ _) fun _ _ => .bind (raises_hexBytes _) fun _ _ => ?_
  refine .bind (raises_item _ _) fun _ _ => .bind (raises_stringOf _) fun _ _ => ?_
  exact .bind raises_need fun _ _ => .pure _

theorem raises_read_start (a : Admission) (v : Value) : Raises Filtered (read_start a v) := by
  refine .bind (raises_item _ _) fun _ _ => .bind (raises_stringOrNull _) fun _ _ => ?_
  refine .bind (raises_item _ _) fun _ _ => .bind (raises_stringOrNull _) fun _ _ => ?_
  refine .bind ?_ fun _ _ => .pure _
  unfold check_consumption
  split
  · exact raises_need
  · exact raises_need

theorem raises_check_unknown (e : service_attempt.Entry) : Raises Filtered (check_unknown e) := by
  unfold check_unknown
  split
  · exact raises_need
  · exact .pure _

theorem raises_check_observation (q : service_attempt.Request) (e : service_attempt.Entry) :
    Raises Filtered (service_attempt.check_observation q e) := by
  unfold service_attempt.check_observation
  split
  · exact .bind raises_need fun _ _ => .bind raises_need fun _ _ => raises_need
  · exact .pure _

/-- One entry. -/
theorem read_entry_raises (seen : service_attempt.Seen) (v : Value) :
    RaisesOr (Odd P seen v) (read_entry P seen v) := by
  have hleft : ∀ {α : Type} {x : Checked α}, Raises Filtered x → RaisesOr (Odd P seen v) x :=
    fun hx => hx.mono fun _ => .inl
  refine .bind (hleft (raises_read_admission _ _)) fun a ha => .bind ?_ fun _ happroved => ?_
  · exact (check_approval_raises _ _ _).mono fun _ he => he.imp_right fun ⟨hodd, hbodiless⟩ =>
      ⟨hodd, .approval ha hbodiless⟩
  refine .bind (hleft (raises_read_start _ _)) fun e he => .bind (hleft (raises_item _ _)) fun u hu => ?_
  refine .bind ?_ fun _ _ => .bind (hleft (raises_check_unknown _)) fun _ _ => ?_
  · refine (unknownOf_raises u).mono fun _ he' => he'.imp_right fun ⟨hodd, items, hitems, hlisted⟩ => ?_
    subst hitems
    exact ⟨hodd, .unknown ha happroved he hu hlisted⟩
  refine .bind (hleft (raises_item _ _)) fun _ _ => .bind (hleft (raises_resultOf _)) fun _ _ => ?_
  exact .bind (hleft (raises_check_observation _ _)) fun _ _ => .bind (hleft raises_need) fun _ _ => .pure _

theorem read_entry_odd {seen : service_attempt.Seen} {v : Value} (h : Odd P seen v) :
    read_entry P seen v = .error ODD := by
  cases h with
  | approval hadmitted hbodiless =>
    unfold read_entry
    rw [hadmitted, ok_bind, check_approval_odd _ _ hbodiless]
    rfl
  | unknown hadmitted happroved hstarted hpresent hkeys =>
    unfold read_entry
    rw [hadmitted, ok_bind, happroved, ok_bind, hstarted, ok_bind, hpresent, ok_bind, unknownOf, if_pos hkeys]
    rfl

/-- All entries: the first odd one ends the loop. -/
theorem read_entries_raises (items : List Value) (seen : service_attempt.Seen) :
    RaisesOr (∃ before v after es seen', items = before ++ v :: after ∧
      read_entries P seen before = .ok (es, seen') ∧ Odd P seen' v) (read_entries P seen items) := by
  induction items generalizing seen with
  | nil => exact .pure _
  | cons v items ih =>
    refine .bind ?_ fun r hr => .bind ?_ fun _ _ => .pure _
    · exact (read_entry_raises seen v).mono fun _ he => he.imp_right fun ⟨hodd, hv⟩ =>
        ⟨hodd, [], v, items, [], seen, rfl, rfl, hv⟩
    · refine (ih r.2).mono fun _ he => he.imp_right ?_
      rintro ⟨hodd, before, w, after, es, seen', rfl, hread, hw⟩
      refine ⟨hodd, v :: before, w, after, r.1 :: es, seen', rfl, ?_, hw⟩
      rw [read_entries, hr, ok_bind]
      dsimp only
      rw [hread]
      rfl

theorem read_entries_odd {before after : List Value} {v : Value} {seen seen' : service_attempt.Seen}
    {es : List service_attempt.Entry} (hread : read_entries P seen before = .ok (es, seen'))
    (h : Odd P seen' v) : read_entries P seen (before ++ v :: after) = .error ODD := by
  induction before generalizing seen es with
  | nil =>
    obtain ⟨-, rfl⟩ := Prod.mk.inj (pure_eq_ok.mp hread)
    rw [List.nil_append, read_entries, read_entry_odd h]
    rfl
  | cons w before ih =>
    obtain ⟨r, hr, hread⟩ := bind_eq_ok.mp hread
    obtain ⟨r', hr', hread⟩ := bind_eq_ok.mp hread
    obtain ⟨-, rfl⟩ := Prod.mk.inj (pure_eq_ok.mp hread)
    rw [List.cons_append, read_entries, hr, ok_bind]
    dsimp only
    rw [ih hr']
    rfl

theorem read_snapshot_raises (data : ByteArray) :
    RaisesOr (Bodiless P.owner.host P.owner.trust data) (read_snapshot P data) := by
  have hleft : ∀ {α : Type} {x : Checked α}, Raises Filtered x →
      RaisesOr (Bodiless P.owner.host P.owner.trust data) x := fun hx => hx.mono fun _ => .inl
  refine .bind (hleft (raises_recordOf _)) fun record hrecord => .bind ?_ fun b _ => ?_
  · exact (authenticate_raises record).mono fun _ he => he.imp_right fun ⟨hodd, htrusted, hbody⟩ =>
      ⟨hodd, record, hrecord, htrusted, hbody⟩
  refine hleft (.bind raises_need fun _ _ => .bind (raises_needKeys _ _) fun _ _ => ?_)
  refine .bind (raises_item _ _) fun _ _ => .bind (raises_item _ _) fun _ _ => ?_
  refine .bind (raises_item _ _) fun _ _ => .bind (raises_item _ _) fun _ _ => ?_
  refine .bind (raises_item _ _) fun _ _ => .bind (raises_item _ _) fun _ _ => ?_
  refine .bind (raises_item _ _) fun _ _ => .bind raises_need fun _ _ => ?_
  refine .bind (raises_item _ _) fun _ _ => .bind (raises_integerOf _) fun _ _ => ?_
  refine .bind (raises_item _ _) fun _ _ => .bind (raises_hex64Of _) fun _ _ => ?_
  refine .bind (raises_item _ _) fun _ _ => ?_
  split
  · exact .pure _
  · exact raises_refused _

theorem verify_snapshot_raises (data : ByteArray) :
    RaisesOr (OddSnapshot P data) (verify_snapshot P data) := by
  have hleft : ∀ {α : Type} {x : Checked α}, Raises Filtered x → RaisesOr (OddSnapshot P data) x :=
    fun hx => hx.mono fun _ => .inl
  refine .bind ?_ fun s hs => .bind ?_ fun r _ => ?_
  · exact (read_snapshot_raises data).mono fun _ he => he.imp_right fun ⟨hodd, hbodiless⟩ =>
      ⟨hodd, .record hbodiless⟩
  · refine (read_entries_raises s.items _).mono fun _ he => he.imp_right ?_
    rintro ⟨hodd, before, v, after, es, seen, hitems, hread, hv⟩
    exact ⟨hodd, .entry hs hitems hread hv⟩
  · exact .bind (hleft raises_need) fun _ _ => .bind (hleft (raises_totals _ _)) fun _ _ => .pure _

theorem verify_snapshot_odd (h : OddSnapshot P data) : verify_snapshot P data = .error ODD := by
  cases h with
  | record hbodiless =>
    obtain ⟨record, hrecord, htrusted, hbody⟩ := hbodiless
    unfold verify_snapshot read_snapshot
    rw [hrecord, ok_bind, authenticate_odd htrusted hbody]
    rfl
  | entry hsnapshot hitems hread hodd =>
    unfold verify_snapshot
    rw [hsnapshot, ok_bind, hitems, read_entries_odd hread hodd]
    rfl

end Escapes

/-! ## What a check raises -/

section Stages

theorem raises_eventOf (v : Value) : Raises Filtered (eventOf v) := by
  refine .bind (raises_exactly _ _ _) fun _ _ => .bind (raises_item _ _) fun _ _ => ?_
  refine .bind (raises_stringOr _ _) fun _ _ => .bind (raises_needOr _) fun _ _ => ?_
  refine .bind (raises_item _ _) fun _ _ => .bind (raises_stringOr _ _) fun _ _ => ?_
  split
  · exact .pure _
  · exact raises_refused _

theorem raises_read_report (limits : Limits) (data : ByteArray) :
    Raises Filtered (read_report limits data) := by
  refine .bind (raises_load _) fun report _ => .bind (raises_exactly _ _ _) fun _ _ => ?_
  refine .bind (raises_item _ _) fun _ _ => .bind (raises_needOr _) fun _ _ => ?_
  refine .bind (raises_item _ _) fun events _ => ?_
  split
  · refine .bind (raises_needOr _) fun _ _ => .bind (raises_item _ _) fun _ _ => ?_
    refine .bind (raises_integerOr _ _) fun _ _ => .bind (raises_item _ _) fun _ _ => ?_
    refine .bind (raises_boolOr _ _) fun _ _ => .bind (raises_item _ _) fun _ _ => ?_
    refine .bind (raises_boolOr _ _) fun _ _ => .bind (raises_item _ _) fun _ _ => ?_
    refine .bind (raises_hex64Or _ _) fun _ _ => ?_
    exact .bind (.mapM fun v _ => raises_eventOf v) fun _ _ => .pure _
  · exact raises_refused _

theorem raises_check_selected (p : Value) (field expected message : Str) :
    Raises Filtered (check_selected p field expected message) := by
  unfold check_selected
  split
  · refine .bind (raises_needOr _) fun _ _ => .bind (.raiseIf rfl) fun _ _ => ?_
    exact .bind (raises_digest _) fun _ _ => raises_needOr _
  · exact raises_refused _

variable (C : TestObservationChecker) (E : Evidence)

theorem raises_check_preview (p : Value) : Raises Filtered (C.check_preview p) := by
  refine .bind (raises_needOr _) fun _ _ => .bind (raises_check_selected _ _ _ _) fun _ _ => ?_
  refine .bind (raises_check_selected _ _ _ _) fun _ _ => .bind (raises_check_selected _ _ _ _) fun _ _ => ?_
  exact .bind (raises_needOr _) fun _ _ => .bind (raises_needOr _) fun _ _ => raises_needOr _

theorem raises_check_streams (report : Report) (r : Value) :
    Raises Filtered (TestObservationChecker.check_streams E report r) :=
  .bind (raises_evidence _) fun _ _ => .bind (raises_needOr _) fun _ _ => raises_needOr _

theorem raises_check_process (p r : Value) (a : service_attempt.Result) :
    Raises Filtered (TestObservationChecker.check_process p r a) := by
  unfold TestObservationChecker.check_process
  split
  · exact .bind (raises_needOr _) fun _ _ => .bind (raises_needOr _) fun _ _ => .pure _
  · exact raises_refused _

theorem raises_check_cases (report : Report) (exit : Int) : Raises Filtered (C.check_cases report exit) := by
  refine .bind (raises_needOr _) fun _ _ => .bind (raises_needOr _) fun _ _ => ?_
  refine .bind (raises_needOr _) fun _ _ => .bind (raises_needOr _) fun _ _ => ?_
  exact .bind (raises_needOr _) fun _ _ => raises_needOr _

theorem check_accounting_raises (p : Value) :
    RaisesOr (OddSnapshot C.pool E.accounting_snapshot_bytes) (C.check_accounting E p) := by
  refine .bind (verify_snapshot_raises _) fun entries _ => Raises.mono ?_ fun _ => .inl
  split
  · refine .bind (raises_read_request _ _) fun _ _ => .bind (raises_needOr _) fun _ _ => ?_
    split
    · exact .bind (raises_needOr _) fun _ _ => .bind (raises_needOr _) fun _ _ => .pure _
    · exact raises_refused _
  · exact raises_refused _

/-- The evidence passes every stage of a check before its accounting. -/
structure Reaches (report : Report) (p r : Value) : Prop where
  bounded : ∃ count, bounded C.limits (C.selected ++ E.members) = .ok count
  request : hex64 E.request_sha256
  reported : read_report C.limits E.stdout_bytes = .ok report
  preview : evidence E.preview_bytes = .ok p
  result : evidence E.result_bytes = .ok r
  selected : C.check_preview p = .ok ()
  streams : TestObservationChecker.check_streams E report r = .ok ()

/-- The exception leaves the check: its accounting is reached, and is odd. -/
def Escapes : Prop :=
  (∃ report p r, Reaches C E report p r) ∧ OddSnapshot C.pool E.accounting_snapshot_bytes

variable {C E}

/-- An exception that leaves a stage is not a reason. -/
theorem attempt_eq_error {α : Type} {out : Observation} {x : Checked α} {next : α → Checked Observation}
    {e : Refusal} (hx : Raises (fun e => Filtered e ∨ e = ODD) x) (h : attempt out x next = .error e) :
    x = .error ODD ∨ ∃ a, x = .ok a ∧ next a = .error e := by
  cases x with
  | ok a => exact .inr ⟨a, rfl, h⟩
  | error e' =>
    rcases hx e' rfl with hfiltered | rfl
    · cases e' with
      | refused message => cases h
      | raised e' =>
        obtain ⟨n, hn⟩ := Option.isSome_iff_exists.mp hfiltered
        simp only [attempt, Observation.failed, hn] at h
        cases h
    · exact .inl rfl

theorem attempt_filtered {α : Type} {out : Observation} {x : Checked α} {next : α → Checked Observation}
    {e : Refusal} (hx : Raises Filtered x) (h : attempt out x next = .error e) :
    ∃ a, x = .ok a ∧ next a = .error e := by
  rcases attempt_eq_error (hx.mono fun _ => .inl) h with hodd | h
  · exact absurd (hx _ hodd) not_filtered_odd
  · exact h

/-- A check that raises does so for an odd snapshot. -/
theorem escapes_of_check {e : Refusal} (h : C.check E = .error e) : Escapes C E := by
  unfold TestObservationChecker.check at h
  obtain ⟨count, hcount, h⟩ := attempt_filtered (raises_bounded _ _) h
  obtain ⟨_, hrequest, h⟩ := attempt_filtered (raises_needOr _) h
  obtain ⟨report, hreport, h⟩ := attempt_filtered (raises_read_report _ _) h
  have hcorrespond : Raises (fun e => Filtered e ∨ e = ODD ∧ Escapes C E) (C.correspond E report) := by
    have hleft : ∀ {α : Type} {x : Checked α}, Raises Filtered x → RaisesOr (Escapes C E) x :=
      fun hx => hx.mono fun _ => .inl
    refine .bind (hleft (raises_evidence _)) fun p hp => .bind (hleft (raises_evidence _)) fun r hr => ?_
    refine .bind (hleft (raises_check_preview _ _)) fun _ hselected => ?_
    refine .bind (hleft (raises_check_streams _ _ _)) fun _ hstreams => .bind ?_ fun a _ => ?_
    · refine (check_accounting_raises C E p).mono fun _ he => he.imp_right fun ⟨hodd, hsnapshot⟩ => ?_
      exact ⟨hodd, ⟨report, p, r, ⟨count, hcount⟩, needOr_eq_ok.mp hrequest, hreport, hp, hr, hselected,
        hstreams⟩, hsnapshot⟩
    · exact .bind (hleft (raises_check_process _ _ _)) fun _ _ => hleft (raises_check_cases _ _ _)
  rcases attempt_eq_error (hcorrespond.mono fun _ he => he.imp_right And.left) h with hodd | ⟨_, -, h⟩
  · rcases hcorrespond _ hodd with hfiltered | ⟨-, hescapes⟩
    · exact absurd hfiltered not_filtered_odd
    · exact hescapes
  · cases h

theorem check_of_escapes (h : Escapes C E) : C.check E = .error ODD := by
  obtain ⟨⟨report, p, r, ⟨count, hcount⟩, hrequest, hreport, hp, hr, hselected, hstreams⟩, hodd⟩ := h
  have hcorrespond : C.correspond E report = .error ODD := by
    unfold TestObservationChecker.correspond TestObservationChecker.check_accounting
    rw [hp, ok_bind, hr, ok_bind, hselected, ok_bind, hstreams, ok_bind, verify_snapshot_odd hodd]
    rfl
  unfold TestObservationChecker.check
  dsimp only
  rw [hcount, needOr_eq_ok.mpr hrequest, hreport]
  change attempt _ (C.correspond E report) _ = _
  rw [hcorrespond]
  rfl

end Stages

/-! ## What an observation is of -/

section Soundness

variable {P : ServicePool} {data : ByteArray}

/-- An entry that was read is one that the pool accepts. -/
theorem read_entry_eq_ok {seen seen' : service_attempt.Seen} {v : Value} {e : service_attempt.Entry}
    (h : read_entry P seen v = .ok (e, seen')) : service_attempt.check_entry P seen e = .ok seen' := by
  unfold read_entry at h
  obtain ⟨a, hadmitted, h⟩ := bind_eq_ok.mp h
  obtain ⟨happroved, h⟩ := seq_eq_ok.mp h
  obtain ⟨started, hstarted, h⟩ := bind_eq_ok.mp h
  simp only [bind_eq_ok, exists_unit, need_eq_ok, pure_eq_ok] at h
  obtain ⟨_, -, unknown, -, hunknown, _, -, result, -, hobserved, hstate, h⟩ := h
  obtain ⟨rfl, rfl⟩ := Prod.mk.inj h
  unfold read_admission at hadmitted
  simp only [bind_eq_ok, exists_unit, need_eq_ok, needOr_eq_ok, pure_eq_ok] at hadmitted
  obtain ⟨_, -, _, -, request_raw, -, request, hrequest, _, -, _, -, _, -, recorded_at, hrecorded, _, -,
    state, -, hkey, hnew, _, -, approval_raw, -, _, -, _, -, happroval, rfl⟩ := hadmitted
  unfold read_start at hstarted
  simp only [bind_eq_ok, exists_unit, pure_eq_ok] at hstarted
  obtain ⟨_, -, consumed_at, -, _, -, start_sha256, -, hconsumed, rfl⟩ := hstarted
  have htext : text recorded_at := by
    unfold textOf at hrecorded
    split at hrecorded
    · obtain ⟨htext, hsame⟩ := seq_eq_ok.mp hrecorded
      exact pure_eq_ok.mp hsame ▸ need_eq_ok.mp htext
    · cases hrecorded
  unfold service_attempt.check_entry
  refine bind_eq_ok.mpr ⟨request, hrequest, seq_eq_ok.mpr ⟨need_eq_ok.mpr ⟨rfl, htext⟩, ?_⟩⟩
  refine seq_eq_ok.mpr ⟨needOr_eq_ok.mpr hnew, seq_eq_ok.mpr ⟨need_eq_ok.mpr rfl, ?_⟩⟩
  refine seq_eq_ok.mpr ⟨happroved, seq_eq_ok.mpr ⟨hconsumed, seq_eq_ok.mpr ⟨hunknown, ?_⟩⟩⟩
  exact seq_eq_ok.mpr ⟨hobserved, seq_eq_ok.mpr ⟨need_eq_ok.mpr hstate, rfl⟩⟩

theorem read_entries_eq_ok {items : List Value} {seen seen' : service_attempt.Seen}
    {es : List service_attempt.Entry}
    (h : read_entries P seen items = .ok (es, seen')) :
    es.foldlM (service_attempt.check_entry P) seen = .ok seen' := by
  induction items generalizing seen es with
  | nil =>
    obtain ⟨rfl, rfl⟩ := Prod.mk.inj (pure_eq_ok.mp h)
    rfl
  | cons v items ih =>
    obtain ⟨⟨e, next⟩, he, h⟩ := bind_eq_ok.mp h
    obtain ⟨⟨rest, last⟩, hrest, h⟩ := bind_eq_ok.mp h
    obtain ⟨rfl, rfl⟩ := Prod.mk.inj (pure_eq_ok.mp h)
    rw [List.foldlM_cons]
    exact bind_eq_ok.mpr ⟨next, read_entry_eq_ok he, ih hrest⟩

/-- A record of the owner: signed, trusted and of its issuer. -/
structure Authentic (P : ServicePool) (data : ByteArray) (record : Envelope Value) : Prop where
  read : recordOf data = .ok record
  trusted : Trusted P.owner.host record P.owner.trust
  issuer : record.issuer_identity = P.owner.issuer

theorem verify_snapshot_eq_ok {es : List service_attempt.Entry} (h : verify_snapshot P data = .ok es) :
    (∃ record, Authentic P data record) ∧
      ∃ seen, es.foldlM (service_attempt.check_entry P) ⟨[], [], [], 1⟩ = .ok seen := by
  unfold verify_snapshot at h
  obtain ⟨s, hsnapshot, h⟩ := bind_eq_ok.mp h
  obtain ⟨⟨entries, seen⟩, hentries, h⟩ := bind_eq_ok.mp h
  simp only [bind_eq_ok, exists_unit, pure_eq_ok] at h
  obtain ⟨-, _, -, rfl⟩ := h
  refine ⟨?_, seen, read_entries_eq_ok hentries⟩
  unfold read_snapshot at hsnapshot
  obtain ⟨record, hrecord, h⟩ := bind_eq_ok.mp hsnapshot
  obtain ⟨b, hauthentic, h⟩ := bind_eq_ok.mp h
  obtain ⟨hissuer, -⟩ := seq_eq_ok.mp h
  exact ⟨record, hrecord, trusted_of_authenticate hauthentic, need_eq_ok.mp hissuer⟩

/-- A result says what its exit code is, unless it is unknown. -/
theorem check_observation_exit {q : service_attempt.Request} {e : service_attempt.Entry}
    {a : service_attempt.Result} (h : service_attempt.check_observation q e = .ok ())
    (ha : e.result = some a) (hknown : a.classification ≠ .UNKNOWN) :
    ∃ code, a.exit = some code ∧ a.classification = classify code := by
  unfold service_attempt.check_observation at h
  rw [ha] at h
  obtain ⟨-, h⟩ := seq_eq_ok.mp h
  obtain ⟨-, h⟩ := seq_eq_ok.mp h
  exact need_eq_ok.mp h hknown

/-- One of the entries that a pool accepts, from a state of its reader. -/
theorem check_entry_of_mem {es : List service_attempt.Entry} {seen seen' : service_attempt.Seen}
    (h : es.foldlM (service_attempt.check_entry P) seen = .ok seen') {e : service_attempt.Entry} (he : e ∈ es) :
    ∃ s s', service_attempt.check_entry P s e = .ok s' := by
  induction es generalizing seen with
  | nil => cases he
  | cons x es ih =>
    rw [List.foldlM_cons] at h
    obtain ⟨next, hnext, h⟩ := bind_eq_ok.mp h
    rcases List.mem_cons.mp he with rfl | he
    · exact ⟨seen, next, hnext⟩
    · exact ih h he

/-- An entry of an authentic snapshot, the only one of the request, recorded
this evidence, and that the process ended with this exit code. -/
structure Recorded (P : ServicePool) (E : Evidence) (e : service_attempt.Entry) (q : service_attempt.Request)
    (a : service_attempt.Result) (exit : Int) : Prop where
  authentic : ∃ record, Authentic P E.accounting_snapshot_bytes record
  accounted : ∃ entries, verify_snapshot P E.accounting_snapshot_bytes = .ok entries ∧
    (entries.filter fun e => e.request_sha256 = E.request_sha256) = [e]
  sound : e.Sound
  request : E.request_sha256 = sha e.request_raw ∧ read_request P e.request_raw = .ok q
  preview : q.preview_sha256 = sha E.preview_bytes
  start : e.start_sha256 = some (sha E.start_bytes)
  result : e.result = some a ∧ a.result_sha256 = sha E.result_bytes
  stdout : a.stdout_sha256 = sha E.stdout_bytes ∧ a.stdout_bytes = E.stdout_bytes.size
  stderr : a.stderr_sha256 = sha E.stderr_bytes ∧ a.stderr_bytes = E.stderr_bytes.size
  known : e.unknown = none
  exit : a.exit = some exit ∧ 0 ≤ exit ∧ e.state = classify exit

/-- The report is of the selected cases, each once, and agrees with itself and
with the exit code. -/
structure Agrees (C : TestObservationChecker) (report : Report) (exit : Int) : Prop where
  once : (report.events.map Event.id).Nodup
  cases : (report.events.map Event.id).Perm C.selection.case_ids
  count : report.tests_run = report.events.length
  completed : report.completed = true
  summary : report.successful = true ↔
    ∀ e ∈ report.events, e.outcome = .success ∨ e.outcome = .skip ∨ e.outcome = .expected_failure
  exit : exit = 0 ↔ report.successful = true

/-- What is said of the report: of all cases, and of those of each requirement. -/
structure Concludes (C : TestObservationChecker) (report : Report) (o : Observation) : Prop where
  success : o.state = .OBSERVED_SELECTED_CASES_SUCCESS ↔ ∀ e ∈ report.events, e.outcome = .success
  all : o.all_selected_cases_reported_success = true ↔ ∀ e ∈ report.events, e.outcome = .success
  requirements : List.Forall₂ (fun c r => r.1 = c.1 ∧ r.2.1 = c.2 ∧
      (r.2.2 = true ↔ ∀ i ∈ c.2, ∃ e ∈ report.events, e.id = i ∧ e.outcome = .success))
    C.selection.requirement_cases o.requirements

/-- An observation of an attempt that is accounted for. -/
inductive Observes (C : TestObservationChecker) (E : Evidence) (o : Observation) : Prop where
  | intro {report : Report} {p r : Value} {e : service_attempt.Entry} {q : service_attempt.Request}
      {a : service_attempt.Result} {exit : Int} (reached : Reaches C E report p r)
      (recorded : Recorded C.pool E e q a exit) (agrees : Agrees C report exit)
      (concludes : Concludes C report o)

/-- An observation says something only of such an attempt, and says nothing
where its state is unknown. -/
structure Sound (C : TestObservationChecker) (E : Evidence) (o : Observation) : Prop where
  observed : o.state ≠ .UNKNOWN → Observes C E o
  unknown : o.state = .UNKNOWN → o.all_selected_cases_reported_success = false ∧ o.requirements = []

variable {C : TestObservationChecker} {E : Evidence} {report : Report} {o : Observation}

/-- The entry of the request recorded the evidence. -/
theorem recorded_of_accounting {p : Value} {a : service_attempt.Result} {exit : Int}
    (h : C.check_accounting E p = .ok a) (hexit : a.exit = some exit) (hnonneg : 0 ≤ exit) :
    ∃ e q, Recorded C.pool E e q a exit := by
  unfold TestObservationChecker.check_accounting at h
  obtain ⟨entries, hentries, h⟩ := bind_eq_ok.mp h
  split at h
  · rename_i e hone
    obtain ⟨q, hq, h⟩ := bind_eq_ok.mp h
    obtain ⟨hrequest, h⟩ := seq_eq_ok.mp h
    obtain ⟨hpreview, -, -, hstart⟩ := needOr_eq_ok.mp hrequest
    split at h
    · rename_i a' ha
      simp only [bind_eq_ok, exists_unit, needOr_eq_ok, pure_eq_ok] at h
      obtain ⟨⟨hresult, hstdout, hstderr, hstdoutBytes, hstderrBytes⟩, ⟨hstate, hunknown⟩, rfl⟩ := h
      obtain ⟨hrecord, seen, hseen⟩ := verify_snapshot_eq_ok hentries
      have hmem : e ∈ entries.filter fun e => e.request_sha256 = E.request_sha256 := by
        rw [hone]
        exact List.mem_singleton_self e
      obtain ⟨hmem, hkey⟩ := List.mem_filter.mp hmem
      obtain ⟨s, s', hentry⟩ := check_entry_of_mem hseen hmem
      obtain ⟨-, -, hsound, -⟩ := check_entry_eq_ok hentry
      have hsame : e.state = a'.classification := by
        rw [hsound.state, Entry.expected, Option.isNone_iff_eq_none.mp hunknown, ha]
        rfl
      have hclassified : a'.classification = classify exit := by
        obtain ⟨q', -, hentry⟩ := bind_eq_ok.mp hentry
        simp only [bind_eq_ok, exists_unit] at hentry
        obtain ⟨-, -, -, -, -, -, hobserved, -⟩ := hentry
        have hknown : a'.classification ≠ .UNKNOWN := by
          rw [← hsame]
          rcases hstate with h | h <;> rw [h] <;> decide
        obtain ⟨code, hcode, hclass⟩ := check_observation_exit hobserved ha hknown
        rw [hclass, Option.some.inj (hcode.symm.trans hexit)]
      refine ⟨e, q, hrecord, ⟨entries, hentries, hone⟩, hsound, ⟨?_, hq⟩, hpreview, hstart, ⟨ha, hresult⟩,
        ⟨hstdout, hstdoutBytes⟩, ⟨hstderr, hstderrBytes⟩, Option.isNone_iff_eq_none.mp hunknown,
        hexit, hnonneg, hsame.trans hclassified⟩
      rw [← hsound.key]
      exact (of_decide_eq_true hkey).symm
    · cases h
  · cases h

theorem check_process_eq_ok {p r : Value} {a : service_attempt.Result} {exit : Int}
    (h : TestObservationChecker.check_process p r a = .ok exit) : a.exit = some exit ∧ 0 ≤ exit := by
  unfold TestObservationChecker.check_process at h
  split at h
  · rename_i code _
    simp only [bind_eq_ok, exists_unit, needOr_eq_ok, pure_eq_ok] at h
    obtain ⟨⟨-, hnonneg, -, hsame⟩, -, rfl⟩ := h
    exact ⟨hsame, hnonneg⟩
  · cases h

theorem names_eq_ok {v : Value} {ids : List Str} (h : names v = .ok ids) : ids.Nodup := by
  unfold names at h
  split at h
  · simp only [bind_eq_ok, exists_unit, needOr_eq_ok, pure_eq_ok] at h
    obtain ⟨_, -, -, hnodup, rfl⟩ := h
    exact hnodup
  · cases h

/-- The cases of a selection are distinct. -/
theorem nodup_case_ids (C : TestObservationChecker) : C.selection.case_ids.Nodup := by
  have h := C.read
  unfold read_selected at h
  simp only [bind_eq_ok] at h
  obtain ⟨_, -, _, -, q, -, _, -, req, -, selection, h, hpair⟩ := h
  cases hpair
  unfold read_selection at h
  simp only [bind_eq_ok] at h
  iterate 18 obtain ⟨_, -, h⟩ := h
  obtain ⟨case_ids, hids, _, -, _, -, _, -, hselection⟩ := h
  rw [← pure_eq_ok.mp hselection]
  exact names_eq_ok hids

theorem agrees_of_check_cases {exit : Int} (h : C.check_cases report exit = .ok ()) :
    Agrees C report exit := by
  unfold TestObservationChecker.check_cases at h
  simp only [bind_eq_ok, exists_unit, needOr_eq_ok] at h
  obtain ⟨honce, ⟨hleft, hright⟩, hcount, hcompleted, hsummary, hexit⟩ := h
  refine ⟨honce, ?_, hcount, hcompleted, ?_, ?_⟩
  · apply (List.perm_ext_iff_of_nodup honce (nodup_case_ids C)).mpr
    intro i
    exact ⟨hleft i, hright i⟩
  · rw [hsummary]
    simp [or_assoc]
  · rw [← hexit, decide_eq_true_eq]

/-- The cases that are said to have succeeded did. -/
theorem succeeded_iff (honce : (report.events.map Event.id).Nodup) (i : Str) :
    ((report.events.find? fun e => e.id = i).any fun e => e.outcome = .success) = true ↔
      ∃ e ∈ report.events, e.id = i ∧ e.outcome = .success := by
  constructor
  · intro h
    obtain ⟨e, he, hsuccess⟩ := (Option.any_eq_true _ _).mp h
    have hid := List.find?_some he
    exact ⟨e, List.mem_of_find?_eq_some he, of_decide_eq_true hid, of_decide_eq_true hsuccess⟩
  · rintro ⟨e, he, rfl, hsuccess⟩
    obtain ⟨found, hfound⟩ := Option.isSome_iff_exists.mp
      (List.find?_isSome.mpr ⟨e, he, decide_eq_true rfl⟩ :
        (report.events.find? fun f => f.id = e.id).isSome = true)
    have hid := List.find?_some hfound
    have hsame : found = e := List.inj_on_of_nodup_map honce (List.mem_of_find?_eq_some hfound) he
      (of_decide_eq_true hid)
    rw [hfound, hsame]
    exact decide_eq_true hsuccess

theorem concludes_concluded {out : Observation} (honce : (report.events.map Event.id).Nodup) :
    Concludes C report (C.concluded out report) := by
  have hall : (report.events.all fun e => e.outcome = .success) = true ↔
      ∀ e ∈ report.events, e.outcome = .success := by
    simp
  refine ⟨?_, hall, ?_⟩
  · rw [← hall]
    show (if _ then _ else _) = _ ↔ _
    split
    · rename_i hsuccess
      exact ⟨fun _ => hsuccess, fun _ => rfl⟩
    · rename_i hsuccess
      exact ⟨nofun, fun h => absurd h hsuccess⟩
  · show List.Forall₂ _ _ (C.selection.requirement_cases.map _)
    rw [List.forall₂_map_right_iff, List.forall₂_same]
    intro c _
    refine ⟨rfl, rfl, ?_⟩
    rw [List.all_eq_true]
    exact forall₂_congr fun i _ => succeeded_iff honce i

/-- What a check returns is sound. -/
theorem sound_of_check (h : C.check E = .ok o) : Sound C E o := by
  have hunknown : ∀ {out : Observation}, out.state = .UNKNOWN →
      out.all_selected_cases_reported_success = false → out.requirements = [] →
      ∀ reasons, Sound C E { out with reason_codes := reasons } := by
    intro out hstate hall hrequirements reasons
    exact ⟨fun h => absurd hstate h, fun _ => ⟨hall, hrequirements⟩⟩
  unfold TestObservationChecker.check at h
  rcases attempt_cases h with ⟨reasons, rfl⟩ | ⟨count, hcount, h⟩
  · exact hunknown rfl rfl rfl reasons
  rcases attempt_cases h with ⟨reasons, rfl⟩ | ⟨_, hrequest, h⟩
  · exact hunknown rfl rfl rfl reasons
  rcases attempt_cases h with ⟨reasons, rfl⟩ | ⟨report, hreport, h⟩
  · exact hunknown rfl rfl rfl reasons
  rcases attempt_cases h with ⟨reasons, rfl⟩ | ⟨_, hcorrespond, h⟩
  · exact hunknown rfl rfl rfl reasons
  obtain rfl := pure_eq_ok.mp h
  unfold TestObservationChecker.correspond at hcorrespond
  simp only [bind_eq_ok, exists_unit] at hcorrespond
  obtain ⟨p, hp, r, hr, hselected, hstreams, a, ha, exit, hexit, hcases⟩ := hcorrespond
  obtain ⟨hsame, hnonneg⟩ := check_process_eq_ok hexit
  obtain ⟨e, q, hrecorded⟩ := recorded_of_accounting ha hsame hnonneg
  have hagrees := agrees_of_check_cases hcases
  constructor
  · intro _
    exact .intro ⟨⟨count, hcount⟩, needOr_eq_ok.mp hrequest, hreport, hp, hr, hselected, hstreams⟩ hrecorded
      hagrees (concludes_concluded hagrees.once)
  · intro hstate
    change (if _ then _ else _) = State.UNKNOWN at hstate
    split at hstate
    · cases hstate
    · cases hstate

end Soundness

/-- A check returns an observation that is sound, except where its accounting is
reached and is odd. -/
theorem check_is_sound (C : TestObservationChecker) (E : Evidence) :
    (∃ o, C.check E = .ok o ∧ Sound C E o) ↔ ¬ Escapes C E := by
  constructor
  · rintro ⟨o, ho, -⟩ hescapes
    rw [check_of_escapes hescapes] at ho
    cases ho
  · intro hescapes
    cases hcheck : C.check E with
    | ok o => exact ⟨o, rfl, sound_of_check hcheck⟩
    | error e => exact absurd (escapes_of_check hcheck) hescapes

/-! ## A snapshot without a body -/

/-- Both readers take a canonical form for its value. -/
theorem read_bytesOf (parse_float : Text → Except Exn Value) {v : Value} (hc : v.Canonical)
    (hdepth : v.depth ≤ 64) (hsize : (bytesOf v).size ≤ MAX_BYTES) :
    engineer.read parse_float (bytesOf v) = .ok v.normalize := by
  obtain ⟨t, ht, htext⟩ := canon.canonical_bytes_eq_ok.mp (bytesOf_eq hc)
  unfold engineer.read
  rw [need_eq_ok.mpr hsize, ok_bind, ← htext, load.decode_encode ht, lift_ok, ok_bind,
    load.reject_excess_depth_encode ht, if_pos hdepth, lift_ok, ok_bind]
  exact congrArg (Except.mapError refusalOf)
    (load.loads_encode_with (f := fun t => python.lift (parse_float t)) readsInts_start hc ht)

/-- Evidence is read back from its canonical form. -/
theorem evidence_bytesOf {members : List (Str × Value)} (hc : (Value.dict members).Canonical)
    (hdepth : (Value.dict members).depth ≤ 64) (hsize : (bytesOf (.dict members)).size ≤ MAX_BYTES) :
    evidence (bytesOf (.dict members)) = .ok (Value.dict members).normalize := by
  have hread := read_bytesOf finite hc hdepth hsize
  refine bind_eq_ok.mpr ⟨_, hread, ?_⟩
  rw [Value.normalize_dict]
  rfl

/-- The preview of an attempt on nothing. -/
def onePreview : List (Str × Value) :=
  [("adapter_sha256", .str zeros), ("capture_sha256", .str zeros), ("environment", .dict []),
   ("examiner", .dict []), ("labels", .list [.str "l"]), ("schema", .str "engineer.service-observation/1"),
   ("source", .dict []), ("test_runner_sha256", .str (sha .empty)),
   ("test_selection_sha256", .str (sha (bytesOf oneSelection)))]

def previewHash : Str := sha (bytesOf (.dict onePreview))

def oneStart : List (Str × Value) := [("preview", .str previewHash)]

/-- The report of one success. -/
def oneReport : Value := .dict
  [("completed", .bool true), ("events", .list [.dict [("id", .str "c"), ("outcome", .str "success")]]),
   ("preview_sha256", .str previewHash), ("schema", .str "engineer.service-tests/1"),
   ("successful", .bool true), ("tests_run", .int 1)]

def oneResult : List (Str × Value) :=
  [("preview", .str previewHash), ("stderr_sha256", .str (sha .empty)),
   ("stdout_sha256", .str (sha (bytesOf oneReport)))]

/-- A record of the owner whose body is null. -/
def bodiless : Envelope Value := signedBy Value.null

/-- Evidence of an attempt, with this record for a snapshot. -/
def bodilessEvidence : Evidence where
  preview_bytes := bytesOf (.dict onePreview)
  start_bytes := bytesOf (.dict oneStart)
  result_bytes := bytesOf (.dict oneResult)
  stdout_bytes := bytesOf oneReport
  stderr_bytes := .empty
  accounting_snapshot_bytes := bytesOf (value bodiless)
  request_sha256 := zeros

theorem canonical_onePreview : (Value.dict onePreview).Canonical := by
  simp [onePreview, Distinct, encodable_sha, zeros]

theorem canonical_oneStart : (Value.dict oneStart).Canonical := by
  simp [oneStart, previewHash, Distinct, encodable_sha]

theorem canonical_oneReport : oneReport.Canonical := by
  have hone : Value.SafeInteger 1 := by decide
  simp [oneReport, previewHash, Distinct, encodable_sha, hone]

theorem canonical_oneResult : (Value.dict oneResult).Canonical := by
  simp [oneResult, previewHash, Distinct, encodable_sha]

theorem canonical_bodiless : (value bodiless).Canonical := canonical_signedBy .null

/-- Every one of these values takes few bytes. -/
theorem size_small {v : Value} (hv : v.Canonical) (hroom : canon.textRoom v ≤ 12500) :
    (bytesOf v).size ≤ 50000 := by
  have hsize := size_bytesOf hv
  omega

theorem size_onePreview : (bytesOf (.dict onePreview)).size ≤ 50000 := by
  refine size_small canonical_onePreview ?_
  simp only [onePreview, canon.textRoom, canon.textRoomMembers, canon.textRoomItems, length_sha, length_zeros]
  decide

theorem size_oneStart : (bytesOf (.dict oneStart)).size ≤ 50000 := by
  refine size_small canonical_oneStart ?_
  simp only [oneStart, previewHash, canon.textRoom, canon.textRoomMembers, length_sha]
  decide

theorem size_oneReport : (bytesOf oneReport).size ≤ 50000 := by
  refine size_small canonical_oneReport ?_
  simp only [oneReport, previewHash, canon.textRoom, canon.textRoomMembers, canon.textRoomItems, length_sha]
  decide

theorem size_oneResult : (bytesOf (.dict oneResult)).size ≤ 50000 := by
  refine size_small canonical_oneResult ?_
  simp only [oneResult, previewHash, canon.textRoom, canon.textRoomMembers, length_sha]
  decide

theorem size_bodiless : (bytesOf (value bodiless)).size ≤ 50000 := by
  have hissuer : canon.strWidth (lit "o") = 3 := by decide
  have hroom : canon.textRoom (value Value.null) = 4 := rfl
  have hsigned : envelope zeroHost Value.null [1] "o" = .ok bodiless := envelope_signedBy .null
  have hsize := size_signed signs_zeroHost hsigned (lift_eq_ok.mpr (bytesOf_eq canonical_bodiless))
  omega

/-- The inputs of this check are within its limits. -/
theorem bounded_bodiless :
    ∃ count, bounded oneChecker.limits (oneChecker.selected ++ bodilessEvidence.members) = .ok count := by
  have hsize : ∀ a b c d e f g : ByteArray, a.size ≤ 50000 → b.size ≤ 2000 → c.size ≤ 50000 → d.size ≤ 50000 →
      e.size ≤ 50000 → f.size ≤ 50000 → g.size ≤ 50000 → ∃ count, bounded largeLimits
        ([(lit "selection_bytes", a), (lit "requirements_bytes", b), (lit "runner_bytes", .empty)] ++
          Evidence.members ⟨c, d, e, f, .empty, g, zeros⟩) = .ok count := by
    intro a b c d e f g ha hb hc hd he hf hg
    refine ⟨_, seq_eq_ok.mpr ⟨needOr_eq_ok.mpr ?_, seq_eq_ok.mpr ⟨needOr_eq_ok.mpr ?_, rfl⟩⟩⟩
    · simp [Evidence.members, MAX_BYTES]
      omega
    · simp [Evidence.members, largeLimits]
      omega
  exact hsize _ _ _ _ _ _ _ size_oneSelection size_oneRequirement size_onePreview size_oneStart size_oneResult
    size_oneReport size_bodiless

theorem recordOf_bodiless : recordOf (bytesOf (value bodiless)) = .ok (normalized bodiless) := by
  have hdepth : (value bodiless).depth ≤ 64 := by
    simp [value, bodiless, signedBy, signedAs, Envelope.unsigned, Envelope.message, zeroHost, child_ledger.producer,
      Value.depth, Value.depthMembers]
  refine bind_eq_ok.mpr ⟨_, lift_eq_ok.mpr (load_bytesOf canonical_bodiless hdepth), ?_⟩
  exact envelopeOf_normalize canonical_bodiless.distinctKeys

theorem trusted_bodiless : Trusted zeroHost (normalized bodiless) zeroTrust := by
  refine trusted_normalized canonical_bodiless (trusted_envelope (envelope_signedBy .null) rfl ?_ ?_)
  · exact eq_same (canonical_producer .empty).distinctKeys
  · exact fun _ => signs_zeroHost.verifies [1] _

theorem evidence_onePreview : evidence bodilessEvidence.preview_bytes = .ok (.dict onePreview) := by
  have hread := evidence_bytesOf canonical_onePreview (by decide) (size_onePreview.trans (by decide))
  exact hread

theorem evidence_oneStart : evidence bodilessEvidence.start_bytes = .ok (.dict oneStart) := by
  have hread := evidence_bytesOf canonical_oneStart (by decide) (size_oneStart.trans (by decide))
  exact hread

theorem evidence_oneResult : evidence bodilessEvidence.result_bytes = .ok (.dict oneResult) := by
  have hread := evidence_bytesOf canonical_oneResult (by decide) (size_oneResult.trans (by decide))
  exact hread

theorem read_oneReport : read_report largeLimits (bytesOf oneReport) = .ok
    { value := oneReport, preview_sha256 := previewHash, events := [⟨"c", .success⟩], tests_run := 1
      completed := true, successful := true } := by
  have hload := load_bytesOf canonical_oneReport (by decide)
  have hget : ∀ k v, oneReport.get? k = some v → item oneReport k = .ok v := fun _ _ => item_of_get
  refine bind_eq_ok.mpr ⟨oneReport, lift_eq_ok.mpr hload, ?_⟩
  refine bind_eq_ok.mpr ⟨_, exactly_eq_ok.mpr ⟨rfl, rfl⟩, ?_⟩
  refine bind_eq_ok.mpr ⟨_, hget "schema" (.str "engineer.service-tests/1") rfl, ?_⟩
  refine seq_eq_ok.mpr ⟨needOr_eq_ok.mpr (gate.isStr_iff.mpr rfl), ?_⟩
  refine bind_eq_ok.mpr
    ⟨_, hget "events" (.list [.dict [("id", .str "c"), ("outcome", .str "success")]]) rfl, ?_⟩
  refine seq_eq_ok.mpr ⟨needOr_eq_ok.mpr (by decide), ?_⟩
  refine bind_eq_ok.mpr ⟨_, hget "tests_run" (.int 1) rfl, bind_eq_ok.mpr ⟨1, rfl, ?_⟩⟩
  refine bind_eq_ok.mpr ⟨_, hget "completed" (.bool true) rfl, bind_eq_ok.mpr ⟨true, rfl, ?_⟩⟩
  refine bind_eq_ok.mpr ⟨_, hget "successful" (.bool true) rfl, bind_eq_ok.mpr ⟨true, rfl, ?_⟩⟩
  refine bind_eq_ok.mpr ⟨_, hget "preview_sha256" (.str previewHash) rfl, ?_⟩
  refine bind_eq_ok.mpr ⟨_, hex64Or_str (hex64_sha _), bind_eq_ok.mpr ⟨[⟨"c", .success⟩], ?_, rfl⟩⟩
  exact mapM_eq_ok.mpr (.cons rfl .nil)

theorem check_selected_empty {p : Value} {field message : Str} (h : get p field = .dict []) :
    check_selected p field (sha emptyMapping) message = .ok () := by
  have hempty : (Value.dict []).Canonical := by simp [Distinct]
  have hdigest : digest (.dict []) = .ok (sha emptyMapping) :=
    bind_eq_ok.mpr ⟨_, lift_eq_ok.mpr (bytesOf_eq hempty), rfl⟩
  unfold check_selected
  rw [h]
  refine seq_eq_ok.mpr ⟨needOr_eq_ok.mpr List.nodup_nil, seq_eq_ok.mpr ⟨rfl, ?_⟩⟩
  rw [hdigest]
  exact needOr_eq_ok.mpr rfl

theorem check_onePreview : oneChecker.check_preview (.dict onePreview) = .ok () := by
  have hself : ∀ s, isStr (.str s) s = true := fun s => gate.isStr_iff.mpr rfl
  refine seq_eq_ok.mpr ⟨needOr_eq_ok.mpr ⟨hself _, hself _, hself _⟩, ?_⟩
  refine seq_eq_ok.mpr ⟨check_selected_empty rfl, seq_eq_ok.mpr ⟨check_selected_empty rfl, ?_⟩⟩
  refine seq_eq_ok.mpr ⟨check_selected_empty rfl, seq_eq_ok.mpr ⟨needOr_eq_ok.mpr ⟨hself _, hself _⟩, ?_⟩⟩
  refine seq_eq_ok.mpr ⟨needOr_eq_ok.mpr ⟨hself _, hself _⟩, needOr_eq_ok.mpr ?_⟩
  decide +kernel

theorem check_oneStreams {report : Report} (h : report.preview_sha256 = previewHash) :
    TestObservationChecker.check_streams bodilessEvidence report (.dict oneResult) = .ok () := by
  have hself : ∀ s, isStr (.str s) s = true := fun s => gate.isStr_iff.mpr rfl
  refine bind_eq_ok.mpr ⟨_, evidence_oneStart, ?_⟩
  refine seq_eq_ok.mpr ⟨needOr_eq_ok.mpr ⟨?_, h, hself _⟩, needOr_eq_ok.mpr ⟨hself _, hself _⟩⟩
  exact eq_same canonical_oneStart.distinctKeys

/-- A signed snapshot whose body is null makes a check raise. -/
theorem check_raises_without_body :
    oneChecker.check bodilessEvidence = .error (.raised .attribute_error) ∧
      ¬ ∃ o, oneChecker.check bodilessEvidence = .ok o := by
  have hraise : oneChecker.check bodilessEvidence = .error ODD := by
    refine check_of_escapes ⟨⟨_, _, _, bounded_bodiless, hex64_zeros, read_oneReport, evidence_onePreview,
      evidence_oneResult, check_onePreview, check_oneStreams rfl⟩, .record ?_⟩
    exact ⟨_, recordOf_bodiless, trusted_bodiless, rfl⟩
  refine ⟨hraise, ?_⟩
  rintro ⟨o, ho⟩
  rw [hraise] at ho
  cases ho

end vfy.service_tests
