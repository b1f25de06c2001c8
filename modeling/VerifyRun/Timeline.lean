-- The timeline of a receipt: where the instants that it records, and those of
-- the snapshot and the authorization, are in order, nothing is reported.
import VerifyRun.ReceiptLaws

namespace vfy.receipt

open python keys outcomes schema authorization

/-- The first text is of no later instant than the second. -/
def NotAfter (a b : Str) : Prop :=
  ∃ t s, rulebook.instant (.str a) = .ok t ∧ rulebook.instant (.str b) = .ok s ∧ t ≤ s

theorem NotAfter.refl {a : Str} (h : is_date_time a = true) : NotAfter a a := by
  obtain ⟨t, ht⟩ := rulebook.instant_of_date_time h
  exact ⟨t, t, ht, ht, le_rfl⟩

/-- A receipt whose recorded instants are in a possible order. -/
def Consistent (R : FrozenReceipt) (S : snapshot.FrozenSnapshot)
    (authorization : Option FrozenAuthorization) : Prop :=
  ∃ D V supplied, R.value = .ok D ∧ S.value = .ok V ∧
    authorization.mapM FrozenAuthorization.value = .ok supplied ∧
    timeline_anomalies D (some V) supplied = .ok []

/-! ## What is not reported -/

theorem present_str {value : Option Value} {s : Str} :
    present value = some (.str s) ↔ value = some (.str s) := by
  unfold present
  split <;> simp

/-- An order that is possible is not reported. -/
theorem precedes_none {later earlier : Recorded}
    (h : ∀ a b, later.value = some (.str a) → earlier.value = some (.str b) → NotAfter b a) :
    precedes later earlier = none := by
  unfold precedes
  split
  · rename_i after before hafter hbefore
    obtain ⟨t, s, ht, hs, hle⟩ := h after before (present_str.mp hafter) (present_str.mp hbefore)
    rw [hs, ht]
    simp [not_lt.mpr hle]
  · rfl

theorem getMethod_present {v w : Value} {k : Str} (h : v.get? k = some w) :
    getMethod (orEmpty (some v)) k = .ok (some w) := by
  cases v with
  | dict members =>
    cases members with
    | nil => cases h
    | cons m members => exact congrArg Except.ok h
  | _ => cases h

/-- Nothing is reported of a receipt that was created no earlier than the freeze
and the issue, and acknowledged as it was created. -/
theorem timeline_empty {D : Value} (hD : IsReceipt D) {created_at : Str}
    (hcreated : D.get? "created_at" = some (.str created_at))
    (hdate : is_date_time created_at = true) {snapshot supplied : Option Value}
    {acknowledged frozen issued : Option Value}
    (hacknowledged : getMethod (orEmpty (D.get? "execution")) "acknowledged_at" = .ok acknowledged)
    (hfrozen : getMethod (orEmpty snapshot) "frozen_at" = .ok frozen)
    (hissued : getMethod (orEmpty supplied) "issued_at" = .ok issued)
    (hsame : ∀ v ∈ acknowledged, v = .str created_at)
    (hfreeze : ∀ s, frozen = some (.str s) → NotAfter s created_at)
    (hissue : ∀ s, issued = some (.str s) → NotAfter s created_at) :
    timeline_anomalies D snapshot supplied = .ok [] := by
  have hat : ∀ {s : Str}, acknowledged = some (.str s) → s = created_at := by
    intro s hs
    have h := hsame (.str s) hs
    simpa using h
  unfold timeline_anomalies
  rw [getMethod_isReceipt hD, ok_bind, getMethod_isReceipt hD, ok_bind, hacknowledged, ok_bind,
    hfrozen, ok_bind, hissued, ok_bind, hcreated]
  have hreport : ([(⟨"created_at", some (.str created_at)⟩,
      ⟨"the authorization's issued_at", issued⟩),
      (⟨"created_at", some (.str created_at)⟩, ⟨"the evidence snapshot's frozen_at", frozen⟩),
      (⟨"execution.acknowledged_at", acknowledged⟩, ⟨"the authorization's issued_at", issued⟩),
      (⟨"execution.acknowledged_at", acknowledged⟩, ⟨"the evidence snapshot's frozen_at", frozen⟩),
      (⟨"execution.acknowledged_at", acknowledged⟩, ⟨"created_at", some (.str created_at)⟩)] :
      List (Recorded × Recorded)).filterMap (fun pair => precedes pair.1 pair.2) = [] := by
    refine List.filterMap_eq_nil_iff.mpr fun pair hpair => precedes_none fun a b ha hb => ?_
    simp only [List.mem_cons, List.not_mem_nil, or_false] at hpair
    rcases hpair with rfl | rfl | rfl | rfl | rfl
    · obtain rfl : created_at = a := by simpa using ha
      exact hissue b hb
    · obtain rfl : created_at = a := by simpa using ha
      exact hfreeze b hb
    · obtain rfl := hat ha
      exact hissue b hb
    · obtain rfl := hat ha
      exact hfreeze b hb
    · obtain rfl := hat ha
      obtain rfl : a = b := by simpa using hb
      exact .refl hdate
  exact congrArg Except.ok hreport

/-! ## What was issued -/

section Issue

variable {host : Host} {P : rulebook.LoadedRulebook} {candidate : Value}
  {S : snapshot.FrozenSnapshot} {result : gate.EvaluationResult}
  {authorization : Option FrozenAuthorization} {execution : Option Value}
  {receipt_id created_at key_id : Str} {key_version : Int} {private_key : List UInt8}
  {R : FrozenReceipt}

/-- A receipt that was issued at an instant no earlier than the freeze and the
issue of its authorization, over an execution that was acknowledged at the
same instant. -/
theorem consistent_of_issue (h : issue_receipt host P candidate S result authorization execution
      receipt_id created_at key_id key_version private_key REGISTRY = .ok R)
    {d V : Value} {supplied : Option Value} (hd : gate.Records result d)
    (hexecution : ∀ e ∈ execution, e.DistinctKeys ∧
      e.get? "acknowledged_at" = some (.str created_at))
    (hdate : is_date_time created_at = true) (hV : S.value = .ok V) {frozen_at : Str}
    (hfrozen : V.get? "frozen_at" = some (.str frozen_at)) (hfreeze : NotAfter frozen_at created_at)
    (hsupplied : authorization.mapM FrozenAuthorization.value = .ok supplied)
    (hissued : ∀ av ∈ supplied, ∃ issued_at, av.get? "issued_at" = some (.str issued_at) ∧
      NotAfter issued_at created_at) : Consistent R S authorization := by
  obtain ⟨W, rulebook_id, version, candidate_digest, completed, hI⟩ := issue_receipt_ok h
  have hdistinct := hI.distinct hd fun e he => (hexecution e he).1
  have hvalid : IsReceipt completed.normalize := by
    rw [← validate_receipt_iff, validate_normalize hdistinct]
    exact hI.valid
  obtain ⟨_, signature, -, -, hcompleted⟩ := sign_payload_eq_ok.mp hI.signed
  have hread : R.value = .ok completed.normalize := by
    have hcan := canon.canonical_of_encode hdistinct
      (canon.canonicalize_eq_encode completed ▸ hI.sealed)
    have hbytes : canon.canonical_bytes completed = .ok R.canonical_bytes := by
      rw [canon.canonical_bytes, hI.sealed]
      rfl
    rw [FrozenReceipt.value, load.load_canonical_bytes hcan hbytes,
      if_pos ((depth_isReceipt ((validate_receipt_iff completed).mp hI.valid)).trans (by omega))]
  have hcreated : completed.normalize.get? "created_at" = some (.str created_at) := by
    rw [Value.get?_normalize hdistinct, hcompleted, Value.get?_dict, recordedMembers]
    simp
  have hexecuted : completed.normalize.get? "execution" = execution.map Value.normalize := by
    rw [Value.get?_normalize hdistinct, hcompleted, Value.get?_dict, recordedMembers]
    cases execution <;> cases authorization <;> simp
  have hacknowledged : ∃ acknowledged, getMethod (orEmpty (completed.normalize.get? "execution"))
      "acknowledged_at" = .ok acknowledged ∧ ∀ v ∈ acknowledged, v = .str created_at := by
    rw [hexecuted]
    cases execution with
    | none => exact ⟨none, rfl, by simp⟩
    | some e =>
      obtain ⟨he, hat⟩ := hexecution e rfl
      refine ⟨some (.str created_at), getMethod_present ?_, by simp⟩
      rw [Value.get?_normalize he, hat]
      simp
  have hissue : ∃ issued, getMethod (orEmpty supplied) "issued_at" = .ok issued ∧
      ∀ s, issued = some (.str s) → NotAfter s created_at := by
    cases supplied with
    | none => exact ⟨none, rfl, by simp⟩
    | some av =>
      obtain ⟨issued_at, hat, hle⟩ := hissued av rfl
      refine ⟨some (.str issued_at), getMethod_present hat, ?_⟩
      intro s hs
      obtain rfl : issued_at = s := by simpa using hs
      exact hle
  obtain ⟨acknowledged, hack, hsame⟩ := hacknowledged
  obtain ⟨issued, hissued, hissue⟩ := hissue
  refine ⟨_, V, supplied, hread, hV, hsupplied, timeline_empty hvalid hcreated hdate hack
    (getMethod_present hfrozen) hissued hsame ?_ hissue⟩
  intro s hs
  obtain rfl : frozen_at = s := by simpa using hs
  exact hfreeze

end Issue

end vfy.receipt
