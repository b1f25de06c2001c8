-- Retained evidence reads back: what the directory holds is checked again by the
-- same checker, with the same result, whatever the first check concluded.
import VerifyRun.Retention
import VerifyRun.Worlds

namespace vfy.service_tests

open python keys outcomes child_ledger common_capacity managed_capacity service_attempt directories
open service_test_successor (attempt_eq_ok distinct_requirements distinctKeys_observation
  read_report_value INPUTS get?_request)

/-! ## The depth of a report -/

theorem stringOr_eq_ok {v : Value} {message s : Str} : stringOr v message = .ok s ↔ v = .str s := by
  cases v <;> simp [stringOr]

theorem exactly_eq_ok {v : Value} {keys : List Str} {message : Str} {members : List (Str × Value)} :
    exactly v keys message = .ok members ↔ v = .dict members ∧ sameKeys members keys = true := by
  cases v with
  | dict ms =>
    simp only [exactly, bind_eq_ok, exists_unit, needOr_eq_ok, pure_eq_ok, Value.dict.injEq]
    constructor
    · rintro ⟨h, rfl⟩
      exact ⟨rfl, h⟩
    · rintro ⟨rfl, h⟩
      exact ⟨h, rfl⟩
  | _ => simp [exactly]

/-- A mapping is one deeper than the members that it may have. -/
theorem depth_of_exactly {v : Value} {keys : List Str} {message : Str} {members : List (Str × Value)}
    {n : Nat} (hd : v.DistinctKeys) (h : exactly v keys message = .ok members)
    (hkeys : ∀ k ∈ keys, ∀ w, v.get? k = some w → w.depth ≤ n) : v.depth ≤ n + 1 := by
  obtain ⟨rfl, hsame⟩ := exactly_eq_ok.mp h
  rw [Value.depth]
  refine Nat.succ_le_succ (Value.depthMembers_le.mpr fun m hm => ?_)
  have hkey : m.1 ∈ keys := by
    unfold sameKeys at hsame
    simp only [Bool.and_eq_true, List.all_eq_true, decide_eq_true_eq] at hsame
    exact hsame.1 m hm
  apply hkeys m.1 hkey
  rw [Value.get?_dict]
  exact (lookup_eq_some_iff (Value.distinctKeys_dict.mp hd).1 m.1 m.2).mpr hm

theorem depth_event {v : Value} {e : Event} (hd : v.DistinctKeys) (h : eventOf v = .ok e) :
    v.depth ≤ 1 := by
  unfold eventOf at h
  simp only [bind_eq_ok, item_eq_ok, stringOr_eq_ok] at h
  obtain ⟨members, hkeys, _, hid, id, rfl, _, -, _, houtcome, outcome, rfl, -⟩ := h
  apply depth_of_exactly hd hkeys
  intro k hk w hw
  simp only [List.mem_cons, List.not_mem_nil, or_false] at hk
  rcases hk with rfl | rfl
  · rw [hid] at hw
    cases hw
    exact le_rfl
  · rw [houtcome] at hw
    cases hw
    exact le_rfl

theorem depth_integerOr {v : Value} {message : Str} {n : Nat} (h : integerOr v message = .ok n) :
    v.depth = 0 := by
  cases v <;> first | rfl | cases h

theorem depth_boolOr {v : Value} {message : Str} {b : Bool} (h : boolOr v message = .ok b) :
    v.depth = 0 := by
  cases v <;> first | rfl | cases h

theorem depth_hex64Or {v : Value} {message s : Str} (h : hex64Or v message = .ok s) :
    v.depth = 0 := by
  obtain ⟨t, ht, -⟩ := bind_eq_ok.mp h
  rw [stringOr_eq_ok.mp ht]
  rfl

/-- A report is a mapping with a list of mappings in it, and no deeper. -/
theorem depth_report {limits : Limits} {data : ByteArray} {report : Report}
    (h : read_report limits data = .ok report) : report.value.depth ≤ 3 := by
  have hd := (load.canonical_of_load (read_report_value h)).distinctKeys
  have hvalue := read_report_value h
  unfold read_report at h
  simp only [bind_eq_ok, item_eq_ok, lift_eq_ok] at h
  obtain ⟨v, hv, members, hkeys, w, hschema, _, hstr, events, hevents, h⟩ := h
  obtain rfl := Except.ok.inj (hv.symm.trans hvalue)
  cases events with
  | list items =>
    simp only [bind_eq_ok, item_eq_ok, pure_eq_ok] at h
    obtain ⟨_, -, w₁, htests, _, hn, w₂, hcompleted, _, hc, w₃, hsuccessful, _, hs, w₄, hpreview, _,
      hp, es, hes, -⟩ := h
    apply depth_of_exactly hd hkeys
    intro k hk u hu
    simp only [List.mem_cons, List.not_mem_nil, or_false] at hk
    rcases hk with rfl | rfl | rfl | rfl | rfl | rfl
    · obtain rfl := Option.some.inj (hschema.symm.trans hu)
      rw [gate.isStr_iff.mp (needOr_eq_ok.mp hstr)]
      exact Nat.zero_le _
    · obtain rfl := Option.some.inj (hpreview.symm.trans hu)
      rw [depth_hex64Or hp]
      exact Nat.zero_le _
    · obtain rfl := Option.some.inj (hevents.symm.trans hu)
      have hitems := hd.get? hevents
      rw [Value.depth]
      refine Nat.succ_le_succ (Value.depthItems_le.mpr fun v hv => ?_)
      obtain ⟨e, he⟩ := mapM_ok_mem hes hv
      exact depth_event (Value.distinctKeys_list.mp hitems v hv) he
    · obtain rfl := Option.some.inj (htests.symm.trans hu)
      rw [depth_integerOr hn]
      exact Nat.zero_le _
    · obtain rfl := Option.some.inj (hcompleted.symm.trans hu)
      rw [depth_boolOr hc]
      exact Nat.zero_le _
    · obtain rfl := Option.some.inj (hsuccessful.symm.trans hu)
      rw [depth_boolOr hs]
      exact Nat.zero_le _
  | _ => cases h

/-! ## What a check returns -/

theorem failed_eq_ok {out o : Observation} {e : Refusal} (h : out.failed e = .ok o) :
    ∃ reasons, o = { out with reason_codes := reasons } := by
  unfold Observation.failed at h
  split at h
  · exact ⟨_, (pure_eq_ok.mp h).symm⟩
  · split at h
    · exact ⟨_, (pure_eq_ok.mp h).symm⟩
    · cases h

/-- A stage ends the check with a reason, or the check goes on. -/
theorem attempt_cases {α : Type} {out o : Observation} {x : Checked α}
    {next : α → Checked Observation} (h : attempt out x next = .ok o) :
    (∃ reasons, o = { out with reason_codes := reasons }) ∨ ∃ a, x = .ok a ∧ next a = .ok o := by
  unfold attempt at h
  cases x with
  | ok a => exact .inr ⟨a, rfl, h⟩
  | error e => exact .inl (failed_eq_ok h)

/-- An observation that a check returned can be written and read. -/
structure Plain (o : Observation) : Prop where
  report : (o.report.getD .null).DistinctKeys
  depth : (o.report.getD .null).depth ≤ 3
  refs : Distinct o.refs
  requirements : Distinct o.requirements

theorem Plain.distinctKeys {o : Observation} (h : Plain o) : o.value.DistinctKeys :=
  distinctKeys_observation h.report h.refs h.requirements

theorem Plain.depth_le {o : Observation} (h : Plain o) : o.value.depth ≤ 64 := by
  have hrefs : (Value.dict (o.refs.map fun r => (r.1, .str r.2))).depth ≤ 1 := by
    rw [Value.depth]
    refine Nat.succ_le_succ (Value.depthMembers_le.mpr fun m hm => ?_)
    obtain ⟨r, -, rfl⟩ := List.mem_map.mp hm
    exact le_rfl
  have hrequirements : (Value.dict (o.requirements.map fun r => (r.1, requirementValue r.2))).depth ≤ 3 := by
    rw [Value.depth]
    refine Nat.succ_le_succ (Value.depthMembers_le.mpr fun m hm => ?_)
    obtain ⟨r, -, rfl⟩ := List.mem_map.mp hm
    have hids : Value.depthItems (r.2.1.map .str) ≤ 0 := by
      refine Value.depthItems_le.mpr fun v hv => ?_
      obtain ⟨s, -, rfl⟩ := List.mem_map.mp hv
      exact le_rfl
    simp [requirementValue, Value.depth, Value.depthMembers]
    omega
  have hreasons : (Value.list (o.reason_codes.map .str)).depth ≤ 1 := by
    rw [Value.depth]
    refine Nat.succ_le_succ (Value.depthItems_le.mpr fun v hv => ?_)
    obtain ⟨s, -, rfl⟩ := List.mem_map.mp hv
    exact le_rfl
  have hnull : ∀ n, (intOrNull n).depth = 0 := by
    intro n
    cases n <;> rfl
  have hcosts : o.costs.depth ≤ 1 := by
    simp [Observation.costs, Value.depth, Value.depthMembers, hnull]
  have hlimits : o.selected_limits.value.depth ≤ 1 := by
    simp [Limits.value, Limits.members, Value.depth, Value.depthMembers]
  have hidentity : (identity o.source).depth ≤ 1 := by
    simp [identity, Value.depth, Value.depthMembers]
  have hreport := h.depth
  have hsaid : ∀ m ∈ o.said, m.2.depth ≤ 3 := by
    simp only [Observation.said, List.forall_mem_cons, Value.depth]
    simp only [Value.depth] at hrefs hrequirements hreasons
    simp
    omega
  have hflat : ∀ m ∈ SCOPE ++ FLAGS ++ (o.request_sha256.map fun s =>
      (lit "request_sha256", Value.str s)).toList, m.2.depth ≤ 3 := by
    cases o.request_sha256 <;> simp [SCOPE, FLAGS, Value.depth]
  rw [Observation.value, Value.depth]
  refine Nat.succ_le_succ ((Value.depthMembers_le (d := 3)).mpr fun m hm => ?_) |>.trans (by decide)
  rw [List.append_assoc, List.append_assoc, ← List.append_assoc SCOPE] at hm
  rcases List.mem_append.mp hm with hm | hm
  · exact hsaid m hm
  · exact hflat m hm

section

variable {C : TestObservationChecker} {E : Evidence} {o : Observation}

/-- Whatever a check concludes, it can be written and read. -/
theorem plain_of_check (h : C.check E = .ok o) : Plain o := by
  have hrefs : Distinct ((C.selected ++ E.members).map fun i => (i.1, sha i.2)) := by
    show INPUTS.Nodup
    decide
  unfold TestObservationChecker.check at h
  rcases attempt_cases h with ⟨_, rfl⟩ | ⟨count, -, h⟩
  · exact ⟨.null, Nat.zero_le _, List.nodup_nil, List.nodup_nil⟩
  rcases attempt_cases h with ⟨_, rfl⟩ | ⟨_, -, h⟩
  · exact ⟨.null, Nat.zero_le _, hrefs, List.nodup_nil⟩
  rcases attempt_cases h with ⟨_, rfl⟩ | ⟨report, hreport, h⟩
  · exact ⟨.null, Nat.zero_le _, hrefs, List.nodup_nil⟩
  have hdistinct := (load.canonical_of_load (read_report_value hreport)).distinctKeys
  have hdepth := depth_report hreport
  rcases attempt_cases h with ⟨_, rfl⟩ | ⟨_, -, h⟩
  · exact ⟨hdistinct, hdepth, hrefs, List.nodup_nil⟩
  · obtain rfl := pure_eq_ok.mp h
    refine ⟨hdistinct, hdepth, hrefs, ?_⟩
    show Distinct (C.selection.requirement_cases.map fun c => (c.1, (c.2, c.2.all fun id =>
      (report.events.find? fun e => e.id = id).any fun e => e.outcome = .success)))
    unfold Distinct
    rw [List.map_map]
    exact distinct_requirements C

/-- What is checked when a hash is no digest depends only on the bytes. -/
theorem check_malformed {count : Nat} (hcount : bounded C.limits (C.selected ++ E.members) = .ok count)
    (h : ¬ hex64 E.request_sha256) : C.check E =
      .ok { C.base with input_bytes := some count
                        refs := (C.selected ++ E.members).map fun i => (i.1, sha i.2)
                        reason_codes := [lit "INVALID_REQUEST_HASH"] } := by
  have hneed : needOr (hex64 E.request_sha256) "INVALID_REQUEST_HASH" =
      .error (.refused "INVALID_REQUEST_HASH") := raiseIf_pos h _
  unfold TestObservationChecker.check
  dsimp only
  rw [hcount, hneed]
  rfl

/-- The request is what an observation says, or it is no digest. -/
theorem check_request {count : Nat}
    (hcount : bounded C.limits (C.selected ++ E.members) = .ok count) (h : C.check E = .ok o) :
    o.input_bytes = some count ∧
      (o.request_sha256 = some E.request_sha256 ∨ (o.request_sha256 = none ∧ ¬ hex64 E.request_sha256)) := by
  by_cases hhex : hex64 E.request_sha256
  · unfold TestObservationChecker.check at h
    dsimp only at h
    rw [hcount, needOr_eq_ok.mpr hhex] at h
    replace h : attempt { C.base with
        input_bytes := some count
        refs := (C.selected ++ E.members).map fun i => (i.1, sha i.2)
        request_sha256 := some E.request_sha256 } (read_report C.limits E.stdout_bytes) _ = .ok o := h
    rcases attempt_cases h with ⟨_, rfl⟩ | ⟨report, hreport, h⟩
    · exact ⟨rfl, .inl rfl⟩
    rcases attempt_cases h with ⟨_, rfl⟩ | ⟨_, -, h⟩
    · exact ⟨rfl, .inl rfl⟩
    · obtain rfl := pure_eq_ok.mp h
      exact ⟨rfl, .inl rfl⟩
  · rw [check_malformed hcount hhex] at h
    obtain rfl := Except.ok.inj h
    exact ⟨rfl, .inr ⟨rfl, hhex⟩⟩

end

/-! ## The directory -/

namespace Disk

variable {D D' : Disk} {p dest : List Str}

theorem fresh_eq_ok {data : ByteArray} (h : D.fresh p data = .ok D') :
    D.tree p = none ∧ D.is_link p = false ∧ D'.is_link = D.is_link ∧
      D'.tree = Function.update D.tree p (some (.file data)) := by
  unfold fresh at h
  split at h
  · rename_i tree hfresh hlink
    obtain rfl := pure_eq_ok.mp h
    unfold directories.fresh at hfresh
    split at hfresh
    · rename_i hnone
      simp only [Bool.and_eq_true, Option.isNone_iff_eq_none] at hnone
      exact ⟨hnone.1, hlink, rfl, (Option.some.inj hfresh).symm⟩
    · cases hfresh
  · cases h

/-- Files in a directory, all of which were written there. -/
structure Holds (D : Disk) (dest : List Str) (files : List (Str × ByteArray)) : Prop where
  file : ∀ f ∈ files, D.tree (dest ++ [f.1]) = some (.file f.2)
  not_link : ∀ f ∈ files, D.is_link (dest ++ [f.1]) = false

theorem Holds.nil : Holds D dest [] := ⟨by simp, by simp⟩

theorem Holds.fresh {files : List (Str × ByteArray)} {f : Str × ByteArray} (hD : Holds D dest files)
    (h : D.fresh (dest ++ [f.1]) f.2 = .ok D') : Holds D' dest (files ++ [f]) := by
  obtain ⟨hnone, hlink, hlinks, htree⟩ := fresh_eq_ok h
  constructor
  · intro g hg
    rw [htree]
    rcases List.mem_append.mp hg with hg | hg
    · have hne : dest ++ [g.1] ≠ dest ++ [f.1] := by
        intro heq
        have hfile := hD.file g hg
        rw [heq, hnone] at hfile
        cases hfile
      rw [Function.update_of_ne hne]
      exact hD.file g hg
    · rw [List.mem_singleton.mp hg]
      exact Function.update_self _ _ _
  · intro g hg
    rw [hlinks]
    rcases List.mem_append.mp hg with hg | hg
    · exact hD.not_link g hg
    · rw [List.mem_singleton.mp hg]
      exact hlink

theorem Holds.foldlM {files more : List (Str × ByteArray)} (hD : Holds D dest files)
    (h : more.foldlM (fun D f => D.fresh (dest ++ [f.1]) f.2) D = .ok D') :
    Holds D' dest (files ++ more) ∧ D'.is_link = D.is_link := by
  induction more generalizing D files with
  | nil =>
    obtain rfl := pure_eq_ok.mp h
    rw [List.append_nil]
    exact ⟨hD, rfl⟩
  | cons f more ih =>
    rw [List.foldlM_cons] at h
    obtain ⟨D₁, hfresh, h⟩ := bind_eq_ok.mp h
    obtain ⟨hholds, hlinks⟩ := ih (hD.fresh hfresh) h
    rw [List.append_assoc] at hholds
    exact ⟨hholds, hlinks.trans (fresh_eq_ok hfresh).2.2.1⟩

/-- Nothing changes at a directory: not in it, and not on the way to it. -/
def Kept (D D' : Disk) (dest : List Str) : Prop :=
  ∀ q, q <+: dest ∨ dest <+: q → D'.tree q = D.tree q ∧ D'.is_link q = D.is_link q

theorem Kept.resolved (h : Kept D D' dest) (hresolved : D.Resolved dest) : D'.Resolved dest := by
  refine ⟨hresolved.1, fun q hq => ?_⟩
  rw [(h q (.inl ((List.mem_inits q dest).mp hq))).2]
  exact hresolved.2 q hq

/-- A file that was written is read. -/
theorem Holds.read_file {files : List (Str × ByteArray)} (hD : Holds D dest files)
    (hkept : Kept D D' dest) (hresolved : D.Resolved dest) {f : Str × ByteArray} (hf : f ∈ files)
    (hname : f.1 ≠ lit "..") (hsize : f.2.size ≤ MAX_BYTES) :
    D'.read_file (dest ++ [f.1]) = .ok f.2 := by
  have hbelow := hkept (dest ++ [f.1]) (.inr (List.prefix_append _ _))
  have hpath : D'.Resolved (dest ++ [f.1]) := by
    refine ⟨?_, fun q hq => ?_⟩
    · rw [List.mem_append, List.mem_singleton, not_or]
      exact ⟨hresolved.1, Ne.symm hname⟩
    · rcases List.prefix_concat_iff.mp ((List.mem_inits _ _).mp hq) with rfl | hq
      · rw [hbelow.2]
        exact hD.not_link f hf
      · exact (hkept.resolved hresolved).2 q ((List.mem_inits _ _).mpr hq)
  unfold Disk.read_file
  rw [need_eq_ok.mpr hpath, ok_bind, hbelow.1, hD.file f hf]
  dsimp only
  rw [need_eq_ok.mpr hsize]
  rfl

end Disk

/-! ## A record that was written and read -/

theorem item_normalize {v w : Value} {k : Str} (hd : v.DistinctKeys) (h : v.get? k = some w) :
    item v.normalize k = .ok w.normalize := by
  rw [item_eq_ok, Value.get?_normalize hd, h]
  rfl

theorem sameKeys_normalize {members : List (Str × Value)} {keys : List Str}
    (hkeys : members.map Prod.fst = keys) {sorted : List (Str × Value)}
    (h : (Value.dict members).normalize = .dict sorted) : sameKeys sorted keys = true := by
  rw [Value.normalize_dict] at h
  obtain rfl := Value.dict.inj h
  have hmem : ∀ k, (∃ m ∈ sortByKey (members.map fun m => (m.1, m.2.normalize)), m.1 = k) ↔ k ∈ keys := by
    intro k
    rw [← hkeys, List.mem_map]
    simp
  unfold sameKeys
  simp only [Bool.and_eq_true, List.all_eq_true, decide_eq_true_eq]
  refine ⟨fun m hm => (hmem m.1).mp ⟨m, hm, rfl⟩, fun k hk => ?_⟩
  rw [Option.isSome_iff_ne_none, Ne, lookup_eq_none_iff]
  intro hnone
  obtain ⟨m, hm, rfl⟩ := (hmem k).mpr hk
  exact hnone (List.mem_map_of_mem hm)

theorem getMethod_normalize {v : Value} {k : Str} {o : Option Value} (hd : v.DistinctKeys)
    (h : getMethod v k = .ok o) : getMethod v.normalize k = .ok (o.map Value.normalize) := by
  cases v with
  | dict members =>
    have hget := Value.get?_normalize hd k
    have hlookup := Except.ok.inj h
    rw [Value.normalize_dict] at hget ⊢
    rw [Value.get?_dict, Value.get?_dict, hlookup] at hget
    exact congrArg Except.ok hget
  | _ => cases h

theorem eq_normalize_right (v : Value) {w : Value} (hw : w.DistinctKeys) :
    python.eq v w.normalize = python.eq v w :=
  eqBy_normalize_right eqScalar_normalize_right v hw

/-- The order of members makes no difference to what is written. -/
theorem raw_congr {v w : Value} (hv : v.DistinctKeys) (hw : w.DistinctKeys)
    (h : v.normalize = w.normalize) : raw v = raw w := by
  unfold raw canon.canonical_bytes
  rw [canon.canonicalize_eq_encode, canon.canonicalize_eq_encode,
    canon.encode_eq_of_normalize_eq hv hw h]

theorem normalize_normalize {v : Value} (h : v.DistinctKeys) : v.normalize.normalize = v.normalize :=
  (Value.Same.normalize_eq h (Value.same_normalize v)).symm

section Records

variable {record : Envelope Value} {host : Host} {trust : Trust}

/-- The record as it is read: every mapping in key order. -/
def normalized (record : Envelope Value) : Envelope Value :=
  { record with producer_identity := record.producer_identity.normalize
                body := record.body.normalize }

theorem envelopeOf_normalize (hd : (value record).DistinctKeys) :
    envelopeOf (value record).normalize = .ok (normalized record) := by
  have hget : ∀ k w, (value record).get? k = some w → item (value record).normalize k = .ok w.normalize :=
    fun k w h => item_normalize hd h
  have hkeys : needKeys (value record).normalize ["issuer_identity", "producer_identity", "body",
      "signature", "sha256"] = .ok _ :=
    needKeys_eq_ok.mpr ⟨Value.normalize_dict _, sameKeys_normalize rfl (Value.normalize_dict _)⟩
  unfold envelopeOf
  rw [hkeys, ok_bind, hget "issuer_identity" (.str record.issuer_identity) rfl, ok_bind,
    hget "producer_identity" record.producer_identity rfl, hget "body" record.body rfl,
    hget "signature" (.str record.signature) rfl, hget "sha256" (.str record.sha256) rfl]
  rfl

/-- A record that is trusted is trusted as it is read. -/
theorem trusted_normalized (hc : (value record).Canonical) (h : Trusted host record trust) :
    Trusted host (normalized record) trust := by
  have hparts : record.producer_identity.Canonical ∧ record.body.Canonical := by
    simp [value, Envelope.unsigned, Envelope.message] at hc
    exact ⟨hc.2.2.1, hc.2.2.2.1⟩
  obtain ⟨hproducer, hbody⟩ := hparts
  have hp := normalize_normalize hproducer.distinctKeys
  have hb := normalize_normalize hbody.distinctKeys
  have hunsigned : raw (.dict (normalized record).unsigned) = raw (.dict record.unsigned) := by
    apply raw_congr
    · simp [normalized, Envelope.unsigned, Envelope.message, Distinct, value,
        hproducer.normalize.distinctKeys, hbody.normalize.distinctKeys]
    · simp [Envelope.unsigned, Envelope.message, Distinct, value, hproducer.distinctKeys,
        hbody.distinctKeys]
    · simp [normalized, Envelope.unsigned, Envelope.message, value, hp, hb]
  have hmessage : raw (.dict (normalized record).message) = raw (.dict record.message) := by
    apply raw_congr
    · simp [normalized, Envelope.message, Distinct, value, hproducer.normalize.distinctKeys,
        hbody.normalize.distinctKeys]
    · simp [Envelope.message, Distinct, value, hproducer.distinctKeys, hbody.distinctKeys]
    · simp [normalized, Envelope.message, value, hp, hb]
  obtain ⟨hdigest, entry, bytes, hentry, hsame, hbytes, hverify⟩ := h
  refine ⟨?_, entry, bytes, hentry, (eq_normalize_right _ hproducer.distinctKeys).trans hsame, ?_, hverify⟩
  · unfold digest
    rw [hunsigned]
    exact hdigest
  · unfold signedBytes
    rw [hmessage]
    exact hbytes

/-- A record that is accepted is accepted as it is read. -/
theorem authenticate_normalized {b : Value} (hc : (value record).Canonical)
    (h : authenticate host record trust = .ok b) :
    authenticate host (normalized record) trust = .ok b.normalize := by
  have htrusted := trusted_of_authenticate h
  have hbody : record.body.DistinctKeys := by
    simp [value, Envelope.unsigned, Envelope.message] at hc
    exact hc.2.2.2.1.distinctKeys
  rw [htrusted.authenticate] at h
  rw [(trusted_normalized hc htrusted).authenticate]
  simp only [bind_eq_ok, exists_unit, need_eq_ok, lift_eq_ok, pure_eq_ok] at h
  obtain ⟨authority, hauthority, hfalse, rfl⟩ := h
  have hmethod := getMethod_normalize hbody hauthority
  have hfalse' : child_ledger.isFalse (authority.map Value.normalize) = true := by
    rcases authority with _ | ⟨_ | _ | _ | _ | _ | _⟩ <;> exact hfalse
  exact bind_eq_ok.mpr ⟨_, lift_eq_ok.mpr hmethod, seq_eq_ok.mpr ⟨need_eq_ok.mpr hfalse', rfl⟩⟩

end Records

/-! ## A pool that can be written -/

/-- A pool that can be written: its owner and itself were made by their
constructors, and there is a record that it can publish. -/
structure Writable (P : ServicePool) : Prop where
  owner : common_capacity.init P.owner.root P.owner.host P.owner.key P.owner.issuer P.owner.trust
    P.owner.config_bytes P.owner.child_trust P.owner.observer P.owner.owner_profile = .ok P.owner
  constructed : ∃ F, service_attempt.init F P.predecessor P.head P.policy_bytes P.profile = .ok P
  published : ∃ b record, service_attempt.publish P b = .ok record

theorem raw_member {members : List (Str × Value)} {b : ByteArray} {k : Str} {v : Value}
    (h : raw (.dict members) = .ok b) (hm : (k, v) ∈ members) : ∃ c, raw v = .ok c := by
  obtain ⟨t, ht, -⟩ := canon.canonical_bytes_eq_ok.mp (lift_eq_ok.mp h)
  rw [canon.encode_dict] at ht
  obtain ⟨ts, hts, -⟩ := bind_eq_ok.mp ht
  obtain ⟨u, hu⟩ := mapM_ok_mem hts (mem_sortByKey.mpr hm)
  obtain ⟨_, -, hu⟩ := bind_eq_ok.mp hu
  obtain ⟨w, hw, -⟩ := bind_eq_ok.mp hu
  exact ⟨_, lift_eq_ok.mpr (canon.canonical_bytes_eq_ok.mpr ⟨w, hw, rfl⟩)⟩

theorem canonical_of_raw {v : Value} {b : ByteArray} (hd : v.DistinctKeys) (h : raw v = .ok b) :
    v.Canonical := by
  obtain ⟨t, ht, -⟩ := canon.canonical_bytes_eq_ok.mp (lift_eq_ok.mp h)
  exact canon.canonical_of_encode hd ht

section Pools

variable {P : ServicePool}

/-- The owner is trusted with its own key. -/
theorem Writable.trusted (h : Writable P) : ∃ entry, P.owner.trust.lookup P.owner.issuer = some entry ∧
    entry.public_key_hex = P.owner.host.public_key_hex P.owner.key ∧
    python.eq entry.producer_identity P.owner.host.producer = true := by
  have hinit := h.owner
  unfold common_capacity.init at hinit
  dsimp only at hinit
  split at hinit
  · cases hinit
  · rename_i entry hentry
    simp only [bind_eq_ok, exists_unit, need_eq_ok] at hinit
    exact ⟨entry, hentry, hinit.1⟩

theorem Writable.owner_issuer (h : Writable P) : P.owner.config.owner_issuer = P.owner.issuer := by
  have hinit := h.owner
  unfold common_capacity.init at hinit
  dsimp only at hinit
  split at hinit
  · cases hinit
  · simp only [bind_eq_ok, exists_unit, pure_eq_ok] at hinit
    obtain ⟨-, -, config, hconfig, howner⟩ := hinit
    have hissuer : config.owner_issuer = P.owner.issuer := by
      unfold read_config at hconfig
      simp only [bind_eq_ok, exists_unit, pure_eq_ok] at hconfig
      obtain ⟨_, -, _, -, _, -, _, -, _, -, _, -, _, -, -, _, -, _, -, _, -, _, -, _, -, _, -, rfl⟩ := hconfig
      rfl
    rw [← hissuer]
    exact (congrArg (fun O : Owner => O.config.owner_issuer) howner).symm

/-- The record that the pool succeeds is of the same issuer. -/
theorem Writable.predecessor_issuer (h : Writable P) :
    ∃ members, P.predecessor.value = .dict members ∧
      (lit "issuer_identity", .str P.owner.issuer) ∈ members := by
  obtain ⟨F, hinit⟩ := h.constructed
  have hissuer := h.owner_issuer
  unfold service_attempt.init at hinit
  obtain ⟨_, -, hinit⟩ := bind_eq_ok.mp hinit
  split at hinit
  · obtain ⟨r, hview, -⟩ := bind_eq_ok.mp hinit
    unfold ServicePool.owner at hissuer ⊢
    generalize P.predecessor = predecessor at hview hissuer ⊢
    cases predecessor with
    | common owner record =>
      refine ⟨_, rfl, ?_⟩
      obtain ⟨_, hvalid, -⟩ := bind_eq_ok.mp hview
      unfold common_capacity.validate_record at hvalid
      simp only [bind_eq_ok, exists_unit, need_eq_ok] at hvalid
      have hsame : record.issuer_identity = owner.issuer := hvalid.1.trans hissuer
      simp [Envelope.unsigned, Envelope.message, Predecessor.owner, hsame]
    | managed owner record =>
      refine ⟨_, rfl, ?_⟩
      obtain ⟨_, hvalid, -⟩ := bind_eq_ok.mp hview
      unfold managed_capacity.validate_record at hvalid
      simp only [bind_eq_ok, exists_unit, need_eq_ok] at hvalid
      obtain ⟨_, -, hsame, -⟩ := hvalid
      simp [Envelope.unsigned, Envelope.message, Predecessor.owner, hsame]
  · cases hinit

/-- The issuer takes at most half of the bytes of a record. -/
theorem Writable.issuer_width (h : Writable P) : 2 * canon.strWidth P.owner.issuer ≤ MAX_BYTES := by
  obtain ⟨b, record, hpublish⟩ := h.published
  unfold service_attempt.publish at hpublish
  simp only [bind_eq_ok, exists_unit, need_eq_ok, pure_eq_ok] at hpublish
  obtain ⟨record, hrecord, hvalid, data, hdata, hsize, rfl⟩ := hpublish
  have hbody : record.body = b := envelope_eq_ok hrecord
  have hhead : b.predecessor_raw = P.head := by
    unfold service_attempt.validate at hvalid
    simp only [bind_eq_ok, exists_unit, need_eq_ok] at hvalid
    obtain ⟨body, hauthentic, -, hsame, -⟩ := hvalid
    rw [← hbody, ← authenticate_eq_ok hauthentic]
    exact hsame.2.2.2.1
  -- the issuer is in the head, the head is in the body, twice as long, and the body in the record
  obtain ⟨members, hvalue, hmember⟩ := h.predecessor_issuer
  have hissuer : canon.strWidth P.owner.issuer ≤ P.head.size := by
    rw [size_raw_eq P.written, hvalue]
    exact canon.textWidth_le_dict hmember
  have hhex : canon.strWidth (hexOf P.head) ≤ canon.textWidth (value b) := by
    rw [← hhead]
    exact canon.textWidth_le_dict (k := lit "predecessor_raw_hex") (v := .str (hexOf b.predecessor_raw))
      (by simp)
  have hrecord : canon.textWidth (value b) ≤ data.size := by
    rw [size_raw_eq hdata, ← hbody]
    exact canon.textWidth_le_dict (k := lit "body") (by simp [Envelope.unsigned, Envelope.message])
  rw [strWidth_hexOf] at hhex
  omega

end Pools

/-! ## What was retained -/

section Retaining

variable {C : TestObservationChecker} {D D' D'' : Disk} {destination recorded_at : Str} {E : Evidence}
  {receipt : Envelope Value} {observed : Observation} {count total : Nat}
  {observation receipt_raw : ByteArray}

/-- What the receipt of this evidence is about. -/
def retainedOf (C : TestObservationChecker) (E : Evidence) (recorded_at : Str) (observed : Observation)
    (observation : ByteArray) : Retained where
  recorded_at := recorded_at
  manifest := (C.files E observation).map fun f => (f.1, sha f.2)
  observation_sha256 := sha observation
  input_bytes := observed.input_bytes

/-- What `retain` did when it returned: it checked, signed and wrote. -/
structure Retains (C : TestObservationChecker) (D D' : Disk) (destination recorded_at : Str)
    (E : Evidence) (receipt : Envelope Value) (observed : Observation) (count : Nat)
    (observation receipt_raw : ByteArray) (total : Nat) : Prop where
  dated : text recorded_at
  checked : C.check E = .ok observed
  within : bounded C.limits (C.selected ++ E.members) = .ok count
  written : raw observed.value = .ok observation
  small : ∀ f ∈ C.files E observation, f.2.size ≤ MAX_BYTES
  signed : C.sign_receipt (retainedOf C E recorded_at observed observation) total =
    .ok (receipt, receipt_raw)
  sum : total = TestObservationChecker.sizeOf (C.files E observation) + receipt_raw.size
  limit : total ≤ C.limits.retained_bytes
  absolute : destination.head? = some (.scalar '/')
  resolved : D'.Resolved (parts destination)
  holds : D'.Holds (parts destination) (C.files E observation ++ [(lit "RECEIPT.json", receipt_raw)])

theorem retains_of_retain (h : C.retain D destination recorded_at E = .ok (receipt, D')) :
    ∃ observed count observation receipt_raw total, Retains C D D' destination recorded_at E receipt
      observed count observation receipt_raw total := by
  unfold TestObservationChecker.retain at h
  simp only [bind_eq_ok, exists_unit, needOr_eq_ok, pure_eq_ok] at h
  obtain ⟨htext, observed, hchecked, count, hbounded, observation, hobservation, hsmall,
    ⟨signed, receipt_raw, total⟩, hsettled, hlimit, ⟨habsolute, hresolved⟩, D₁, hmkdir, D₂, hfiles, D₃,
    hreceipt, heq⟩ := h
  obtain ⟨rfl, rfl⟩ := Prod.mk.inj heq
  obtain ⟨hsigned, htotal⟩ := TestObservationChecker.settle_size_eq_ok hsettled
  have hlinks : D₁.is_link = D.is_link := by
    unfold Disk.mkdir at hmkdir
    split at hmkdir
    · rw [← pure_eq_ok.mp hmkdir]
    · cases hmkdir
  obtain ⟨hholds, hlinks₂⟩ := (Disk.Holds.nil (D := D₁)).foldlM hfiles
  have hlinks₃ := (Disk.fresh_eq_ok hreceipt).2.2.1
  have hresolved₃ : D₃.Resolved (parts destination) := by
    unfold Disk.Resolved
    rw [hlinks₃, hlinks₂, hlinks]
    exact hresolved
  exact ⟨observed, count, observation, receipt_raw, total, htext, hchecked, hbounded, hobservation, hsmall,
    hsigned, htotal, hlimit, habsolute, hresolved₃, hholds.fresh (f := (lit "RECEIPT.json", receipt_raw)) hreceipt⟩

/-! ## The files and the receipt -/

theorem files_names (E : Evidence) (observation : ByteArray) :
    (C.files E observation).map Prod.fst = MANIFEST := by
  show ((C.selected ++ E.members).map Prod.fst).map fileOf ++ _ = _
  show INPUTS.map fileOf ++ [lit "OBSERVATION.json"] = MANIFEST
  decide

theorem distinct_files (E : Evidence) (observation : ByteArray) : Distinct (C.files E observation) := by
  unfold Distinct
  rw [files_names]
  decide

/-- The inputs are found again under the names of their files. -/
theorem inputs_of_files (E : Evidence) (observation : ByteArray) :
    (FILES.map fun f => (f.1, ((C.files E observation).lookup f.2).getD .empty)) =
      C.selected ++ E.members := rfl

theorem distinctKeys_receipt_body (R : Retained) (hR : Distinct R.manifest) (n : Nat) :
    (C.receipt_body R n).DistinctKeys := by
  have hmanifest : (Value.dict (R.manifest.map fun m => (m.1, .str m.2))).DistinctKeys := by
    rw [Value.distinctKeys_dict]
    refine ⟨hR.map_snd _, ?_⟩
    intro m hm
    obtain ⟨r, -, rfl⟩ := List.mem_map.mp hm
    exact .str _
  have hinput : (intOrNull R.input_bytes).DistinctKeys := by
    cases R.input_bytes <;> simp [intOrNull]
  have hlimits : C.limits.value.DistinctKeys := by
    simp [Limits.value, Limits.members, Distinct]
  simp [TestObservationChecker.receipt_body, TestObservationChecker.receipt_said, SCOPE, FLAGS, identity,
    Distinct, hmanifest, hinput, hlimits]

/-- A receipt has its keys, also when it is read. -/
theorem receipt_keys (R : Retained) (n : Nat) :
    ∃ members, (C.receipt_body R n).normalize = .dict members ∧ sameKeys members TestObservationChecker.RECEIPT_KEYS = true := by
  have hkeys : (C.receipt_said R n ++ SCOPE ++ FLAGS).map Prod.fst =
      TestObservationChecker.RECEIPT_KEYS := rfl
  exact ⟨_, Value.normalize_dict _, sameKeys_normalize hkeys (Value.normalize_dict _)⟩

theorem get?_manifest (R : Retained) (n : Nat) : (C.receipt_body R n).get? "manifest" =
    some (.dict (R.manifest.map fun m => (m.1, .str m.2))) := rfl

/-- The members that do not depend on the evidence are as they should be. -/
theorem check_receipt_ok {R : Retained} {n : Nat} (hd : (C.receipt_body R n).DistinctKeys)
    (htext : text R.recorded_at) : C.check_receipt (C.receipt_body R n).normalize = .ok () := by
  have hget : ∀ k v, (C.receipt_body R n).get? k = some v →
      item (C.receipt_body R n).normalize k = .ok v.normalize := fun k v h => item_normalize hd h
  have hidentity : python.eq (identity C.source).normalize (identity C.source) = true := by
    rw [eq_normalize_left]
    exact eq_same (by simp [identity, Distinct])
  have hlimits : python.eq C.limits.value.normalize C.limits.value = true := by
    rw [eq_normalize_left]
    exact eq_same (by simp [Limits.value, Limits.members, Distinct])
  unfold TestObservationChecker.check_receipt
  rw [hget "schema" (.str "vfy.service-test-evidence/1") rfl, ok_bind,
    hget "checker_identity" (identity C.source) rfl, ok_bind,
    hget "selected_limits" C.limits.value rfl, ok_bind,
    hget "semantic_acceptance" (.str "UNESTABLISHED") rfl, ok_bind,
    hget "adoption" (.str "UNESTABLISHED") rfl, ok_bind,
    hget "organizational_authority" (.str "UNESTABLISHED") rfl, ok_bind,
    hget "authority_granted" (.bool false) rfl, ok_bind, hget "automatic_retry" (.bool false) rfl, ok_bind,
    hget "additional_evidence_charged_to_service_pool" (.bool false) rfl, ok_bind,
    hget "recorded_at" (.str R.recorded_at) rfl, ok_bind, needOr_eq_ok]
  simp only [Value.normalize_str, Value.normalize_bool, isStr_str, hidentity, hlimits, isFalseValue,
    child_ledger.isFalse, TestObservationChecker.isText, htext]
  decide

/-- A signed record is as long as its issuer and its body, and little more. -/
theorem size_signed {β : Type} [Encoded β] {host : Host} (hhost : Signs host) {body : β} {key : List UInt8}
    {issuer : Str} {record : Envelope β} {b : ByteArray}
    (hrecord : envelope host body key issuer = .ok record) (hraw : raw (value record) = .ok b) :
    b.size ≤ canon.strWidth issuer + 4 * canon.textRoom (value body) + 4400 := by
  obtain ⟨source, hproducer⟩ := hhost.producer
  have hproducer_room : canon.textRoom host.producer ≤ 1000 := by
    rw [hproducer]
    simp [child_ledger.producer, canon.textRoom, canon.textRoomMembers, lit, ofText]
  obtain ⟨bytes, d, rfl⟩ := envelope_shape hrecord
  obtain ⟨s, hs, hsign⟩ := hhost.signature key bytes
  have hmember : ∀ k v, (k, v) ∈ Envelope.message (⟨issuer, host.producer, body, host.sign key bytes,
      sha d⟩ : Envelope β) → canon.textWidth v ≤ 4 * canon.textRoom v := by
    intro k v hm
    obtain ⟨c, hc⟩ := raw_member hraw (List.mem_append_left _ (List.mem_append_left _ hm))
    rw [← size_raw_eq hc]
    exact size_raw hc
  have hbody := hmember "body" (value body) (by simp [Envelope.message])
  have hproducer_width := hmember "producer_identity" host.producer (by simp [Envelope.message])
  have hsignature : canon.strWidth (hexOf s) = 130 := by rw [strWidth_hexOf, hs]
  have hkeys : canon.strWidth (lit "issuer_identity") + canon.strWidth (lit "producer_identity") +
      canon.strWidth (lit "body") + canon.strWidth (lit "signature") + canon.strWidth (lit "sha256") ≤ 100 := by
    decide +kernel
  rw [size_raw_eq hraw, hsign]
  simp only [value, Envelope.unsigned, Envelope.message, List.cons_append, List.nil_append,
    canon.textWidth_dict_cons, canon.textWidthMembers, canon.textWidth, strWidth_sha, hsignature]
  clear hsignature hmember hraw hrecord hsign
  generalize canon.strWidth (lit "issuer_identity") = k₁ at hkeys ⊢
  generalize canon.strWidth (lit "producer_identity") = k₂ at hkeys ⊢
  generalize canon.strWidth (lit "body") = k₃ at hkeys ⊢
  generalize canon.strWidth (lit "signature") = k₄ at hkeys ⊢
  generalize canon.strWidth (lit "sha256") = k₅ at hkeys ⊢
  omega

/-- The names and digests of the files take little room. -/
theorem room_manifest (E : Evidence) (observation : ByteArray) :
    canon.textRoomMembers (((C.files E observation).map fun f => (f.1, sha f.2)).map fun m =>
      (m.1, .str m.2)) ≤ 6000 := by
  have hsum : canon.textRoomMembers (((C.files E observation).map fun f => (f.1, sha f.2)).map fun m =>
      (m.1, .str m.2)) = (((C.files E observation).map Prod.fst).map fun k => 6 * k.length + 390).sum := by
    rw [canon.textRoomMembers_eq, List.map_map, List.map_map, List.map_map]
    refine congrArg List.sum (List.map_congr_left fun f _ => ?_)
    simp [canon.textRoom]
  rw [hsum, files_names]
  decide

/-- All of a receipt but its issuer takes little room. -/
theorem room_receipt_body (E : Evidence) (hdated : text recorded_at) (observed : Observation)
    (observation : ByteArray) (n : Nat) :
    canon.textRoom (C.receipt_body (retainedOf C E recorded_at observed observation) n) ≤ 40000 := by
  have hmanifest := room_manifest (C := C) E observation
  have hinput : canon.textRoom (intOrNull observed.input_bytes) ≤ 17 := by
    cases observed.input_bytes <;> simp [intOrNull, canon.textRoom]
  have hlimits : canon.textRoom C.limits.value ≤ 1000 := by
    simp [Limits.value, Limits.members, canon.textRoom, canon.textRoomMembers, lit, ofText]
  have hidentity : canon.textRoom (identity C.source) ≤ 1000 := by
    simp [identity, PROFILE, canon.textRoom, canon.textRoomMembers]
    decide
  have hlength := hdated.2
  simp only [TestObservationChecker.receipt_body, TestObservationChecker.receipt_said, retainedOf, SCOPE, FLAGS,
    List.cons_append, List.nil_append, canon.textRoom, canon.textRoomMembers, length_sha]
  simp [-List.map_map, lit, ofText]
  omega

/-- A receipt fits a file: the issuer takes half of it at most, and all else is small. -/
theorem size_receipt (hpool : Writable C.pool) (hhost : Signs C.pool.owner.host)
    (h : Retains C D D' destination recorded_at E receipt observed count observation receipt_raw total) :
    receipt_raw.size ≤ MAX_BYTES := by
  have hissuer := hpool.issuer_width
  have hroom := room_receipt_body (C := C) E h.dated observed observation total
  obtain ⟨r, hrecord, hr⟩ := bind_eq_ok.mp h.signed
  obtain ⟨_, hraw, hr⟩ := bind_eq_ok.mp hr
  obtain ⟨rfl, rfl⟩ := Prod.mk.inj (pure_eq_ok.mp hr)
  have hsize := size_signed hhost hrecord hraw
  rw [show value (C.receipt_body (retainedOf C E recorded_at observed observation) total) =
    C.receipt_body (retainedOf C E recorded_at observed observation) total from rfl] at hsize
  unfold MAX_BYTES at hissuer ⊢
  omega

theorem not_hex64_nil : ¬ hex64 [] := by
  unfold hex64 matchesPattern
  decide +kernel

/-- The check of what was retained is the same check. -/
theorem recheck (h : Retains C D D' destination recorded_at E receipt observed count observation
    receipt_raw total) :
    C.check { E with request_sha256 := observed.request_sha256.getD [] } = .ok observed := by
  obtain ⟨-, hrequest | ⟨hnone, hmalformed⟩⟩ := check_request h.within h.checked
  · rw [hrequest]
    exact h.checked
  · have hempty := check_malformed (E := { E with request_sha256 := [] }) h.within not_hex64_nil
    rw [hnone]
    exact hempty.trans ((check_malformed h.within hmalformed).symm.trans h.checked)

/-- The files that a manifest names are read, in its order. -/
theorem read_manifest_ok {files : List (Str × ByteArray)} {root : List Str} (hd : Distinct files)
    (hread : ∀ f ∈ files, D.read_file (root ++ [f.1]) = .ok f.2) :
    TestObservationChecker.read_manifest D root (sortByKey (files.map fun f => (f.1, .str (sha f.2)))) =
      .ok (sortByKey files) := by
  have hread' : (sortByKey (files.map fun f => (f.1, Value.str (sha f.2)))).mapM
      (fun m => do pure (m.1, ← D.read_file (root ++ [m.1]))) = .ok (sortByKey files) := by
    rw [sortByKey_map_snd (fun data => Value.str (sha data)), List.mapM_map]
    refine mapM_eq_ok.mpr (List.forall₂_same.mpr fun f hf => ?_)
    exact bind_eq_ok.mpr ⟨f.2, hread f (mem_sortByKey.mp hf), rfl⟩
  refine bind_eq_ok.mpr ⟨_, hread', seq_eq_ok.mpr ⟨needOr_eq_ok.mpr fun f hf => ?_, rfl⟩⟩
  rw [sortByKey_map_snd (fun data => Value.str (sha data)),
    lookup_map_snd fun data => Value.str (sha data),
    (lookup_eq_some_iff hd.sortByKey f.1 f.2).mpr hf]
  exact gate.isStr_iff.mpr rfl

theorem depth_receipt_body (R : Retained) (n : Nat) : (C.receipt_body R n).depth ≤ 2 := by
  have hmanifest : (Value.dict (R.manifest.map fun m => (m.1, .str m.2))).depth ≤ 1 := by
    rw [Value.depth]
    refine Nat.succ_le_succ (Value.depthMembers_le.mpr fun m hm => ?_)
    obtain ⟨r, -, rfl⟩ := List.mem_map.mp hm
    exact le_rfl
  have hinput : (intOrNull R.input_bytes).depth = 0 := by
    cases R.input_bytes <;> rfl
  simp only [TestObservationChecker.receipt_body, TestObservationChecker.receipt_said, SCOPE, FLAGS, identity,
    Limits.value, Limits.members, List.cons_append, List.nil_append, List.map_cons, List.map_nil,
    Value.depth, Value.depthMembers] at hmanifest ⊢
  omega

/-- A receipt that was signed can be read. -/
theorem sign_receipt_spec (hhost : Signs C.pool.owner.host) {R : Retained} (hR : Distinct R.manifest)
    {n : Nat} (h : C.sign_receipt R n = .ok (receipt, receipt_raw)) :
    envelope C.pool.owner.host (C.receipt_body R n) C.pool.owner.key C.pool.owner.issuer = .ok receipt ∧
      raw (value receipt) = .ok receipt_raw ∧ (value receipt).Canonical ∧ (value receipt).depth ≤ 64 := by
  obtain ⟨r, hrecord, hr⟩ := bind_eq_ok.mp h
  obtain ⟨_, hraw, hr⟩ := bind_eq_ok.mp hr
  obtain ⟨rfl, rfl⟩ := Prod.mk.inj (pure_eq_ok.mp hr)
  obtain ⟨source, hproducer⟩ := hhost.producer
  obtain ⟨bytes, d, rfl⟩ := envelope_shape hrecord
  have hbody := distinctKeys_receipt_body (C := C) R hR n
  have hdepth := depth_receipt_body (C := C) R n
  refine ⟨hrecord, hraw, canonical_of_raw ?_ hraw, ?_⟩
  · simp [value, Envelope.unsigned, Envelope.message, Distinct, hproducer, child_ledger.producer, hbody]
  · simp [value, Envelope.unsigned, Envelope.message, Value.depth, Value.depthMembers, hproducer,
      child_ledger.producer]
    omega

/-- The manifest, as it is read: the files by name, each with its digest. -/
theorem manifest_normalize (E : Evidence) (observation : ByteArray) :
    (Value.dict (((C.files E observation).map fun f => (f.1, sha f.2)).map fun m =>
      (m.1, .str m.2))).normalize =
      .dict (sortByKey ((C.files E observation).map fun f => (f.1, .str (sha f.2)))) := by
  rw [Value.normalize_dict, List.map_map, List.map_map]
  rfl

theorem manifest_keys (E : Evidence) (observation : ByteArray) :
    sameKeys (sortByKey ((C.files E observation).map fun f => (f.1, .str (sha f.2)))) MANIFEST = true := by
  refine sameKeys_normalize ?_ (manifest_normalize E observation)
  rw [List.map_map, List.map_map, ← files_names E observation]
  rfl

theorem lookup_sorted (E : Evidence) (observation : ByteArray) (n : Str) :
    (sortByKey (C.files E observation)).lookup n = (C.files E observation).lookup n :=
  lookup_sortByKey (distinct_files E observation) n

/-- The inputs among the files of a manifest. -/
theorem inputs_of_manifest (E : Evidence) (observation : ByteArray) :
    (FILES.map fun f => (f.1, ((sortByKey (C.files E observation)).lookup f.2).getD .empty)) =
      C.selected ++ E.members := by
  simp only [lookup_sorted]
  exact inputs_of_files E observation

/-- A name of a file is no step up. -/
theorem file_name_ne (E : Evidence) (observation : ByteArray) :
    ∀ f ∈ C.files E observation, f.1 ≠ lit ".." := by
  have hall : ∀ n ∈ MANIFEST, n ≠ lit ".." := by decide
  intro f hf
  apply hall
  rw [← files_names E observation]
  exact List.mem_map_of_mem hf

/-- What is retained of an observation says its request, and is checked again. -/
theorem reread (h : Retains C D D' destination recorded_at E receipt observed count observation
    receipt_raw total) : ∃ request, load.load_json_bytes observation = .ok observed.value.normalize ∧
    getMethod observed.value.normalize "request_sha256" = .ok request ∧
    C.check (TestObservationChecker.evidenceAmong (C.selected ++ E.members)
      (TestObservationChecker.requestOf request)) = .ok observed := by
  have hplain := plain_of_check h.checked
  have hread : load.load_json_bytes observation = .ok observed.value.normalize := by
    rw [load.load_canonical_bytes (canonical_of_raw hplain.distinctKeys h.written) (lift_eq_ok.mp h.written),
      if_pos hplain.depth_le]
  have hrequest : getMethod observed.value.normalize "request_sha256" =
      .ok ((observed.request_sha256.map Value.str).map Value.normalize) := by
    refine getMethod_normalize hplain.distinctKeys (congrArg Except.ok ?_)
    exact (Value.get?_dict _ _).symm.trans (get?_request observed)
  have hsame : TestObservationChecker.requestOf
      ((observed.request_sha256.map Value.str).map Value.normalize) = observed.request_sha256.getD [] := by
    cases observed.request_sha256 <;> rfl
  refine ⟨_, hread, hrequest, ?_⟩
  rw [hsame]
  exact recheck h

/-- The receipt is read back and accepted. -/
theorem read_receipt (hpool : Writable C.pool) (hhost : Signs C.pool.owner.host) {R : Retained}
    (hR : Distinct R.manifest) {n : Nat} (h : C.sign_receipt R n = .ok (receipt, receipt_raw)) :
    load.load_json_bytes receipt_raw = .ok (value receipt).normalize ∧
      envelopeOf (value receipt).normalize = .ok (normalized receipt) ∧
      authenticate C.pool.owner.host (normalized receipt) C.pool.owner.trust =
        .ok (C.receipt_body R n).normalize ∧
      (normalized receipt).issuer_identity = C.pool.owner.issuer := by
  obtain ⟨hrecord, hraw, hcanonical, hdepth⟩ := sign_receipt_spec hhost hR h
  obtain ⟨entry, hentry, hkey, hproducer⟩ := hpool.trusted
  refine ⟨?_, envelopeOf_normalize hcanonical.distinctKeys, ?_, ?_⟩
  · rw [load.load_canonical_bytes hcanonical (lift_eq_ok.mp hraw), if_pos hdepth]
  · refine authenticate_normalized hcanonical (authenticate_envelope hrecord hentry hproducer ?_ rfl)
    intro bytes
    rw [hkey]
    exact hhost.verifies _ _
  · obtain ⟨_, _, rfl⟩ := envelope_shape hrecord
    rfl

/-- What was retained is verified, with what the first check returned. -/
theorem verify_retained_of_retains (hpool : Writable C.pool) (hhost : Signs C.pool.owner.host)
    (h : Retains C D D' destination recorded_at E receipt observed count observation receipt_raw total)
    (hkept : Disk.Kept D' D'' (parts destination)) :
    C.verify_retained D'' destination = .ok observed := by
  have hmanifest : Distinct (retainedOf C E recorded_at observed observation).manifest :=
    (distinct_files E observation).map_snd sha
  obtain ⟨hload, hrecord, hauthentic, hissuer⟩ := read_receipt hpool hhost hmanifest h.signed
  have hdistinct := distinctKeys_receipt_body (C := C) _ hmanifest total
  have hget : ∀ k v, (C.receipt_body (retainedOf C E recorded_at observed observation) total).get? k = some v →
      item (C.receipt_body (retainedOf C E recorded_at observed observation) total).normalize k =
        .ok v.normalize := fun k v h => item_normalize hdistinct h
  have hfile : D''.read_file (parts destination ++ [lit "RECEIPT.json"]) = .ok receipt_raw :=
    h.holds.read_file hkept h.resolved (f := (lit "RECEIPT.json", receipt_raw)) (by simp)
      (show lit "RECEIPT.json" ≠ lit ".." by decide) (size_receipt hpool hhost h)
  have hfiles := read_manifest_ok (D := D'') (distinct_files E observation) fun f hf =>
    h.holds.read_file hkept h.resolved (List.mem_append_left _ hf) (file_name_ne E observation f hf)
      (h.small f hf)
  have htotal : TestObservationChecker.sizeOf (sortByKey (C.files E observation)) + receipt_raw.size = total := by
    rw [h.sum, TestObservationChecker.sizeOf, ((sortByKey_perm _).map _).sum_eq]
    rfl
  have hobservation : ((sortByKey (C.files E observation)).lookup (lit "OBSERVATION.json")).getD .empty =
      observation := by
    rw [lookup_sorted]
    rfl
  have hcount : (intOrNull observed.input_bytes).normalize = .int count := by
    rw [(check_request h.within h.checked).1]
    rfl
  obtain ⟨request, hread, hrequest, hagain⟩ := reread h
  unfold TestObservationChecker.verify_retained
  refine seq_eq_ok.mpr ⟨needOr_eq_ok.mpr ⟨h.absolute, hkept.resolved h.resolved⟩, ?_⟩
  refine bind_eq_ok.mpr ⟨_, hfile, bind_eq_ok.mpr ⟨_, lift_eq_ok.mpr hload, ?_⟩⟩
  refine bind_eq_ok.mpr ⟨_, hrecord, bind_eq_ok.mpr ⟨_, hauthentic, ?_⟩⟩
  refine seq_eq_ok.mpr ⟨needOr_eq_ok.mpr hissuer, ?_⟩
  obtain ⟨members, hmembers, hkeys⟩ :=
    receipt_keys (C := C) (retainedOf C E recorded_at observed observation) total
  refine bind_eq_ok.mpr ⟨members, exactly_eq_ok.mpr ⟨hmembers, hkeys⟩, ?_⟩
  refine seq_eq_ok.mpr ⟨check_receipt_ok hdistinct h.dated, ?_⟩
  refine bind_eq_ok.mpr ⟨_, hget "manifest" _ (get?_manifest _ _), ?_⟩
  refine bind_eq_ok.mpr ⟨_, exactly_eq_ok.mpr ⟨manifest_normalize E observation,
    manifest_keys E observation⟩, ?_⟩
  refine bind_eq_ok.mpr ⟨_, hfiles, bind_eq_ok.mpr ⟨_, hget "retained_bytes" (.int total) rfl, ?_⟩⟩
  rw [htotal, inputs_of_manifest, hobservation]
  refine seq_eq_ok.mpr ⟨needOr_eq_ok.mpr ⟨eq_same (.int _), h.limit⟩, ?_⟩
  refine bind_eq_ok.mpr ⟨count, h.within, ?_⟩
  refine bind_eq_ok.mpr ⟨_, hget "input_bytes" (intOrNull observed.input_bytes) rfl, ?_⟩
  rw [hcount]
  refine seq_eq_ok.mpr ⟨needOr_eq_ok.mpr ⟨eq_same (.int _), ?_⟩, ?_⟩
  · simp only [TestObservationChecker.selected, List.forall_mem_cons]
    exact ⟨rfl, rfl, rfl, by simp⟩
  refine bind_eq_ok.mpr ⟨_, lift_eq_ok.mpr hread, bind_eq_ok.mpr ⟨_, lift_eq_ok.mpr hrequest, ?_⟩⟩
  refine bind_eq_ok.mpr ⟨_, hagain, bind_eq_ok.mpr ⟨_, h.written, ?_⟩⟩
  refine bind_eq_ok.mpr ⟨_, hget "observation_sha256" (.str (sha observation)) rfl, ?_⟩
  exact seq_eq_ok.mpr ⟨needOr_eq_ok.mpr ⟨rfl, gate.isStr_iff.mpr rfl⟩, rfl⟩

/-- The bytes of all files of these names in a directory. -/
def Disk.bytesIn (D : Disk) (dest : List Str) (names : List Str) : Nat :=
  (names.map fun n => match D.tree (dest ++ [n]) with
    | some (.file data) => data.size
    | _ => 0).sum

theorem Disk.Holds.bytesIn_eq {files : List (Str × ByteArray)} {dest : List Str} (hD : D.Holds dest files) :
    D.bytesIn dest (files.map Prod.fst) = TestObservationChecker.sizeOf files := by
  unfold Disk.bytesIn TestObservationChecker.sizeOf
  rw [List.map_map]
  refine congrArg List.sum (List.map_congr_left fun f hf => ?_)
  simp only [Function.comp, hD.file f hf]

/-- A receipt says how many bytes there are, its own among them. -/
theorem said_bytes (h : Retains C D D' destination recorded_at E receipt observed count observation
    receipt_raw total) : receipt.body.get? "retained_bytes" =
      some (.int (D'.bytesIn (parts destination) (MANIFEST ++ [lit "RECEIPT.json"]))) := by
  obtain ⟨r, hrecord, hr⟩ := bind_eq_ok.mp h.signed
  obtain ⟨_, -, hr⟩ := bind_eq_ok.mp hr
  obtain ⟨rfl, -⟩ := Prod.mk.inj (pure_eq_ok.mp hr)
  have hbytes := h.holds.bytesIn_eq
  rw [List.map_append, files_names] at hbytes
  have hsum : TestObservationChecker.sizeOf (C.files E observation ++ [(lit "RECEIPT.json", receipt_raw)]) =
      total := by
    rw [h.sum, TestObservationChecker.sizeOf, List.map_append, List.sum_append]
    simp [TestObservationChecker.sizeOf]
  rw [envelope_eq_ok hrecord]
  show some (Value.int total) = _
  rw [← hsum, ← hbytes]
  rfl

end Retaining

/-! ## A directory that can be written -/

/-- Files with different names can be written where none of them stands. -/
theorem Disk.foldlM_fresh {D : Disk} {dest : List Str} {files : List (Str × ByteArray)} (hd : Distinct files)
    (hdir : D.tree dest = some .directory)
    (hfree : ∀ f ∈ files, D.tree (dest ++ [f.1]) = none ∧ D.is_link (dest ++ [f.1]) = false) :
    ∃ D', files.foldlM (fun D f => D.fresh (dest ++ [f.1]) f.2) D = .ok D' := by
  induction files generalizing D with
  | nil => exact ⟨D, rfl⟩
  | cons f files ih =>
    obtain ⟨hfirst, hd⟩ := List.nodup_cons.mp hd
    have htree := directories.fresh_eq f.2 (hfree f List.mem_cons_self).1
      (by rw [List.dropLast_concat]; exact hdir)
    have hfresh : D.fresh (dest ++ [f.1]) f.2 =
        .ok { D with tree := Function.update D.tree (dest ++ [f.1]) (some (.file f.2)) } := by
      unfold Disk.fresh
      rw [htree, (hfree f List.mem_cons_self).2]
      rfl
    have hne : dest ≠ dest ++ [f.1] := by simp
    obtain ⟨D', hrest⟩ := ih (D := { D with tree := Function.update D.tree (dest ++ [f.1]) (some (.file f.2)) }) hd
      ((Function.update_of_ne hne _ _).trans hdir) (by
        intro g hg
        have hother : dest ++ [g.1] ≠ dest ++ [f.1] := by
          intro heq
          have hname : g.1 = f.1 := by simpa using heq
          exact hfirst (hname ▸ List.mem_map_of_mem hg)
        have hg' := hfree g (List.mem_cons_of_mem _ hg)
        exact ⟨(Function.update_of_ne hother _ _).trans hg'.1, hg'.2⟩)
    refine ⟨D', ?_⟩
    rw [List.foldlM_cons, hfresh, ok_bind]
    exact hrest

/-- The loop returns, where every receipt can be signed and is small. -/
theorem settle_of_sign {C : TestObservationChecker} (hhost : Signs C.pool.owner.host) {R : Retained}
    (others room : Nat) (hsign : ∀ n ≤ others + room, ∃ r, C.sign_receipt R n = .ok r ∧ r.2.size ≤ room) :
    ∃ receipt receipt_raw total, C.settle_size R others 8 0 = .ok (receipt, receipt_raw, total) ∧
      total ≤ others + room := by
  have hrun : ∀ rounds n, n ≤ others + room → ¬ TestObservationChecker.Unstable (C.settle_size R others rounds n) →
      ∃ receipt receipt_raw total, C.settle_size R others rounds n = .ok (receipt, receipt_raw, total) ∧
        total ≤ others + room := by
    intro rounds
    induction rounds with
    | zero => exact fun n _ h => absurd rfl h
    | succ rounds ih =>
      intro n hn h
      obtain ⟨r, hr, hroom⟩ := hsign n hn
      unfold TestObservationChecker.settle_size at h ⊢
      rw [hr, ok_bind] at h ⊢
      dsimp only at h ⊢
      by_cases hsum : n = others + r.2.size
      · rw [if_pos hsum]
        exact ⟨_, _, _, rfl, by omega⟩
      · rw [if_neg hsum] at h ⊢
        exact ih _ (by omega) h
  exact hrun 8 0 (Nat.zero_le _) (TestObservationChecker.settle_size_stable hhost)

/-! ## A small pool -/

/-- A host that signs everything with one signature. -/
def zeroHost : Host where
  public_key_hex key := if key.isEmpty then "k" else "p"
  sign _ _ := hexOf ⟨Array.replicate 64 0⟩
  verify _ signature _ := decide (signature = hexOf ⟨Array.replicate 64 0⟩)
  producer := child_ledger.producer .empty

theorem signs_zeroHost : Signs zeroHost where
  signature _ _ := ⟨⟨Array.replicate 64 0⟩, rfl, rfl⟩
  verifies _ _ := by simp [zeroHost]
  producer := ⟨.empty, rfl⟩

theorem canonical_producer (source : ByteArray) : (child_ledger.producer source).Canonical := by
  simp [child_ledger.producer, Distinct, encodable_sha]

theorem encodable_hexOf (b : ByteArray) : Encodable (hexOf b) := by
  intro c hc
  obtain ⟨n, -, rfl⟩ := mem_hexOf hc
  exact ⟨_, rfl⟩

/-- The record of a body that this host signs for an issuer. -/
def signedAs {β : Type} [Encoded β] (issuer : Str) (body : β) : Envelope β :=
  let record : Envelope β :=
    { issuer_identity := issuer, producer_identity := zeroHost.producer, body
      signature := hexOf ⟨Array.replicate 64 0⟩, sha256 := [] }
  { record with sha256 := sha (bytesOf (.dict record.unsigned)) }

/-- The record that the owner signs. -/
def signedBy {β : Type} [Encoded β] (body : β) : Envelope β := signedAs "o" body

section Signed

variable {β : Type} [Encoded β] {body : β}

theorem envelope_signedAs (h : (value body).Canonical) (issuer : String) :
    envelope zeroHost body [1] issuer = .ok (signedAs issuer body) := by
  have hproducer := canonical_producer .empty
  have hmessage : (Value.dict (Envelope.message (⟨issuer, zeroHost.producer, body, [], []⟩ : Envelope β))).Canonical := by
    simp [Envelope.message, Distinct, zeroHost, hproducer, h]
  have hunsigned : (Value.dict (Envelope.unsigned (⟨issuer, zeroHost.producer, body,
      hexOf ⟨Array.replicate 64 0⟩, []⟩ : Envelope β))).Canonical := by
    simp [Envelope.unsigned, Envelope.message, Distinct, zeroHost, hproducer, h, encodable_hexOf]
  refine bind_eq_ok.mpr ⟨_, bind_eq_ok.mpr ⟨_, lift_eq_ok.mpr (bytesOf_eq hmessage), rfl⟩, ?_⟩
  exact bind_eq_ok.mpr ⟨_, bind_eq_ok.mpr ⟨_, lift_eq_ok.mpr (bytesOf_eq hunsigned), rfl⟩, rfl⟩

theorem envelope_signedBy (h : (value body).Canonical) :
    envelope zeroHost body [1] "o" = .ok (signedBy body) := envelope_signedAs h "o"

theorem canonical_signedAs (h : (value body).Canonical) (issuer : String) :
    (value (signedAs issuer body)).Canonical := by
  have hproducer := canonical_producer .empty
  simp [signedAs, value, Envelope.unsigned, Envelope.message, Distinct, zeroHost, hproducer, encodable_hexOf,
    encodable_sha]
  exact h

theorem canonical_signedBy (h : (value body).Canonical) : (value (signedBy body)).Canonical :=
  canonical_signedAs h "o"

/-- What this host trusts. -/
def zeroTrust : Trust := [("o", { public_key_hex := "p", producer_identity := zeroHost.producer })]

theorem authenticate_signedBy (h : (value body).Canonical)
    (hauthority : getMethod (value body) "authority_granted" = .ok (some (.bool false))) :
    authenticate zeroHost (signedBy body) zeroTrust = .ok body := by
  refine authenticate_envelope (envelope_signedBy h) rfl ?_ ?_ hauthority
  · exact eq_same (canonical_producer .empty).distinctKeys
  · exact fun _ => signs_zeroHost.verifies [1] _

end Signed

/-- The owner of a pool of two dispatch slots. -/
def zeroOwner : Owner :=
  { smallPool 2 with host := zeroHost, trust := zeroTrust }

theorem init_zeroOwner : common_capacity.init "/pool" zeroHost [1] "o" zeroTrust zeroOwner.config_bytes
    smallLedger.trust .null .null = .ok zeroOwner := by
  have hsmall := @init_smallPool 2 (by decide)
  have hself : python.eq zeroHost.producer zeroHost.producer = true :=
    eq_same (canonical_producer .empty).distinctKeys
  unfold common_capacity.init at hsmall ⊢
  dsimp only at hsmall ⊢
  rw [show (smallPool 2).trust.lookup (lit "o") = some _ from rfl] at hsmall
  rw [show zeroTrust.lookup (lit "o") = some _ from rfl]
  dsimp only at hsmall ⊢
  simp only [bind_eq_ok, exists_unit, need_eq_ok, needOr_eq_ok, pure_eq_ok] at hsmall ⊢
  obtain ⟨-, hindependent, config, hconfig, howner⟩ := hsmall
  refine ⟨⟨rfl, hself⟩, hindependent, config, hconfig, ?_⟩
  have hsame := congrArg Owner.config howner
  dsimp only at hsame
  rw [hsame]
  rfl

/-- The body of the record of this pool. -/
def zeroBody : common_capacity.Body :=
  { pool_root := "/pool", config_sha256 := sha zeroOwner.config_bytes, owner_profile := .null
    observer := .null, revision := 0, previous := none, entries := [] }

theorem canonical_zeroBody : (value zeroBody).Canonical := by
  simp [value, zeroBody, STATE, encodable_sha, Distinct, Value.SafeInteger]

theorem depth_zeroBody : (value (signedBy zeroBody)).depth ≤ 64 := by
  simp [value, signedBy, signedAs, Envelope.unsigned, Envelope.message, zeroHost, child_ledger.producer, zeroBody,
    Value.depth, Value.depthMembers, Value.depthItems]

/-- The record of this pool, in bytes. -/
def zeroHead : ByteArray := bytesOf (value (signedBy zeroBody))

/-- The policy of a service on this pool. -/
def zeroPolicy : Value := .dict
  [("adapter_sha256", .str zeros),
   ("approval_trust", .dict [("a", .dict [("producer_identity", (child_ledger.producer .empty).normalize),
     ("public_key_hex", .str zeros)])]),
   ("authority_granted", .bool false), ("automatic_retry", .bool false),
   ("capture_sha256", .str zeros), ("config_sha256", .str (sha zeroOwner.config_bytes)),
   ("pool_root", .str "/pool"), ("predecessor_sha256", .str (sha zeroHead)),
   ("resource_capacities", .dict [("cpu_seconds", .int 2), ("descriptors", .int 2), ("file_bytes", .int 2),
     ("output_bytes", .int 2), ("wall_seconds", .int 2)]),
   ("schema", .str "vfy.service-policy/1"), ("service_identity", .null)]

/-- The service on this pool. -/
def zeroService : ServicePool where
  predecessor := .common zeroOwner (signedBy zeroBody)
  head := zeroHead
  written := lift_eq_ok.mpr (bytesOf_eq (canonical_signedBy canonical_zeroBody))
  base_used := ⟨0, 0, none⟩
  caps := zeroOwner.config.capacities
  policy_bytes := bytesOf zeroPolicy
  policy := { approval_trust := [("a", { public_key_hex := zeros,
                                         producer_identity := (child_ledger.producer .empty).normalize })]
              adapter_sha256 := zeros, capture_sha256 := zeros, resource_capacities := ⟨2, 2, 2, 2, 2⟩ }
  profile := .null

theorem validate_zeroBody : common_capacity.validate_record zeroOwner (signedBy zeroBody) = .ok () := by
  have hnull : python.eq .null .null = true := eq_same .null
  refine seq_eq_ok.mpr ⟨need_eq_ok.mpr rfl, ?_⟩
  refine bind_eq_ok.mpr ⟨_, authenticate_signedBy canonical_zeroBody rfl, ?_⟩
  refine seq_eq_ok.mpr ⟨need_eq_ok.mpr ⟨rfl, rfl⟩, seq_eq_ok.mpr ⟨need_eq_ok.mpr ⟨hnull, hnull⟩, ?_⟩⟩
  have hwithin : (common_capacity.usage zeroBody).within zeroOwner.config.capacities :=
    ⟨Nat.zero_le _, Nat.zero_le _, by simp [common_capacity.usage]⟩
  show (need (0 = 0) >>= fun _ =>
    need ((common_capacity.usage zeroBody).within zeroOwner.config.capacities)) = _
  rw [need_eq_ok.mpr rfl, ok_bind]
  exact need_eq_ok.mpr hwithin

theorem canonical_zeroPolicy : zeroPolicy.Canonical := by
  have hproducer := (canonical_producer .empty).normalize
  simp [zeroPolicy, zeros, Distinct, hproducer, encodable_sha, Value.SafeInteger]

theorem load_zeroPolicy : load.load_json_bytes (bytesOf zeroPolicy) = .ok zeroPolicy := by
  have hdepth : zeroPolicy.depth ≤ 64 := by
    have hproducer : (child_ledger.producer .empty).normalize.depth ≤ 1 := by
      rw [Value.depth_normalize]
      simp [child_ledger.producer, Value.depth, Value.depthMembers]
    simp [zeroPolicy, Value.depth, Value.depthMembers]
    omega
  have hnormal : zeroPolicy.normalize = zeroPolicy := rfl
  rw [load.load_canonical_bytes canonical_zeroPolicy (bytesOf_eq canonical_zeroPolicy), if_pos hdepth, hnormal]

theorem hex64Of_zeros : hex64Of (.str zeros) = .ok zeros := by
  exact seq_eq_ok.mpr ⟨need_eq_ok.mpr hex64_zeros, rfl⟩

/-- The issuer of approvals. -/
def zeroApprover : Str × TrustEntry :=
  ("a", { public_key_hex := zeros, producer_identity := (child_ledger.producer .empty).normalize })

theorem approvalIssuer_zero : approvalIssuer zeroOwner
    ("a", .dict [("producer_identity", (child_ledger.producer .empty).normalize), ("public_key_hex", .str zeros)]) =
    .ok zeroApprover := by
  have hproducer : python.eq (child_ledger.producer .empty).normalize zeroOwner.host.producer = true := by
    rw [eq_normalize_left]
    exact eq_same (canonical_producer .empty).distinctKeys
  refine seq_eq_ok.mpr ⟨need_eq_ok.mpr (by decide), ?_⟩
  refine bind_eq_ok.mpr ⟨_, needKeys_eq_ok.mpr ⟨rfl, rfl⟩, ?_⟩
  refine bind_eq_ok.mpr ⟨_, item_of_get rfl, bind_eq_ok.mpr ⟨_, hex64Of_zeros, ?_⟩⟩
  refine bind_eq_ok.mpr ⟨_, item_of_get rfl, seq_eq_ok.mpr ⟨needOr_eq_ok.mpr ?_, rfl⟩⟩
  refine ⟨?_, ?_, hproducer⟩
  · simp [zeroOwner, zeroTrust, zeros]
  · simp [zeroOwner, smallPool, smallLedger, zeros]

theorem read_zeroPolicy : read_policy zeroOwner zeroHead (bytesOf zeroPolicy) .null = .ok zeroService.policy := by
  have hnull : python.eq .null .null = true := eq_same .null
  have hget : ∀ k v, zeroPolicy.get? k = some v → item zeroPolicy k = .ok v := fun _ _ => item_of_get
  have hresources : service_attempt.resources (.dict [("cpu_seconds", .int 2), ("descriptors", .int 2),
      ("file_bytes", .int 2), ("output_bytes", .int 2), ("wall_seconds", .int 2)]) false =
        .ok ⟨2, 2, 2, 2, 2⟩ := rfl
  refine bind_eq_ok.mpr ⟨_, lift_eq_ok.mpr load_zeroPolicy, ?_⟩
  refine bind_eq_ok.mpr ⟨_, needKeys_eq_ok.mpr ⟨rfl, rfl⟩, ?_⟩
  rw [hget "schema" (.str "vfy.service-policy/1") rfl, ok_bind, hget "pool_root" (.str "/pool") rfl, ok_bind,
    hget "config_sha256" (.str (sha zeroOwner.config_bytes)) rfl, ok_bind,
    hget "predecessor_sha256" (.str (sha zeroHead)) rfl, ok_bind, hget "service_identity" .null rfl, ok_bind,
    hget "authority_granted" (.bool false) rfl, ok_bind, hget "automatic_retry" (.bool false) rfl, ok_bind,
    need_eq_ok.mpr ⟨rfl, rfl, by simp, by simp, hnull, rfl, rfl⟩, ok_bind]
  refine bind_eq_ok.mpr ⟨_, hget "resource_capacities" _ rfl, bind_eq_ok.mpr ⟨_, hresources, ?_⟩⟩
  refine bind_eq_ok.mpr ⟨_, hget "adapter_sha256" _ rfl, bind_eq_ok.mpr ⟨_, hex64Of_zeros, ?_⟩⟩
  refine bind_eq_ok.mpr ⟨_, hget "capture_sha256" _ rfl, bind_eq_ok.mpr ⟨_, hex64Of_zeros, ?_⟩⟩
  refine bind_eq_ok.mpr ⟨_, hget "approval_trust" _ rfl, seq_eq_ok.mpr ⟨need_eq_ok.mpr rfl, ?_⟩⟩
  refine bind_eq_ok.mpr ⟨[zeroApprover], mapM_eq_ok.mpr ?_, rfl⟩
  exact .cons approvalIssuer_zero .nil

/-- What a call finds in a file system without any file. -/
def noFiles : Files := ⟨fun _ => none, fun _ => false, fun _ => false, fun _ => true⟩

theorem init_zeroService : service_attempt.init noFiles zeroService.predecessor zeroService.head
    zeroService.policy_bytes zeroService.profile = .ok zeroService := by
  have hdepth := depth_zeroBody
  have hload : load.load_json_bytes zeroService.head = .ok (value (signedBy zeroBody)).normalize := by
    show load.load_json_bytes (bytesOf (value (signedBy zeroBody))) = _
    have hc := canonical_signedBy canonical_zeroBody
    rw [load.load_canonical_bytes hc (bytesOf_eq hc), if_pos hdepth]
  have hview : zeroService.predecessor.view noFiles = .ok (zeroService.base_used, zeroService.caps) :=
    seq_eq_ok.mpr ⟨validate_zeroBody, rfl⟩
  refine bind_eq_ok.mpr ⟨_, lift_eq_ok.mpr hload, ?_⟩
  rw [dif_pos zeroService.written]
  exact bind_eq_ok.mpr ⟨_, hview, bind_eq_ok.mpr ⟨_, read_zeroPolicy, rfl⟩⟩

/-- The body that this service publishes first. -/
def zeroState : service_attempt.Body :=
  { pool_root := "/pool", policy_sha256 := sha zeroService.policy_bytes, service_identity := .null
    predecessor_raw := zeroHead, entries := [], revision := 1, previous := zeros }

theorem canonical_zeroState : (value zeroState).Canonical := by
  simp [value, zeroState, service_attempt.PROFILE, encodable_sha, encodable_hexOf, Distinct, Value.SafeInteger,
    zeros]

theorem validate_zeroState : service_attempt.validate zeroService (signedBy zeroState) = .ok () := by
  have hnull : python.eq .null .null = true := eq_same .null
  have hauthentic : authenticate zeroService.owner.host (signedBy zeroState) zeroService.owner.trust =
      .ok zeroState := authenticate_signedBy canonical_zeroState rfl
  have htotals : ∃ t, service_attempt.totals zeroService zeroState = .ok t := by
    refine ⟨(⟨0, 0, none⟩, 0), ?_⟩
    refine bind_eq_ok.mpr ⟨_, rfl, ?_⟩
    refine seq_eq_ok.mpr ⟨needOr_eq_ok.mpr ?_, seq_eq_ok.mpr ⟨needOr_eq_ok.mpr ?_, rfl⟩⟩
    · decide
    · decide
  obtain ⟨t, ht⟩ := htotals
  refine bind_eq_ok.mpr ⟨_, hauthentic, seq_eq_ok.mpr ⟨need_eq_ok.mpr rfl, ?_⟩⟩
  refine seq_eq_ok.mpr ⟨need_eq_ok.mpr ⟨rfl, rfl, hnull, rfl, by decide, hex64_zeros⟩, ?_⟩
  refine bind_eq_ok.mpr ⟨_, rfl, seq_eq_ok.mpr ⟨need_eq_ok.mpr rfl, ?_⟩⟩
  exact bind_eq_ok.mpr ⟨t, ht, rfl⟩

theorem room_signedAs {β : Type} [Encoded β] (issuer : Str) (body : β) :
    canon.textRoom (value (signedAs issuer body)) ≤ canon.textRoom (value body) + 6 * issuer.length + 2800 := by
  simp only [value, signedAs, Envelope.unsigned, Envelope.message, zeroHost, child_ledger.producer,
    List.cons_append, List.nil_append, canon.textRoom, canon.textRoomMembers, length_sha, length_hexOf]
  generalize canon.textRoom (Encoded.value body) = room
  generalize issuer.length = n
  simp [lit, ofText, ByteArray.size]
  omega

theorem room_zeroBody : canon.textRoom (value zeroBody) ≤ 3000 := by
  simp [value, zeroBody, STATE, canon.textRoom, canon.textRoomMembers, canon.textRoomItems]
  decide

theorem size_zeroHead : zeroHead.size ≤ 20000 := by
  have hc := canonical_signedBy canonical_zeroBody
  have hsize := size_signed signs_zeroHost (envelope_signedBy canonical_zeroBody) (lift_eq_ok.mpr (bytesOf_eq hc))
  have hissuer : canon.strWidth (lit "o") = 3 := by decide
  have hroom := room_zeroBody
  unfold zeroHead
  omega

theorem length_zeros : zeros.length = 64 := by decide

theorem room_state {b : service_attempt.Body} (hidentity : b.service_identity = .null) :
    canon.textRoom (value b) ≤ 6 * (b.pool_root.length + b.policy_sha256.length + b.previous.length) +
      12 * b.predecessor_raw.size + canon.textRoomItems (b.entries.map service_attempt.Entry.value) + 2000 := by
  have hhex := length_hexOf b.predecessor_raw
  have hkeys : (lit "schema").length = 6 ∧ service_attempt.PROFILE.length = 21 ∧
      (lit "pool_root").length = 9 ∧ (lit "policy_sha256").length = 13 ∧
      (lit "service_identity").length = 16 ∧ (lit "predecessor_raw_hex").length = 19 ∧
      (lit "entries").length = 7 ∧ (lit "revision").length = 8 ∧ (lit "previous").length = 8 ∧
      (lit "authority_granted").length = 17 ∧ (lit "automatic_retry").length = 15 := by
    decide
  simp only [value, canon.textRoom, canon.textRoomMembers, hhex, hkeys, hidentity]
  omega

theorem room_zeroState : canon.textRoom (value zeroState) ≤ 250000 := by
  have hhead := size_zeroHead
  have hstate := @room_state zeroState rfl
  have hroot : zeroState.pool_root.length = 5 := show (lit "/pool").length = 5 by decide
  have hpolicy : zeroState.policy_sha256.length = 64 := length_sha _
  have hprevious : zeroState.previous.length = 64 := length_zeros
  have hraw : zeroState.predecessor_raw.size = zeroHead.size := rfl
  have hentries : canon.textRoomItems (zeroState.entries.map service_attempt.Entry.value) = 0 := rfl
  -- the sizes are all that counts from here on
  generalize zeroState = state at hstate hroot hpolicy hprevious hraw hentries ⊢
  generalize zeroHead = head at hhead hraw
  omega

theorem writable_zeroService : Writable zeroService where
  owner := init_zeroOwner
  constructed := ⟨noFiles, init_zeroService⟩
  published := by
    have hc := canonical_signedBy canonical_zeroState
    refine ⟨zeroState, signedBy zeroState, ?_⟩
    refine bind_eq_ok.mpr ⟨_, envelope_signedBy canonical_zeroState, ?_⟩
    refine seq_eq_ok.mpr ⟨validate_zeroState, bind_eq_ok.mpr ⟨_, lift_eq_ok.mpr (bytesOf_eq hc), ?_⟩⟩
    refine seq_eq_ok.mpr ⟨need_eq_ok.mpr ?_, rfl⟩
    have hsize := size_signed signs_zeroHost (envelope_signedBy canonical_zeroState) (lift_eq_ok.mpr (bytesOf_eq hc))
    have hstate := room_zeroState
    have hissuer : canon.strWidth (lit "o") = 3 := by decide
    unfold MAX_BYTES
    omega

/-- One requirement. -/
def oneRequirement : Value := .dict
  [("requirements", .dict [("r", .str "x")]), ("schema", .str "vfy.service-requirements/1")]

/-- What a mapping without members is in bytes. -/
def emptyMapping : ByteArray := bytesOf (.dict [])

/-- A selection of one case, of no sources. -/
def oneSelection : Value := .dict
  [("adapter_sha256", .str zeros), ("authority_granted", .bool false), ("automatic_retry", .bool false),
   ("capture_sha256", .str zeros), ("case_ids", .list [.str "c"]),
   ("environment_sha256", .str (sha emptyMapping)), ("examiner_sha256", .str (sha emptyMapping)),
   ("labels", .list [.str "l"]), ("requirement_cases", .dict [("r", .list [.str "c"])]),
   ("requirements_sha256", .str (sha (bytesOf oneRequirement))), ("runner_sha256", .str (sha .empty)),
   ("schema", .str "vfy.service-test-selection/1"), ("source_sha256", .str (sha emptyMapping))]

def largeLimits : Limits := ⟨1000000, 1, 1, 1000000⟩

def oneSelected : Selection where
  requirements_sha256 := sha (bytesOf oneRequirement)
  source_sha256 := sha emptyMapping
  examiner_sha256 := sha emptyMapping
  environment_sha256 := sha emptyMapping
  adapter_sha256 := zeros
  capture_sha256 := zeros
  runner_sha256 := sha .empty
  labels := ["l"]
  case_ids := ["c"]
  requirement_cases := [("r", ["c"])]

theorem canonical_oneRequirement : oneRequirement.Canonical := by
  simp [oneRequirement, Distinct]

theorem canonical_oneSelection : oneSelection.Canonical := by
  simp [oneSelection, Distinct, encodable_sha, zeros]

theorem load_bytesOf {v : Value} (hv : v.Canonical) (hdepth : v.depth ≤ 64) :
    load.load_json_bytes (bytesOf v) = .ok v.normalize := by
  rw [load.load_canonical_bytes hv (bytesOf_eq hv), if_pos hdepth]

theorem size_bytesOf {v : Value} (hv : v.Canonical) : (bytesOf v).size ≤ 4 * canon.textRoom v :=
  size_raw (lift_eq_ok.mpr (bytesOf_eq hv))

theorem size_oneRequirement : (bytesOf oneRequirement).size ≤ 2000 := by
  have hroom : canon.textRoom oneRequirement ≤ 500 := by decide
  have hsize := size_bytesOf canonical_oneRequirement
  omega

theorem size_oneSelection : (bytesOf oneSelection).size ≤ 50000 := by
  have hroom : canon.textRoom oneSelection ≤ 12500 := by
    simp only [oneSelection, canon.textRoom, canon.textRoomMembers, canon.textRoomItems, length_sha, length_zeros]
    decide
  have hsize := size_bytesOf canonical_oneSelection
  omega

theorem hex64Or_str {s message : Str} (h : hex64 s) : hex64Or (.str s) message = .ok s :=
  seq_eq_ok.mpr ⟨needOr_eq_ok.mpr h, rfl⟩

theorem bounded_of_small {a b : ByteArray} (ha : a.size ≤ 50000) (hb : b.size ≤ 2000) :
    ∃ n, bounded largeLimits
      [("selection_bytes", a), ("requirements_bytes", b), ("runner_bytes", .empty)] = .ok n := by
  refine ⟨_, seq_eq_ok.mpr ⟨needOr_eq_ok.mpr ?_, seq_eq_ok.mpr ⟨needOr_eq_ok.mpr ?_, rfl⟩⟩⟩
  · simp only [List.forall_mem_cons, MAX_BYTES, ByteArray.size_empty]
    exact ⟨by omega, by omega, by omega, by simp⟩
  · simp only [List.map_cons, List.map_nil, List.sum_cons, List.sum_nil, largeLimits, ByteArray.size_empty]
    omega

theorem read_requirements_one : read_requirements largeLimits oneRequirement = .ok [("r", .str "x")] := rfl

theorem read_mapping_one : read_mapping (.dict [("r", .list [.str "c"])]) [("r", .str "x")] ["c"] =
    .ok [("r", ["c"])] := rfl

theorem read_selection_one : read_selection largeLimits oneSelection [("r", .str "x")]
    (bytesOf oneRequirement) .empty = .ok oneSelected := by
  have hget : ∀ k v, oneSelection.get? k = some v → item oneSelection k = .ok v := fun _ _ => item_of_get
  have hsha : ∀ k b, oneSelection.get? k = some (.str (sha b)) →
      (do hex64Or (← item oneSelection k) "SELECTED_BYTES_MISMATCH" : Checked Str) = .ok (sha b) := by
    intro k b h
    rw [hget k _ h, ok_bind, hex64Or_str (hex64_sha b)]
  have hzeros : ∀ k, oneSelection.get? k = some (.str zeros) →
      (do hex64Or (← item oneSelection k) "SELECTED_BYTES_MISMATCH" : Checked Str) = .ok zeros := by
    intro k h
    rw [hget k _ h, ok_bind, hex64Or_str hex64_zeros]
  have hfalse : isFalseValue (.bool false) := rfl
  refine bind_eq_ok.mpr ⟨_, exactly_eq_ok.mpr ⟨rfl, rfl⟩, ?_⟩
  rw [hget "schema" (.str "vfy.service-test-selection/1") rfl, ok_bind, needOr_eq_ok.mpr (gate.isStr_iff.mpr rfl),
    ok_bind, hget "authority_granted" (.bool false) rfl, ok_bind, needOr_eq_ok.mpr hfalse, ok_bind,
    hget "automatic_retry" (.bool false) rfl, ok_bind, needOr_eq_ok.mpr hfalse, ok_bind]
  refine bind_eq_ok.mpr ⟨_, hsha "requirements_sha256" _ rfl, bind_eq_ok.mpr ⟨_, hsha "source_sha256" _ rfl, ?_⟩⟩
  refine bind_eq_ok.mpr ⟨_, hsha "examiner_sha256" _ rfl, bind_eq_ok.mpr ⟨_, hsha "environment_sha256" _ rfl, ?_⟩⟩
  refine bind_eq_ok.mpr ⟨_, hzeros "adapter_sha256" rfl, bind_eq_ok.mpr ⟨_, hzeros "capture_sha256" rfl, ?_⟩⟩
  refine bind_eq_ok.mpr ⟨_, hsha "runner_sha256" _ rfl, seq_eq_ok.mpr ⟨needOr_eq_ok.mpr ⟨rfl, rfl⟩, ?_⟩⟩
  refine bind_eq_ok.mpr ⟨_, hget "labels" (.list [.str "l"]) rfl, bind_eq_ok.mpr ⟨["l"], rfl, ?_⟩⟩
  refine bind_eq_ok.mpr ⟨_, hget "case_ids" (.list [.str "c"]) rfl, bind_eq_ok.mpr ⟨["c"], rfl, ?_⟩⟩
  refine seq_eq_ok.mpr ⟨needOr_eq_ok.mpr (by decide), ?_⟩
  refine bind_eq_ok.mpr ⟨_, hget "requirement_cases" (.dict [("r", .list [.str "c"])]) rfl, ?_⟩
  exact bind_eq_ok.mpr ⟨_, read_mapping_one, rfl⟩

theorem read_selected_one : read_selected largeLimits (bytesOf oneSelection) (bytesOf oneRequirement) .empty =
    .ok (oneSelected, [("r", .str "x")]) := by
  obtain ⟨n, hbounded⟩ := bounded_of_small size_oneSelection size_oneRequirement
  have hselection := load_bytesOf canonical_oneSelection (by decide)
  have hrequirement := load_bytesOf canonical_oneRequirement (by decide)
  refine seq_eq_ok.mpr ⟨needOr_eq_ok.mpr (by decide), bind_eq_ok.mpr ⟨n, hbounded, ?_⟩⟩
  refine bind_eq_ok.mpr ⟨_, lift_eq_ok.mpr hselection, bind_eq_ok.mpr ⟨_, lift_eq_ok.mpr hrequirement, ?_⟩⟩
  refine bind_eq_ok.mpr ⟨_, read_requirements_one, bind_eq_ok.mpr ⟨oneSelected, ?_, rfl⟩⟩
  exact read_selection_one

/-- A checker of one case on a small pool. -/
def oneChecker : TestObservationChecker where
  pool := zeroService
  source := .empty
  limits := largeLimits
  selection_bytes := bytesOf oneSelection
  requirements_bytes := bytesOf oneRequirement
  runner_bytes := .empty
  selection := oneSelected
  requirements := [("r", .str "x")]
  read := read_selected_one

/-- A disk with a root and nothing else. -/
def emptyDisk : Disk where
  tree p := if p = [] then some .directory else none
  is_link _ := false

/-- No evidence of any attempt. -/
def noEvidence : Evidence := ⟨.empty, .empty, .empty, .empty, .empty, .empty, []⟩

theorem sign_one {R : Retained} {n : Nat} (h : (oneChecker.receipt_body R n).Canonical)
    (hroom : canon.textRoom (oneChecker.receipt_body R n) ≤ 40000) :
    ∃ r, oneChecker.sign_receipt R n = .ok r ∧ r.2.size ≤ 170000 := by
  have hbody : (value (oneChecker.receipt_body R n)).Canonical := h
  have hc := canonical_signedBy hbody
  refine ⟨(signedBy (oneChecker.receipt_body R n), _), bind_eq_ok.mpr ⟨_, envelope_signedBy hbody,
    bind_eq_ok.mpr ⟨_, lift_eq_ok.mpr (bytesOf_eq hc), rfl⟩⟩, ?_⟩
  have hsize := size_signed signs_zeroHost (envelope_signedBy hbody) (lift_eq_ok.mpr (bytesOf_eq hc))
  have hissuer : canon.strWidth (lit "o") = 3 := by decide
  rw [show value (oneChecker.receipt_body R n) = oneChecker.receipt_body R n from rfl] at hsize
  dsimp only
  omega

/-- What is bounded, of this checker and no evidence. -/
theorem bounded_none : ∃ count ≤ 52000,
    bounded oneChecker.limits (oneChecker.selected ++ noEvidence.members) = .ok count := by
  have hsize : ∀ a b : ByteArray, a.size ≤ 50000 → b.size ≤ 2000 → ∃ count ≤ 52000,
      bounded largeLimits ([(lit "selection_bytes", a), (lit "requirements_bytes", b), (lit "runner_bytes", .empty)] ++
        noEvidence.members) = .ok count := by
    intro a b ha hb
    refine ⟨_, ?_, seq_eq_ok.mpr ⟨needOr_eq_ok.mpr ?_, seq_eq_ok.mpr ⟨needOr_eq_ok.mpr ?_, rfl⟩⟩⟩
    · simp [noEvidence, Evidence.members]
      omega
    · simp [noEvidence, Evidence.members, MAX_BYTES]
      exact ⟨by omega, by omega⟩
    · simp [noEvidence, Evidence.members, largeLimits]
      omega
  exact hsize _ _ size_oneSelection size_oneRequirement

/-- The observation of no evidence. -/
def noObservation (count : Nat) : Observation :=
  { oneChecker.base with input_bytes := some count
                         refs := (oneChecker.selected ++ noEvidence.members).map fun i => (i.1, sha i.2)
                         reason_codes := [lit "INVALID_REQUEST_HASH"] }

theorem canonical_noObservation {count : Nat} (h : count ≤ 52000) : (noObservation count).value.Canonical := by
  have hsafe : Value.SafeInteger count := by
    unfold Value.SafeInteger
    omega
  have hone : Value.SafeInteger 1 := by decide
  have hlarge : Value.SafeInteger 1000000 := by decide
  simp [noObservation, Observation.value, Observation.said, Observation.costs, TestObservationChecker.base, SCOPE, FLAGS,
    TestObservationChecker.selected, noEvidence, Evidence.members, identity, PROFILE, Limits.value, Limits.members,
    oneChecker, largeLimits, intOrNull, Distinct, encodable_sha, hsafe, hone, hlarge, State.name]

theorem room_noObservation (count : Nat) : canon.textRoom (noObservation count).value ≤ 20000 := by
  simp only [noObservation, Observation.value, Observation.said, Observation.costs, TestObservationChecker.base, SCOPE, FLAGS,
    TestObservationChecker.selected, noEvidence, Evidence.members, identity, PROFILE, Limits.value, Limits.members,
    oneChecker, largeLimits, intOrNull,  State.name, canon.textRoom, canon.textRoomMembers, canon.textRoomItems, length_sha,
    List.map_cons, List.map_nil, List.cons_append, List.nil_append, List.append_nil, Option.map, Option.toList, Option.getD]
  decide


theorem check_none {count : Nat}
    (h : bounded oneChecker.limits (oneChecker.selected ++ noEvidence.members) = .ok count) :
    oneChecker.check noEvidence = .ok (noObservation count) :=
  check_malformed h not_hex64_nil

theorem canonical_receipt_body {observed : Observation} {count : Nat} (hobserved : observed.input_bytes = some count)
    (hcount : Value.SafeInteger count) (observation : ByteArray) {n : Nat} (hn : Value.SafeInteger n) :
    (oneChecker.receipt_body (retainedOf oneChecker noEvidence "t" observed observation) n).Canonical := by
  have hone : Value.SafeInteger 1 := by decide
  have hlarge : Value.SafeInteger 1000000 := by decide
  simp [TestObservationChecker.receipt_body, TestObservationChecker.receipt_said, retainedOf, hobserved, intOrNull, SCOPE, FLAGS,
    identity, PROFILE, Limits.value, Limits.members, TestObservationChecker.files, TestObservationChecker.selected, noEvidence,
    Evidence.members, fileOf, FILES, oneChecker, largeLimits, Distinct, encodable_sha, hn, hcount, hone, hlarge]

/-- The files of no evidence are small. -/
theorem size_files_none {observation : ByteArray} (h : observation.size ≤ 80000) :
    (∀ f ∈ oneChecker.files noEvidence observation, f.2.size ≤ MAX_BYTES) ∧
      TestObservationChecker.sizeOf (oneChecker.files noEvidence observation) ≤ 132000 := by
  have hsmall : ∀ a b : ByteArray, a.size ≤ 50000 → b.size ≤ 2000 →
      (∀ f ∈ ([(lit "selection_bytes", a), (lit "requirements_bytes", b), (lit "runner_bytes", .empty)] ++
        noEvidence.members).map (fun i => (fileOf i.1, i.2)) ++ [(lit "OBSERVATION.json", observation)],
        f.2.size ≤ MAX_BYTES) ∧
      TestObservationChecker.sizeOf (([(lit "selection_bytes", a), (lit "requirements_bytes", b),
        (lit "runner_bytes", .empty)] ++ noEvidence.members).map (fun i => (fileOf i.1, i.2)) ++
        [(lit "OBSERVATION.json", observation)]) ≤ 132000 := by
    intro a b ha hb
    constructor
    · simp [noEvidence, Evidence.members, MAX_BYTES]
      exact ⟨by omega, by omega, by omega⟩
    · simp [TestObservationChecker.sizeOf, noEvidence, Evidence.members]
      omega
  exact hsmall _ _ size_oneSelection size_oneRequirement

/-- The same disk with a new directory. -/
def madeDisk : Disk where
  tree := Function.update emptyDisk.tree [lit "e"] (some .directory)
  is_link _ := false

/-- All files can be written below a new directory. -/
theorem fill_one {files : List (Str × ByteArray)} (hd : Distinct files) : ∃ D₂,
    emptyDisk.mkdir (parts "/e") = .ok madeDisk ∧
      files.foldlM (fun D f => D.fresh (parts "/e" ++ [f.1]) f.2) madeDisk = .ok D₂ := by
  have hparts : parts "/e" = [lit "e"] := by decide
  rw [hparts]
  have hfree : ∀ f ∈ files, madeDisk.tree ([lit "e"] ++ [f.1]) = none ∧
      madeDisk.is_link ([lit "e"] ++ [f.1]) = false := by
    intro f _
    have hne : [lit "e"] ++ [f.1] ≠ [lit "e"] := by simp
    refine ⟨?_, rfl⟩
    unfold madeDisk
    dsimp only
    rw [Function.update_of_ne hne]
    rfl
  obtain ⟨D₂, hD₂⟩ := Disk.foldlM_fresh (D := madeDisk) hd (Function.update_self _ _ _) hfree
  exact ⟨D₂, rfl, hD₂⟩

theorem retain_written {count : Nat} (hcount : count ≤ 52000)
    (hbounded : bounded oneChecker.limits (oneChecker.selected ++ noEvidence.members) = .ok count)
    {observation : ByteArray} (hwritten : raw (noObservation count).value = .ok observation)
    (hsize : observation.size ≤ 80000) :
    ∃ receipt D', oneChecker.retain emptyDisk "/e" "t" noEvidence = .ok (receipt, D') := by
  have hdated : text (lit "t") := by decide
  obtain ⟨hsmall, hsum⟩ := size_files_none hsize
  obtain ⟨receipt, receipt_raw, total, hsettle, htotal⟩ := settle_of_sign (C := oneChecker)
    (R := retainedOf oneChecker noEvidence "t" (noObservation count) observation) signs_zeroHost
    (TestObservationChecker.sizeOf (oneChecker.files noEvidence observation)) 170000 (by
      intro n hn
      have hsafe : ∀ m : ℕ, m ≤ 302000 → Value.SafeInteger m := by
        intro m hm
        unfold Value.SafeInteger
        omega
      exact sign_one (canonical_receipt_body rfl (hsafe count (by omega)) observation (hsafe n (by omega)))
        (room_receipt_body noEvidence hdated (noObservation count) observation n))
  have hd : Distinct (oneChecker.files noEvidence observation ++ [(lit "RECEIPT.json", receipt_raw)]) := by
    unfold Distinct
    rw [List.map_append, files_names]
    show (MANIFEST ++ [lit "RECEIPT.json"]).Nodup
    decide
  obtain ⟨D₂, hmkdir, hfill⟩ := fill_one hd
  rw [List.foldlM_append] at hfill
  obtain ⟨D₃, hfiles, hlast⟩ := bind_eq_ok.mp hfill
  rw [List.foldlM_cons] at hlast
  obtain ⟨D₄, hfresh, hlast⟩ := bind_eq_ok.mp hlast
  obtain rfl := pure_eq_ok.mp hlast
  refine ⟨receipt, D₄, ?_⟩
  refine seq_eq_ok.mpr ⟨needOr_eq_ok.mpr hdated, bind_eq_ok.mpr ⟨_, check_none hbounded, ?_⟩⟩
  refine bind_eq_ok.mpr ⟨_, hbounded, bind_eq_ok.mpr ⟨_, hwritten, ?_⟩⟩
  refine seq_eq_ok.mpr ⟨needOr_eq_ok.mpr hsmall, bind_eq_ok.mpr ⟨_, hsettle, ?_⟩⟩
  refine seq_eq_ok.mpr ⟨needOr_eq_ok.mpr ?_, seq_eq_ok.mpr ⟨needOr_eq_ok.mpr ⟨by decide, by decide⟩, ?_⟩⟩
  · show total ≤ 1000000
    omega
  refine bind_eq_ok.mpr ⟨madeDisk, hmkdir, bind_eq_ok.mpr ⟨D₃, hfiles, ?_⟩⟩
  exact bind_eq_ok.mpr ⟨D₄, hfresh, rfl⟩

theorem retain_none : ∃ receipt D', oneChecker.retain emptyDisk "/e" "t" noEvidence = .ok (receipt, D') := by
  obtain ⟨count, hcount, hbounded⟩ := bounded_none
  have hcanonical := canonical_noObservation hcount
  have hsize := size_bytesOf hcanonical
  have hroom := room_noObservation count
  exact retain_written hcount hbounded (lift_eq_ok.mpr (bytesOf_eq hcanonical)) (by omega)

/-! ## Evidence that was retained -/

/-- Retained evidence reads back: the loop that signs the receipt settles, the
receipt says the bytes of all files and its own, and as long as nothing changes
there the same checker verifies what was retained and returns the observation
again, whatever its state. -/
theorem retained_evidence_reads_back (C : TestObservationChecker) (hpool : Writable C.pool)
    (hhost : Signs C.pool.owner.host) (D : Disk) (destination recorded_at : Str) (E : Evidence) :
    C.retain D destination recorded_at E ≠ .error (.refused "RECEIPT_SIZE_UNSTABLE") ∧
      ∀ receipt D', C.retain D destination recorded_at E = .ok (receipt, D') →
        receipt.body.get? "retained_bytes" =
          some (.int (D'.bytesIn (parts destination) (MANIFEST ++ [lit "RECEIPT.json"]))) ∧
        ∀ D'', Disk.Kept D' D'' (parts destination) →
          ∃ observed, C.check E = .ok observed ∧ C.verify_retained D'' destination = .ok observed := by
  refine ⟨TestObservationChecker.retain_stable hhost D destination recorded_at E, ?_⟩
  intro receipt D' h
  obtain ⟨observed, count, observation, receipt_raw, total, hretains⟩ := retains_of_retain h
  refine ⟨said_bytes hretains, fun D'' hkept => ?_⟩
  exact ⟨observed, hretains.checked, verify_retained_of_retains hpool hhost hretains hkept⟩

/-- What this checker retains of no evidence reads back. -/
theorem retained_evidence_reads_back_small : ∃ receipt D',
    oneChecker.retain emptyDisk "/e" "t" noEvidence = .ok (receipt, D') ∧
      ∃ observed, oneChecker.check noEvidence = .ok observed ∧
        oneChecker.verify_retained D' "/e" = .ok observed := by
  obtain ⟨receipt, D', h⟩ := retain_none
  obtain ⟨-, hreads⟩ := retained_evidence_reads_back oneChecker writable_zeroService signs_zeroHost emptyDisk
    "/e" "t" noEvidence
  exact ⟨receipt, D', h, (hreads receipt D' h).2 D' fun _ _ => ⟨rfl, rfl⟩⟩

end vfy.service_tests
