-- The budget of a child ledger over every sequence of its calls. A small
-- ledger shows one: its child is reserved, dispatched, completed and settled.
import VerifyRun.ChildLedgerLaws
import VerifyRun.TextSize

namespace vfy.child_ledger

open python keys outcomes load

/-! ## Budget safety -/

/-- What holds of a ledger, and of every later state of it. -/
structure Safe (L : Ledger) (limits : Amounts) (record : Envelope Body) : Prop where
  /-- The usage that the code computes is the exposure of the children. -/
  usage : ∃ used, usage record.body = .ok used ∧
    ∀ l ∈ limits, used.lookup l.1 = some (record.body.exposure l.1)
  /-- Every child goes through its events in order. -/
  ordered : ∀ c ∈ record.body.children, (c.reservation.isSome ↔ c.attempt_id.isSome) ∧
    (c.dispatch.isSome → c.reservation.isSome) ∧ (c.completion.isSome → c.dispatch.isSome) ∧
    (c.settlement.isSome → c.completion.isSome)
  /-- No attempt serves two children. -/
  attempts : (record.body.children.filterMap Child.attempt_id).Nodup
  /-- While no measurement is above its reservation, no axis is above its limit. -/
  within : MeasuredWithin record.body → WithinLimits limits record.body
  /-- An accepted call records one event, which its child did not have. -/
  once : ∀ op next, step L record op = .ok next → Advances limits op.kind record.body next.body
  /-- A reservation is admitted only where no axis is then above its limit. -/
  admitted : ∀ op next, op.kind = .reservation → step L record op = .ok next →
    WithinLimits limits next.body
  /-- What a child holds falls only at its settlement, to what was measured. -/
  falls : ∀ op next, step L record op = .ok next → ∀ (i : Nat) (c c' : Child) (axis : Str),
    record.body.children[i]? = some c → next.body.children[i]? = some c' →
    c'.exposure axis < c.exposure axis → op.kind = .settlement ∧ c.settlement = none ∧
      c'.settlement.isSome ∧ ∃ e q, c.completion = some e ∧
        e.body.fields.service_performed ≠ lit "UNKNOWN" ∧ c.measured axis = some q ∧
        c'.exposure axis = q
  /-- Later calls keep every event, and what is unknown stays held. -/
  later : ∀ ops, Kept record.body (run L record ops).body ∧ ∀ (i : Nat) (c c' : Child) (axis : Str),
    record.body.children[i]? = some c → (run L record ops).body.children[i]? = some c' →
    Unmeasured c axis → c'.exposure axis = c.exposure axis

theorem falls_advances {limits : Amounts} {kind : Kind} {body body' : Body} (hg : Good limits body)
    (h : Advances limits kind body body') {j : Nat} {c c' : Child} {axis : Str}
    (hc : body.children[j]? = some c) (hc' : body'.children[j]? = some c')
    (hlt : c'.exposure axis < c.exposure axis) : kind = .settlement ∧ c.settlement = none ∧
      c'.settlement.isSome ∧ ∃ e q, c.completion = some e ∧
        e.body.fields.service_performed ≠ lit "UNKNOWN" ∧ c.measured axis = some q ∧
        c'.exposure axis = q := by
  obtain ⟨i, d, d', hd, hp, hset, -⟩ := h
  rw [hset] at hc'
  by_cases hij : i = j
  · subst hij
    obtain rfl : d = c := Option.some.inj (hd.symm.trans hc)
    rw [List.getElem?_set_self (List.getElem?_eq_some_iff.mp hd).1] at hc'
    obtain rfl := Option.some.inj hc'
    rcases exposure_progress (hg.children d (List.mem_of_getElem? hd)) hp axis with hle | h
    · exact absurd hle (not_le_of_gt hlt)
    · exact h
  · rw [List.getElem?_set_ne hij, hc] at hc'
    obtain rfl := Option.some.inj hc'
    exact absurd hlt (lt_irrefl _)

/-- A ledger that starts empty keeps its budget over every sequence of calls. -/
theorem budget_is_safe {L : Ledger} {created : Envelope Body} (h : create L = .ok created)
    (ops : List Op) : ∃ limits, axes created.body.budget.resource_rows "limit" = .ok limits ∧
      allKnown limits ∧ Safe L limits (run L created ops) := by
  obtain ⟨limits, hcreated, hfresh⟩ := good_create h
  obtain ⟨hg, -⟩ := good_run (L := L) ops hcreated
  have hstart : MeasuredWithin created.body → WithinLimits limits created.body := by
    intro _ l hl limit hlimit
    have hzero : created.body.exposure l.1 = 0 := by
      refine List.sum_eq_zero fun q hq => ?_
      obtain ⟨c, hc, rfl⟩ := List.mem_map.mp hq
      exact exposure_unreserved (by simp [Child.reserved, hfresh c hc])
    rw [hzero]
    exact axes_nonneg hcreated.budget l hl limit hlimit
  refine ⟨limits, hcreated.budget, hcreated.known, ?_⟩
  constructor
  case usage =>
    obtain ⟨used, hused, ht⟩ := usage_good hg
    exact ⟨used, hused, fun l hl => ht l.1 (List.mem_map_of_mem hl)⟩
  case ordered =>
    intro c hc
    have hgood := hg.children c hc
    exact ⟨hgood.attempt, hgood.dispatched, hgood.completed, hgood.closed⟩
  case attempts => exact hg.attempts
  case within => exact within_run ops hcreated hstart
  case once => exact fun op next hstep => step_advances hg hstep
  case admitted =>
    intro op next hkind hstep
    exact within_reserve hg (hkind ▸ step_advances hg hstep)
  case falls =>
    intro op next hstep i c c' axis hc hc' hlt
    exact falls_advances hg (step_advances hg hstep) hc hc' hlt
  case later =>
    intro more
    obtain ⟨hmore, hkept⟩ := good_run (L := L) more hg
    refine ⟨hkept, fun i c c' axis hc hc' hunmeasured => ?_⟩
    exact exposure_unmeasured (hg.children c (List.mem_of_getElem? hc))
      (hmore.children c' (List.mem_of_getElem? hc')) (hkept.child hc hc') hunmeasured

/-! ## A small ledger -/

def smallIdentity : Value := .dict [("subject_sha256", .str zeros)]

def smallStart : Value := .dict
  [("attempt_id", .str "a"), ("automatic_retry", .bool false),
   ("input_artifacts", .list [.dict [("path", .str "p"), ("sha256", .str zeros)]]),
   ("native_child_population", .dict [("expected_child_ids", .list [.str "c"]),
      ("state", .str "DECLARED_BEFORE_DISPATCH")]),
   ("operation_id", .str "o"), ("state", .str "STARTED"), ("task_identity", smallIdentity),
   ("task_key", .str "t")]

def smallRow : Value := .dict
  [("aggregation", .str "SUM"), ("axis_id", .str "captured_console_bytes"), ("limit", .str "5"),
   ("scope", .str "DIRECT_CHILD_CAPTURED_OUTPUT"), ("unit", .str "byte")]

/-- A budget for the START of this digest. -/
def smallBudgetFor (start_sha256 : Str) : Value := .dict
  [("budget_id", .str "b"), ("parent_start_sha256", .str start_sha256),
   ("resource_rows", .list [smallRow]), ("schema", .str BUDGET_SCHEMA),
   ("task_identity", smallIdentity), ("task_key", .str "t")]

def smallBudget : Value := smallBudgetFor (sha (bytesOf smallStart))

def smallHost : Host where
  public_key_hex _ := "k"
  sign _ _ := "s"
  verify key signature _ := decide (key = lit "k" ∧ signature = lit "s")
  producer := .dict [("source_sha256", .str zeros)]

def smallLedger : Ledger where
  host := smallHost
  key := []
  issuer := "i"
  trust := [("i", { public_key_hex := "k", producer_identity := smallHost.producer })]
  start_bytes := bytesOf smallStart
  basis := { path := "p", sha256 := zeros }
  budget_bytes := bytesOf smallBudget

theorem canonical_smallStart : smallStart.Canonical := by
  simp [smallStart, smallIdentity, zeros, Distinct]

theorem canonical_smallBudget : smallBudget.Canonical := by
  simp [smallBudget, smallBudgetFor, smallIdentity, smallRow, zeros, Distinct, BUDGET_SCHEMA, encodable_sha]

theorem size_smallStart : (bytesOf smallStart).size ≤ MAX_BYTES := by
  have hlength : ((canon.encode smallStart).toOption.getD []).length = 395 := by decide +kernel
  obtain ⟨t, ht⟩ := canon.encode_of_canonical canonical_smallStart
  have hb := bytesOf_eq canonical_smallStart
  rw [canon.canonical_bytes_eq_ok.mpr ⟨t, ht, rfl⟩, Except.ok.injEq] at hb
  rw [ht] at hlength
  rw [← hb]
  refine le_trans (size_utf8Encode t) ?_
  rw [show t.length = 395 from hlength]
  decide


theorem isStart_smallStart : IsStart smallStart { path := "p", sha256 := zeros } "t" "o" "a" [lit "c"] where
  state := rfl
  automatic_retry := rfl
  task_key := ⟨rfl, by decide⟩
  operation_id := ⟨rfl, by decide⟩
  attempt_id := ⟨rfl, by decide⟩
  subject := ⟨zeros, rfl, hex64_zeros⟩
  population := ⟨_, rfl, rfl, rfl⟩
  ids := by decide
  named := ⟨by decide, hex64_zeros⟩
  artifacts := ⟨_, rfl, by decide⟩

def smallBound : Bound where
  task_key := "t"
  task_identity := smallIdentity
  parent_binding := { operation_id := "o", attempt_id := "a",
                      start_sha256 := sha (bytesOf smallStart),
                      basis_artifact := { path := "p", sha256 := zeros } }
  expected_child_ids := [lit "c"]

theorem smallStart_bound :
    parent_binding smallLedger.start_bytes smallLedger.basis = .ok smallBound := by
  have hdecode : decode_parent_start smallLedger.start_bytes = .ok smallStart := by
    refine (decode_parent_start_canonical canonical_smallStart (by decide) ?_
      (bytesOf_eq canonical_smallStart) size_smallStart).trans ?_
    · simp [smallIdentity, Value.depth, Value.depthMembers, Value.depthItems]
    · rfl
  exact isStart_smallStart.bound hdecode

theorem amount_of {s : Str} {q : ℚ} (hlength : s.length ≤ 64)
    (hpattern : matchesPattern "(0|[1-9][0-9]*)(/[1-9][0-9]*)?" s = true) (hfraction : fraction s = q)
    (htext : fractionText q = s) : amount (.str s) = .ok q := by
  show (need _ >>= fun _ => need (fractionText (fraction s) = s) >>= fun _ => _) = _
  rw [need_eq_ok.mpr ⟨hlength, hpattern⟩, ok_bind, hfraction, need_eq_ok.mpr htext]
  rfl

theorem amount_small : amount (.str "5") = .ok 5 :=
  amount_of (by decide) (by decide +kernel) (by decide +kernel) (by decide)

theorem axes_small :
    axes (.list [smallRow]) "limit" = .ok [(lit "captured_console_bytes", some 5)] := by
  have hkeys : needKeys smallRow (rowKeys "limit") = .ok _ := needKeys_eq_ok.mpr ⟨rfl, by decide⟩
  have hget : ∀ (k : Str) (v : Value), smallRow.get? k = some v → getItem smallRow k = .ok v :=
    fun k v h => getItem_eq_ok.mpr h
  have hrow : add_axis "limit" [] smallRow = .ok [(lit "captured_console_bytes", some 5)] := by
    unfold add_axis
    rw [hkeys, ok_bind, hget "axis_id" (.str "captured_console_bytes") rfl, hget "unit" (.str "byte") rfl,
      hget "aggregation" (.str "SUM") rfl,
      hget "scope" (.str "DIRECT_CHILD_CAPTURED_OUTPUT") rfl, hget "limit" (.str "5") rfl]
    simp only [ok_bind, string, lift_ok]
    rw [need_eq_ok.mpr (by decide), ok_bind, need_eq_ok.mpr (by decide), ok_bind, if_neg (by decide),
      amount_small]
    rfl
  show (need _ >>= fun _ => [smallRow].foldlM (add_axis "limit") []) = _
  rw [need_eq_ok.mpr (by decide), ok_bind, List.foldlM_cons, hrow]
  rfl

theorem normalize_smallBudgetFor (start_sha256 : Str) :
    (smallBudgetFor start_sha256).normalize = smallBudgetFor start_sha256 := rfl

theorem load_smallBudget : load.load_json_bytes smallLedger.budget_bytes = .ok smallBudget := by
  rw [show smallLedger.budget_bytes = bytesOf smallBudget from rfl,
    load_canonical_bytes canonical_smallBudget (bytesOf_eq canonical_smallBudget), if_pos]
  · exact congrArg Except.ok (normalize_smallBudgetFor _)
  · simp [smallBudget, smallBudgetFor, smallIdentity, smallRow, Value.depth, Value.depthMembers,
      Value.depthItems]

theorem check_smallBudget (bound : Bound) (start_bytes : ByteArray) (hkey : bound.task_key = "t")
    (hidentity : bound.task_identity = smallIdentity) :
    check_budget bound start_bytes (smallBudgetFor (sha start_bytes)) = .ok
      { budget_id := "b", task_key := bound.task_key, task_identity := smallIdentity,
        parent_start_sha256 := sha start_bytes, resource_rows := .list [smallRow] } := by
  have hget : ∀ (k : Str) (v : Value), (smallBudgetFor (sha start_bytes)).get? k = some v →
      getItem (smallBudgetFor (sha start_bytes)) k = .ok v := fun k v h => getItem_eq_ok.mpr h
  unfold check_budget
  rw [hget "schema" (.str BUDGET_SCHEMA) rfl, hget "budget_id" (.str "b") rfl,
    hget "task_key" (.str "t") rfl, hget "task_identity" smallIdentity rfl,
    hget "parent_start_sha256" (.str (sha start_bytes)) rfl,
    hget "resource_rows" (.list [smallRow]) rfl]
  simp only [ok_bind, string, lift_ok]
  have heq : python.eq smallIdentity smallIdentity = true := rfl
  rw [need_eq_ok.mpr (by simp), ok_bind, hkey, hidentity,
    need_eq_ok.mpr ⟨by simp, heq, by simp⟩, ok_bind, axes_small, ok_bind,
    need_eq_ok.mpr (by decide)]
  rfl

/-! ## Values that are not large -/

/-- A value that can be written, and how long and how deep it is at most. -/
structure Small (v : Value) (room depth : Nat) : Prop where
  canonical : v.Canonical
  room : canon.textRoom v ≤ room
  depth : v.depth ≤ depth

theorem Small.mono {v : Value} {room room' depth depth' : Nat} (h : Small v room depth)
    (hroom : room ≤ room') (hdepth : depth ≤ depth') : Small v room' depth' :=
  ⟨h.canonical, h.room.trans hroom, h.depth.trans hdepth⟩

theorem small_null : Small .null 4 0 := ⟨Value.canonical_null, le_refl _, le_refl _⟩

/-- Two mappings that share no key. -/
theorem Small.append {a b : List (Str × Value)} {room room' depth : Nat}
    (ha : Small (.dict a) room depth) (hb : Small (.dict b) room' depth)
    (hkeys : ∀ m ∈ a, ∀ n ∈ b, m.1 ≠ n.1) : Small (.dict (a ++ b)) (room + room') depth := by
  obtain ⟨hda, hka, hva⟩ := Value.canonical_dict.mp ha.canonical
  obtain ⟨hdb, hkb, hvb⟩ := Value.canonical_dict.mp hb.canonical
  refine ⟨Value.canonical_dict.mpr ⟨?_, ?_, ?_⟩, ?_, ?_⟩
  · unfold Distinct
    rw [List.map_append]
    refine List.nodup_append.mpr ⟨hda, hdb, fun k hk k' hk' => ?_⟩
    obtain ⟨m, hm, rfl⟩ := List.mem_map.mp hk
    obtain ⟨n, hn, rfl⟩ := List.mem_map.mp hk'
    exact hkeys m hm n hn
  · exact List.forall_mem_append.mpr ⟨hka, hkb⟩
  · exact List.forall_mem_append.mpr ⟨hva, hvb⟩
  · have hra := ha.room
    have hrb := hb.room
    simp only [canon.textRoom, canon.textRoomMembers_eq, List.map_append, List.sum_append] at hra hrb ⊢
    omega
  · have hea := ha.depth
    have heb := hb.depth
    cases depth with
    | zero => simp [Value.depth] at hea
    | succ depth =>
      rw [Value.depth_dict_le] at hea heb ⊢
      exact List.forall_mem_append.mpr ⟨hea, heb⟩

/-- A mapping of one member. -/
theorem Small.member {v : Value} {room depth : Nat} (h : Small v room depth) (k : String)
    (hk : (lit k).length ≤ 2 ^ 5) : Small (.dict [(lit k, v)]) (room + 2 ^ 8) (depth + 1) := by
  refine ⟨?_, ?_, ?_⟩
  · simp [Distinct, h.canonical]
  · have hroom := h.room
    simp only [canon.textRoom, canon.textRoomMembers]
    omega
  · rw [Value.depth_dict_le]
    simpa using h.depth

/-! ## The records of the small ledger -/

section Signing

variable {β : Type} [Encoded β] {body : β} {record : Envelope β}

theorem signed_small (h : (value body).Canonical) :
    ∃ record, envelope smallHost body [] "i" = .ok record ∧ (value record).Canonical := by
  refine envelope_canonical h ?_ ?_ ?_ _
  · simp [smallHost, zeros, Distinct]
  · exact fun _ _ => encodable_lit _
  · exact encodable_lit _

theorem authenticate_small (h : envelope smallHost body [] "i" = .ok record)
    (hauthority : getMethod (value body) "authority_granted" = .ok (some (.bool false))) :
    authenticate smallHost record smallLedger.trust = .ok body :=
  authenticate_envelope h rfl (eq_same (by simp [smallHost, Distinct])) (fun _ => rfl) hauthority

/-- A record is not much larger than its body. -/
theorem small_signed {host : Host} {key : List UInt8} {issuer : Str} {room depth : Nat}
    (h : Small (value body) room (depth + 1))
    (hhead : Small (.dict [("issuer_identity", .str issuer), ("producer_identity", host.producer)])
      (2 ^ 11) (depth + 2))
    (hsign : ∀ bytes, host.sign key bytes = lit "s")
    (hrecord : envelope host body key issuer = .ok record) :
    Small (value record) (room + 2 ^ 12) (depth + 2) := by
  obtain ⟨_, b, rfl⟩ := envelope_shape hrecord
  rw [hsign]
  have htail : Small (.dict [("signature", .str "s"), ("sha256", .str (sha b))]) (2 ^ 10) (depth + 2) := by
    refine ⟨?_, ?_, ?_⟩
    · simp [encodable_sha, Distinct]
    · simp [canon.textRoom, canon.textRoomMembers]
      decide
    · simp [Value.depth, Value.depthMembers]
  have hall := (hhead.append (h.member "body" (by decide)) (by simp)).append htail (by simp)
  exact hall.mono (by omega) le_rfl

theorem small_record {room depth : Nat} (h : Small (value body) room (depth + 1))
    (hrecord : envelope smallHost body [] "i" = .ok record) :
    Small (value record) (room + 2 ^ 12) (depth + 2) := by
  refine small_signed h ⟨?_, ?_, ?_⟩ (fun _ => rfl) hrecord
  · simp [smallHost, zeros, Distinct]
  · decide
  · simp [smallHost, Value.depth, Value.depthMembers]

end Signing

/-- The record of the budget, as the ledger keeps it. -/
def smallRecordBudget : Budget where
  budget_id := "b"
  task_key := "t"
  task_identity := smallIdentity
  parent_start_sha256 := sha (bytesOf smallStart)
  resource_rows := .list [smallRow]

/-- The body of the small ledger, with its one child. -/
def smallBody (revision : Nat) (previous : Option Str) (c : Child) : Body where
  bound := smallBound
  revision := revision
  previous_snapshot_sha256 := previous
  budget := smallRecordBudget
  budget_sha256 := sha (bytesOf smallBudget)
  children := [c]

theorem small_child {c : Child} {room : Nat} (hid : c.child_id = lit "c")
    (hattempt : ∀ a ∈ c.attempt_id, a = lit "a") (hreservation : Small (orNull c.reservation) room 4)
    (hdispatch : Small (orNull c.dispatch) room 4) (hcompletion : Small (orNull c.completion) room 4)
    (hsettlement : Small (orNull c.settlement) room 4) : Small c.value (4 * room + 2 ^ 12) 5 := by
  have hname : Small (.dict [(lit "child_id", .str c.child_id)]) (2 ^ 8) 5 := by
    rw [hid]
    exact ⟨by simp [Distinct], by decide, by simp [Value.depth, Value.depthMembers]⟩
  have htail : Small (.dict (c.attempt_id.map fun id => (lit "attempt_id", Value.str id)).toList)
      (2 ^ 8) 5 := by
    cases h : c.attempt_id with
    | none => exact ⟨by simp [Distinct], by decide, by simp [Value.depth, Value.depthMembers]⟩
    | some a =>
      obtain rfl := hattempt a h
      exact ⟨by simp [Distinct], by decide, by simp [Value.depth, Value.depthMembers]⟩
  have hevents := ((hreservation.member "reservation" (by decide)).append
    (hdispatch.member "dispatch" (by decide)) (by simp)).append
    ((hcompletion.member "completion" (by decide)).append
      (hsettlement.member "settlement" (by decide)) (by simp)) (by simp)
  have hall := (hname.append hevents (by simp)).append htail (by simp)
  exact hall.mono (by omega) le_rfl

theorem small_body {c : Child} {revision room : Nat} {previous : Option Str}
    (hrevision : revision ≤ 2 ^ 10) (hprevious : ∀ s ∈ previous, ∃ b, s = sha b)
    (hc : Small c.value room 5) : Small (value (smallBody revision previous c)) (room + 2 ^ 14) 7 := by
  have hhead : Small (.dict [("task_key", .str smallBound.task_key),
      ("task_identity", smallBound.task_identity),
      ("parent_binding", smallBound.parent_binding.value),
      ("expected_child_ids", .list (smallBound.expected_child_ids.map .str)),
      ("schema", .str SCHEMA), ("revision", .int revision)]) (2 ^ 12) 7 := by
    refine ⟨?_, ?_, ?_⟩
    · simp [smallBound, smallIdentity, ParentBinding.value, Artifact.value, zeros, SCHEMA,
        encodable_sha, Distinct, Value.SafeInteger]
      omega
    · simp [smallBound, smallIdentity, ParentBinding.value, Artifact.value, zeros, SCHEMA,
        canon.textRoom, canon.textRoomMembers, canon.textRoomItems]
      decide
    · simp [smallBound, smallIdentity, ParentBinding.value, Artifact.value, Value.depth,
        Value.depthMembers, Value.depthItems]
  have hlink : Small (.dict [("previous_snapshot_sha256", (previous.map .str).getD .null)])
      (2 ^ 10) 7 := by
    cases previous with
    | none => exact ⟨by simp [Distinct], by decide, by simp [Value.depth, Value.depthMembers]⟩
    | some s =>
      obtain ⟨b, rfl⟩ := hprevious s rfl
      refine ⟨by simp [encodable_sha, Distinct], ?_, by simp [Value.depth, Value.depthMembers]⟩
      simp [canon.textRoom, canon.textRoomMembers]
      decide
  have hbudget : Small (.dict [("budget", .dict (smallRecordBudget.members ++
      [(lit "budget_sha256", .str (sha (bytesOf smallBudget))),
       (lit "domain", .str "THIS_LOCAL_LEDGER_ONLY")]))]) (2 ^ 13) 7 := by
    refine ⟨?_, ?_, ?_⟩
    · simp [smallRecordBudget, smallIdentity, smallRow, Budget.members, BUDGET_SCHEMA, zeros,
        encodable_sha, Distinct]
    · simp [smallRecordBudget, smallIdentity, smallRow, Budget.members, BUDGET_SCHEMA, zeros,
        canon.textRoom, canon.textRoomMembers, canon.textRoomItems]
      decide
    · simp [smallRecordBudget, smallIdentity, smallRow, Budget.members, Value.depth,
        Value.depthMembers, Value.depthItems]
  have hchildren : Small (.list [c.value]) (room + 3) 6 := by
    refine ⟨by simp [hc.canonical], ?_, ?_⟩
    · have hroom := hc.room
      simp only [canon.textRoom, canon.textRoomItems]
      omega
    · rw [Value.depth_list_le]
      simpa using hc.depth
  have htail : Small (.dict [("unsupported_dimensions", UNKNOWN_DIMENSIONS),
      ("authority_granted", .bool false), ("automatic_retry", .bool false)]) (2 ^ 11) 7 := by
    refine ⟨by simp [UNKNOWN_DIMENSIONS, Distinct], by decide, ?_⟩
    simp [UNKNOWN_DIMENSIONS, Value.depth, Value.depthMembers, Value.depthItems]
  have hall := ((hhead.append hlink (by simp)).append hbudget (by simp)).append
    ((hchildren.member "children" (by decide)).append htail (by simp)) (by simp)
  exact hall.mono (by omega) le_rfl

/-! ## The events of the child -/

/-- A row of the axis of the small budget, with an amount under a field. -/
def rowOf (field amount : Str) : Value := .dict
  [("aggregation", .str "SUM"), ("axis_id", .str "captured_console_bytes"), (field, .str amount),
   ("scope", .str "DIRECT_CHILD_CAPTURED_OUTPUT"), ("unit", .str "byte")]

def smallBind : Bind := bindOf (smallBody 0 none (freshChild "c")) "c" "a"

def eventId (kind : Kind) : Str := kind.text ++ lit "-" ++ sha (bytesOf (.dict smallBind.members))

def smallEvent {φ : Type} (kind : Kind) (fields : φ) : Event φ where
  bind := smallBind
  schema := lit "vfy.child-" ++ kind.text ++ lit "/1"
  event_id := eventId kind
  recorded_at := "now"
  fields := fields

def reservedFields (reservation_id : Option Str) : ReservationFields where
  issued_at := "now"
  resource_rows := .list [rowOf "reserved_amount" "5"]
  state := RESERVED
  reservation_id := reservation_id

def dispatchedFields (reservation_sha256 : Str) : DispatchFields where
  reservation_id := eventId .reservation
  reservation_sha256 := reservation_sha256
  state := INTENT

/-- What is observed of the child: it used less than was reserved for it. -/
def smallObservation : Value := .dict
  [("schema", .str "vfy.child-observation/1"), ("reservation_id", .str (eventId .reservation)),
   ("service_performed", .str "PERFORMED"),
   ("resource_rows", .list [rowOf "measured_amount" "2"])]

def smallArtifact : Artifact where
  path := "p"
  sha256 := sha (bytesOf smallObservation)

def completedFields (reservation_sha256 : Str) : CompletionFields where
  reservation_id := eventId .reservation
  reservation_sha256 := reservation_sha256
  service_performed := "PERFORMED"
  resource_measured := "RECORDED_PRODUCER_OBSERVATION"
  financial_or_external_settlement := "UNKNOWN"
  observation := smallArtifact
  measurement_assurance := ASSURANCE
  resource_rows := .list [rowOf "measured_amount" "2"]

def settledRow : Value := .dict
  [("axis_id", .str "captured_console_bytes"), ("unit", .str "byte"), ("aggregation", .str "SUM"),
   ("scope", .str "DIRECT_CHILD_CAPTURED_OUTPUT"), ("measured_amount", .str "2"),
   ("settled_amount_or_UNKNOWN", .str "2")]

def settledFields (reservation_sha256 completion_sha256 settlement_id : Str) : SettlementFields where
  settled_at := "now"
  settlement_id := settlement_id
  reservation_id := eventId .reservation
  reservation_sha256 := reservation_sha256
  completion_sha256 := completion_sha256
  service_performed := "PERFORMED"
  resource_measured := "RECORDED_PRODUCER_OBSERVATION"
  financial_or_external_settlement := "UNKNOWN"
  state := ACCOUNTED
  resource_rows := .list [settledRow]

theorem encodable_eventId (kind : Kind) : Encodable (eventId kind) := by
  cases kind <;> simp [eventId, Kind.text, encodable_sha]

theorem small_bind : Small (.dict smallBind.members) (2 ^ 12) 2 := by
  refine ⟨?_, ?_, ?_⟩
  · simp [smallBind, bindOf, smallBody, smallBound, smallRecordBudget, smallIdentity, Bind.members,
      Artifact.value, zeros, encodable_sha, Distinct]
  · simp [smallBind, bindOf, smallBody, smallBound, smallRecordBudget, smallIdentity, Bind.members,
      Artifact.value, zeros, canon.textRoom, canon.textRoomMembers, canon.textRoomItems]
    decide
  · simp [smallBind, bindOf, smallBody, smallBound, smallIdentity, Bind.members, Artifact.value,
      Value.depth, Value.depthMembers, Value.depthItems]

/-- An event of the child is not large, where its fields are not. -/
theorem small_event {φ : Type} [Fields φ] (kind : Kind) {fields : φ}
    (hfields : Small (.dict (Fields.members fields)) (2 ^ 13) 3)
    (hbind : ∀ m ∈ smallBind.members, ∀ n ∈ Fields.members fields, m.1 ≠ n.1)
    (hnew : ∀ n ∈ Fields.members fields, n.1 ∉ [lit "schema", lit "event_id", lit "recorded_at",
      lit "authority_granted", lit "automatic_retry"]) :
    Small (value (smallEvent kind fields)) (2 ^ 14) 3 := by
  have hmiddle : Small (.dict [("schema", .str (smallEvent kind fields).schema),
      ("event_id", .str (eventId kind)), ("recorded_at", .str "now"),
      ("authority_granted", .bool false), ("automatic_retry", .bool false)]) (2 ^ 12) 3 := by
    refine ⟨?_, ?_, ?_⟩
    · cases kind <;> simp [smallEvent, encodable_eventId, Kind.text, Distinct]
    · cases kind <;> simp [smallEvent, eventId, Kind.text, canon.textRoom, canon.textRoomMembers] <;>
        decide
    · simp [Value.depth, Value.depthMembers]
  have hhead := (small_bind.mono le_rfl (by decide : 2 ≤ 3)).append hmiddle (by
    simp [smallBind, bindOf, Bind.members])
  refine (hhead.append hfields ?_).mono (by decide) le_rfl
  intro m hm n hn
  rcases List.mem_append.mp hm with hm | hm
  · exact hbind m hm n hn
  · intro heq
    refine hnew n hn (heq ▸ ?_)
    simpa using List.mem_map_of_mem (f := Prod.fst) hm

theorem small_reserved {reservation_id : Option Str}
    (hid : ∀ id ∈ reservation_id, id = eventId .reservation) :
    Small (value (smallEvent .reservation (reservedFields reservation_id))) (2 ^ 14) 3 := by
  have hrest : Small (.dict [("issued_at", .str "now"),
      ("resource_rows", .list [rowOf "reserved_amount" "5"]), ("state", .str RESERVED)]) (2 ^ 12) 3 := by
    refine ⟨by simp [rowOf, RESERVED, Distinct], by decide, ?_⟩
    simp [rowOf, Value.depth, Value.depthMembers, Value.depthItems]
  have hlast : Small (.dict (reservation_id.map fun id =>
      (lit "reservation_id", Value.str id)).toList) (2 ^ 11) 3 := by
    cases reservation_id with
    | none => exact ⟨by simp [Distinct], by decide, by simp [Value.depth, Value.depthMembers]⟩
    | some id =>
      obtain rfl := hid id rfl
      refine ⟨by simp [encodable_eventId, Distinct], ?_, by simp [Value.depth, Value.depthMembers]⟩
      simp [eventId, Kind.text, canon.textRoom, canon.textRoomMembers]
      decide
  refine small_event _ ((hrest.append hlast ?_).mono (by decide) le_rfl) ?_ ?_
  · cases reservation_id <;> simp
  · cases reservation_id <;> simp [smallBind, bindOf, Bind.members, Fields.members, reservedFields]
  · cases reservation_id <;> simp [Fields.members, reservedFields]

theorem small_dispatched (b : ByteArray) :
    Small (value (smallEvent .dispatch (dispatchedFields (sha b)))) (2 ^ 14) 3 := by
  refine small_event _ ⟨?_, ?_, ?_⟩ ?_ ?_
  · simp [Fields.members, dispatchedFields, encodable_eventId, encodable_sha, INTENT, Distinct]
  · simp [Fields.members, dispatchedFields, eventId, Kind.text, INTENT, canon.textRoom,
      canon.textRoomMembers]
    decide
  · simp [Fields.members, Value.depth, Value.depthMembers]
  · simp [smallBind, bindOf, Bind.members, Fields.members]
  · simp [Fields.members]

theorem small_completed (b : ByteArray) :
    Small (value (smallEvent .completion (completedFields (sha b)))) (2 ^ 14) 3 := by
  refine small_event _ ⟨?_, ?_, ?_⟩ ?_ ?_
  · simp [Fields.members, completedFields, smallArtifact, Artifact.value, rowOf, encodable_eventId,
      encodable_sha, ASSURANCE, Distinct]
  · simp [Fields.members, completedFields, smallArtifact, Artifact.value, rowOf, eventId, Kind.text,
      ASSURANCE, canon.textRoom, canon.textRoomMembers, canon.textRoomItems]
    decide
  · simp [Fields.members, completedFields, Artifact.value, rowOf, Value.depth, Value.depthMembers,
      Value.depthItems]
  · simp [smallBind, bindOf, Bind.members, Fields.members]
  · simp [Fields.members]

theorem small_settled (b b' d : ByteArray) :
    Small (value (smallEvent .settlement (settledFields (sha b) (sha b') (lit "settlement-" ++ sha d))))
      (2 ^ 14) 3 := by
  refine small_event _ ⟨?_, ?_, ?_⟩ ?_ ?_
  · simp [Fields.members, settledFields, settledRow, encodable_eventId, encodable_sha, ACCOUNTED,
      Distinct]
  · simp [Fields.members, settledFields, settledRow, eventId, Kind.text, ACCOUNTED, canon.textRoom,
      canon.textRoomMembers, canon.textRoomItems]
    decide
  · simp [Fields.members, settledFields, settledRow, Value.depth, Value.depthMembers,
      Value.depthItems]
  · simp [smallBind, bindOf, Bind.members, Fields.members]
  · simp [Fields.members]

/-! ## Axes -/

/-- The axis of the small budget, with an amount. -/
def bytesAxis (q : ℚ) : Amounts := [(lit "captured_console_bytes", some q)]

theorem axes_rowOf {field : Str} (hfield : field = lit "reserved_amount" ∨ field = lit "measured_amount")
    {s : Str} {q : ℚ} (hs : s ≠ lit "UNKNOWN") (hq : amount (.str s) = .ok q) :
    axes (.list [rowOf field s]) field = .ok (bytesAxis q) := by
  have hget : ∀ (k : Str) (v : Value), (rowOf field s).get? k = some v →
      getItem (rowOf field s) k = .ok v := fun k v h => getItem_eq_ok.mpr h
  have hunknown : ¬ isStr (.str s) (lit "UNKNOWN") = true := by simpa using hs
  have hkeys : needKeys (rowOf field s) (rowKeys field) = .ok _ := needKeys_eq_ok.mpr ⟨rfl, by
    rcases hfield with rfl | rfl <;> simp [rowKeys, sameKeys]⟩
  have hrow : add_axis field [] (rowOf field s) = .ok (bytesAxis q) := by
    unfold add_axis
    rw [hkeys, ok_bind,
      hget "axis_id" (.str "captured_console_bytes") (by rcases hfield with rfl | rfl <;> rfl),
      hget "unit" (.str "byte") (by rcases hfield with rfl | rfl <;> rfl),
      hget "aggregation" (.str "SUM") (by rcases hfield with rfl | rfl <;> rfl),
      hget "scope" (.str "DIRECT_CHILD_CAPTURED_OUTPUT") (by rcases hfield with rfl | rfl <;> rfl),
      hget field (.str s) (by rcases hfield with rfl | rfl <;> rfl)]
    simp only [ok_bind, string, lift_ok]
    rw [need_eq_ok.mpr (by decide), ok_bind, need_eq_ok.mpr (by decide), ok_bind, if_neg hunknown, hq]
    rfl
  have hcount : 0 < [rowOf field s].length ∧ [rowOf field s].length ≤ AXES.length :=
    ⟨Nat.one_pos, by simp [AXES]⟩
  show (need _ >>= fun _ => [rowOf field s].foldlM (add_axis field) []) = _
  rw [need_eq_ok.mpr hcount, ok_bind, List.foldlM_cons, hrow]
  rfl

theorem axes_reserved : axes (.list [rowOf "reserved_amount" "5"]) "reserved_amount" =
    .ok (bytesAxis 5) := axes_rowOf (.inl rfl) (by decide) amount_small

theorem axes_measured : axes (.list [rowOf "measured_amount" "2"]) "measured_amount" =
    .ok (bytesAxis 2) :=
  axes_rowOf (.inr rfl) (by decide)
    (amount_of (by decide) (by decide +kernel) (by decide +kernel) (by decide))

/-! ## The course of the child -/

theorem create_small :
    create smallLedger = envelope smallHost (smallBody 0 none (freshChild "c")) [] "i" := by
  have hkeys : needKeys smallBudget BUDGET_KEYS = .ok _ := needKeys_eq_ok.mpr ⟨rfl, by
    simp [sameKeys, BUDGET_KEYS]⟩
  have hsigner : check_signer smallLedger = .ok () := by
    have heq : python.eq smallHost.producer smallHost.producer = true := rfl
    show needOr _ _ = _
    exact needOr_eq_ok.mpr ⟨rfl, heq⟩
  unfold create
  rw [smallStart_bound, ok_bind, load_smallBudget, lift_ok, ok_bind, hkeys, ok_bind]
  rw [show smallLedger.start_bytes = bytesOf smallStart from rfl, smallBudget,
    check_smallBudget smallBound _ rfl rfl, ok_bind]
  dsimp only
  rw [need_eq_ok.mpr (by decide), ok_bind, hsigner, ok_bind]
  rfl

theorem small_freshChild : Small (freshChild "c").value (2 ^ 13) 5 := by
  have hnone : Small .null 4 4 := small_null.mono le_rfl (Nat.zero_le _)
  have hchild := small_child (c := freshChild "c") rfl (by simp [freshChild]) hnone hnone hnone hnone
  exact hchild.mono (by decide) le_rfl

/-- A ledger of one child and one axis is created. -/
theorem create_smallLedger : ∃ created, create smallLedger = .ok created := by
  have hbody : Small (value (smallBody 0 none (freshChild "c"))) _ 7 :=
    small_body (Nat.zero_le _) (by simp) small_freshChild
  obtain ⟨record, hrecord, -⟩ := signed_small hbody.canonical
  rw [create_small]
  exact ⟨record, hrecord⟩

/-- An event of the child, as the ledger makes it. -/
theorem event_small {φ : Type} [Fields φ] {revision : Nat} {previous : Option Str} {c₀ c : Child}
    (hid : c.child_id = lit "c") (hattempt : c.attempt_id = some (lit "a")) (kind : Kind) (fields : φ) :
    event smallLedger (smallBody revision previous c₀) c kind "now" fields =
      envelope smallHost (smallEvent kind fields) [] "i" := by
  have hdigest : digest (.dict smallBind.members) = .ok (sha (bytesOf (.dict smallBind.members))) := by
    rw [digest, raw, bytesOf_eq small_bind.canonical]
    rfl
  unfold event
  rw [need_eq_ok.mpr (by decide), ok_bind, hattempt]
  dsimp only
  rw [hid, show bindOf (smallBody revision previous c₀) "c" "a" = smallBind from rfl, hdigest, ok_bind]
  rfl

/-- An event of the child is accepted, where what is special to its kind is. -/
theorem check_event_small {φ : Type} [Fields φ] {revision : Nat} {previous : Option Str}
    {c₀ c : Child} (hid : c.child_id = lit "c") (hattempt : c.attempt_id = some (lit "a")) {kind : Kind}
    {fields : φ} {e : Envelope (Event φ)}
    (he : envelope smallHost (smallEvent kind fields) [] "i" = .ok e)
    {specific : Event φ → Checked Unit} (hspecific : specific (smallEvent kind fields) = .ok ())
    {seen : Seen} (hnew : eventId kind ∉ seen.event_ids) :
    check_event smallLedger (smallBody revision previous c₀) smallRecordBudget c kind specific seen
      (some e) = .ok { seen with event_ids := seen.event_ids ++ [eventId kind],
                                 event_count := seen.event_count + 1 } := by
  have hauthority : getMethod (value (smallEvent kind fields)) "authority_granted" =
      .ok (some (.bool false)) := rfl
  have hdigest : digest (.dict smallBind.members) = .ok (sha (bytesOf (.dict smallBind.members))) := by
    rw [digest, raw, bytesOf_eq small_bind.canonical]
    rfl
  have hidentity : python.eq smallIdentity smallIdentity = true := rfl
  have hbudget : sha (bytesOf smallBudget) = sha smallLedger.budget_bytes := rfl
  have hid' : eventId kind = kind.text ++ lit "-" ++ sha (bytesOf (.dict smallBind.members)) := rfl
  unfold check_event
  dsimp only
  rw [show smallLedger.host = smallHost from rfl, authenticate_small he hauthority, ok_bind]
  refine seq_eq_ok.mpr ⟨need_eq_ok.mpr rfl, seq_eq_ok.mpr ⟨need_eq_ok.mpr hnew, ?_⟩⟩
  refine seq_eq_ok.mpr ⟨need_eq_ok.mpr ⟨rfl, hidentity, hid.symm, hattempt.symm⟩, ?_⟩
  refine seq_eq_ok.mpr ⟨need_eq_ok.mpr ⟨rfl, rfl, rfl⟩, ?_⟩
  refine seq_eq_ok.mpr ⟨need_eq_ok.mpr ⟨rfl, rfl, rfl, hbudget⟩, ?_⟩
  refine bind_eq_ok.mpr ⟨_, hdigest, seq_eq_ok.mpr ⟨need_eq_ok.mpr hid', ?_⟩⟩
  exact seq_eq_ok.mpr ⟨hspecific, rfl⟩

/-- A record of the small ledger that its own reader accepts. -/
structure Stage (c : Child) (revision : Nat) (record : Envelope Body) : Prop where
  signed : ∃ previous, envelope smallHost (smallBody revision previous c) [] "i" = .ok record
  read : read_record record = .ok ()
  child_id : c.child_id = lit "c"
  checked : ∀ previous, ∃ seen, check_child smallLedger (smallBody revision previous c)
    smallRecordBudget (bytesAxis 5) ⟨[], [], 0⟩ c = .ok seen ∧ seen.event_count = revision
  good : Good (bytesAxis 5) record.body

theorem Stage.body {c : Child} {revision : Nat} {record : Envelope Body} (h : Stage c revision record) :
    ∃ previous, record.body = smallBody revision previous c := by
  obtain ⟨previous, hsigned⟩ := h.signed
  exact ⟨previous, envelope_eq_ok hsigned⟩

theorem normalize_smallRecordBudget (start_sha256 : Str) :
    (Value.dict { smallRecordBudget with parent_start_sha256 := start_sha256 }.members).normalize =
      smallBudgetFor start_sha256 := rfl

theorem eq_smallBudget : python.eq (.dict smallRecordBudget.members) smallBudget = true := by
  have hnormal : (Value.dict smallRecordBudget.members).normalize = smallBudget :=
    normalize_smallRecordBudget _
  rw [← eq_normalize_left, hnormal]
  exact eq_same canonical_smallBudget.distinctKeys

theorem smallBody_authority {c : Child} {revision : Nat} {previous : Option Str} :
    getMethod (value (smallBody revision previous c)) "authority_granted" = .ok (some (.bool false)) := by
  simp [value, getMethod, lookup_lit_ne]

theorem Stage.verified {c : Child} {revision : Nat} {record : Envelope Body}
    (h : Stage c revision record) : ∃ report, verify_report smallLedger record = .ok report := by
  obtain ⟨previous, hsigned⟩ := h.signed
  obtain ⟨seen, hseen, hcount⟩ := h.checked previous
  obtain ⟨used, hused, -⟩ := usage_good h.good
  rw [envelope_eq_ok hsigned] at hused
  have hbound : smallBound.task_key = smallBound.task_key ∧
      python.eq smallBound.task_identity smallBound.task_identity = true ∧
      python.eq smallBound.parent_binding.value smallBound.parent_binding.value = true ∧
      smallBound.expected_child_ids = smallBound.expected_child_ids :=
    ⟨rfl, rfl, eq_same (by simp [smallBound, ParentBinding.value, Artifact.value, Distinct]), rfl⟩
  have hbudget : python.eq (.dict smallRecordBudget.members) smallBudget = true ∧
      sha (bytesOf smallBudget) = sha smallLedger.budget_bytes := by
    exact ⟨eq_smallBudget, rfl⟩
  have hchildren : [c.child_id] = smallBound.expected_child_ids := by
    rw [h.child_id]
    rfl
  have hcheck : check_budget smallBound smallLedger.start_bytes smallBudget = .ok smallRecordBudget :=
    check_smallBudget smallBound _ rfl rfl
  have hfold : (smallBody revision previous c).children.foldlM
      (check_child smallLedger (smallBody revision previous c) smallRecordBudget (bytesAxis 5))
      ⟨[], [], 0⟩ = .ok seen := by
    show [c].foldlM _ _ = _
    rw [List.foldlM_cons, hseen]
    rfl
  unfold verify_report
  simp only [bind_eq_ok, exists_unit, need_eq_ok, pure_eq_ok, lift_eq_ok]
  exact ⟨_, h.read, _, authenticate_small hsigned smallBody_authority, _, smallStart_bound, _,
    load_smallBudget, hbound, hbudget, _, hcheck, _, axes_small, hchildren, seen, hfold, hcount.symm, used, hused, rfl⟩

theorem Stage.change {α : Type} {c c' : Child} {revision : Nat} {record : Envelope Body}
    (h : Stage c revision record) {action : Body → Checked (Body × α)} {result : α}
    (haction : ∀ previous, record.body = smallBody revision previous c →
      action (smallBody revision previous c) = .ok (smallBody revision previous c', result))
    (hrevision : revision < 2 ^ 10) (hc' : Small c'.value (2 ^ 18) 5) :
    ∃ next previous, change smallLedger record action = .ok (next, result) ∧
      envelope smallHost (smallBody (revision + 1) previous c') [] "i" = .ok next ∧
      read_record next = .ok () := by
  obtain ⟨report, hreport⟩ := h.verified
  obtain ⟨previous, hsigned⟩ := h.signed
  have hauthenticate := authenticate_small hsigned smallBody_authority
  have haction := haction previous (envelope_eq_ok hsigned)
  obtain ⟨_, b, hrecord⟩ := envelope_shape hsigned
  have hsmall : Small (value (smallBody (revision + 1) (some record.sha256) c')) (2 ^ 19) 7 := by
    refine (small_body hrevision ?_ hc').mono (by decide) le_rfl
    intro s hs
    exact ⟨b, by rw [← Option.mem_some_iff.mp hs, hrecord]⟩
  obtain ⟨next, hnext, hcanonical⟩ := signed_small hsmall.canonical
  obtain ⟨data, hdata⟩ := raw_of_canonical hcanonical
  have hlarge := small_record hsmall hnext
  have hsize : data.size ≤ MAX_BYTES := by
    have hroom := hlarge.room
    have hbound := size_raw hdata
    unfold MAX_BYTES
    omega
  refine ⟨next, some record.sha256, ?_, hnext, ?_⟩
  · unfold child_ledger.change
    simp only [bind_eq_ok, exists_unit, need_eq_ok, pure_eq_ok]
    exact ⟨report, hreport, _, hauthenticate, _, haction, next, hnext, data, hdata, hsize, rfl⟩
  · exact read_small hcanonical (hlarge.room.trans (by decide)) (hlarge.depth.trans (by decide))

/-- What an accepted call publishes is read again, where the child is checked. -/
theorem Stage.next {c c' : Child} {revision : Nat} {previous : Option Str} {record next : Envelope Body}
    {op : Op} (h : Stage c revision record) (hstep : step smallLedger record op = .ok next)
    (hsigned : envelope smallHost (smallBody (revision + 1) previous c') [] "i" = .ok next)
    (hread : read_record next = .ok ()) (hid : c'.child_id = lit "c")
    (hchecked : ∀ previous, ∃ seen, check_child smallLedger (smallBody (revision + 1) previous c')
      smallRecordBudget (bytesAxis 5) ⟨[], [], 0⟩ c' = .ok seen ∧ seen.event_count = revision + 1) :
    Stage c' (revision + 1) next :=
  ⟨⟨previous, hsigned⟩, hread, hid, hchecked, good_advances h.good (step_advances h.good hstep)⟩

theorem stage_created {created : Envelope Body} (h : create smallLedger = .ok created) :
    Stage (freshChild "c") 0 created := by
  have hsigned : envelope smallHost (smallBody 0 none (freshChild "c")) [] "i" = .ok created := by
    rw [← create_small]
    exact h
  have hsmall : Small (value (smallBody 0 none (freshChild "c"))) (2 ^ 15) 7 :=
    (small_body (Nat.zero_le _) (by simp) small_freshChild).mono (by decide) le_rfl
  have hlarge := small_record hsmall hsigned
  refine ⟨⟨none, hsigned⟩, ?_, rfl, fun previous => ?_, ?_⟩
  · exact read_small hlarge.canonical (hlarge.room.trans (by decide)) (hlarge.depth.trans (by decide))
  · refine ⟨⟨[], [], 0⟩, seq_eq_ok.mpr ⟨need_eq_ok.mpr (by simp [freshChild]), ?_⟩, rfl⟩
    exact seq_eq_ok.mpr ⟨need_eq_ok.mpr ⟨rfl, rfl, rfl⟩, rfl⟩
  · obtain ⟨limits, hgood, -⟩ := good_create h
    have hbudget := hgood.budget
    rw [envelope_eq_ok hsigned] at hbudget
    obtain rfl := Except.ok.inj (axes_small.symm.trans hbudget)
    exact hgood

/-! ## Reservation -/

/-- The ledger has signed this event of the child. -/
abbrev Recorded {φ : Type} [Fields φ] (kind : Kind) (fields : φ) (e : Envelope (Event φ)) : Prop :=
  envelope smallHost (smallEvent kind fields) [] "i" = .ok e

theorem small_event_record {φ : Type} [Fields φ] {kind : Kind} {fields : φ} {e : Envelope (Event φ)}
    (hevent : Small (value (smallEvent kind fields)) (2 ^ 14) 3) (he : Recorded kind fields e) :
    Small (value e) (2 ^ 15) 4 := (small_record hevent he).mono (by decide) le_rfl

/-- A reservation names itself. -/
abbrev reservationFields : ReservationFields := reservedFields (some (eventId .reservation))

abbrev reservedChild (e : Envelope (Event ReservationFields)) : Child :=
  { freshChild "c" with attempt_id := some (lit "a"), reservation := some e }

theorem rowsOf_row {field amount : String} (h : field = "reserved_amount" ∨ field = "measured_amount") :
    rowsOf (.list [rowOf field amount]) = .ok (.list [rowOf field amount]) := by
  have hcanonical : (Value.list [rowOf field amount]).Canonical := by
    rcases h with rfl | rfl <;> simp [rowOf, Distinct]
  have hload := load_canonical_bytes hcanonical (bytesOf_eq hcanonical)
  rw [if_pos (by simp [rowOf, Value.depth, Value.depthMembers, Value.depthItems])] at hload
  have hnormal : (Value.list [rowOf field amount]).normalize = .list [rowOf field amount] := by
    rcases h with rfl | rfl <;> rfl
  rw [hnormal] at hload
  exact bind_eq_ok.mpr ⟨_, lift_eq_ok.mpr (bytesOf_eq hcanonical), lift_eq_ok.mpr hload⟩

theorem check_reserved {e : Envelope (Event ReservationFields)}
    (he : Recorded .reservation reservationFields e) {c : Child} (hid : c.child_id = lit "c")
    (hattempt : c.attempt_id = some (lit "a"))
    {revision : Nat} {previous : Option Str} {c₀ : Child} {attempts : List Str} :
    check_event smallLedger (smallBody revision previous c₀) smallRecordBudget c .reservation
      (check_reservation (bytesAxis 5)) ⟨[], attempts, 0⟩ (some e) =
        .ok ⟨[eventId .reservation], attempts, 1⟩ := by
  refine check_event_small hid hattempt he ?_ (by simp)
  simp only [check_reservation, bind_eq_ok, exists_unit, need_eq_ok]
  exact ⟨_, axes_reserved, by decide, rfl, rfl, rfl⟩

/-- The child is reserved. -/
theorem reserve_course {r : Envelope Body} (h : Stage (freshChild "c") 0 r) : ∃ e r',
    Recorded .reservation reservationFields e ∧
    step smallLedger r (.reserve "c" "a" (.list [rowOf "reserved_amount" "5"]) "now") = .ok r' ∧
    Stage (reservedChild e) 1 r' := by
  have hunnamed : Small (value (smallEvent .reservation (reservedFields none))) (2 ^ 14) 3 :=
    small_reserved (by simp)
  have hreserved : Small (value (smallEvent .reservation reservationFields)) (2 ^ 14) 3 :=
    small_reserved (by simp)
  obtain ⟨e₀, he₀, -⟩ := signed_small hunnamed.canonical
  obtain ⟨e, he, -⟩ := signed_small hreserved.canonical
  have hreservation : Small (value e) (2 ^ 15) 4 := small_event_record hreserved he
  have hnone : Small .null (2 ^ 15) 4 := small_null.mono (by decide) (Nat.zero_le _)
  have hchild : Small (reservedChild e).value (2 ^ 18) 5 :=
    (small_child (c := reservedChild e) rfl (by simp) hreservation hnone hnone hnone).mono (by decide) le_rfl
  obtain ⟨used, hused, htracks⟩ := usage_good h.good
  have haction : ∀ previous, r.body = smallBody 0 previous (freshChild "c") →
      reserve_child smallLedger "c" "a" (.list [rowOf "reserved_amount" "5"]) (bytesAxis 5) "now"
        (smallBody 0 previous (freshChild "c")) = .ok (smallBody 0 previous (reservedChild e), e) := by
    intro previous hbody
    rw [hbody] at hused htracks
    have hfind : (smallBody 0 previous (freshChild "c")).children.zipIdx.find?
        (fun p => p.1.child_id = lit "c") = some (freshChild "c", 0) := rfl
    have hzero : (smallBody 0 previous (freshChild "c")).exposure (lit "captured_console_bytes") = 0 := by
      simp [Body.exposure, smallBody, exposure_unreserved (show (freshChild "c").reserved _ = none from rfl)]
    have hused' := htracks (lit "captured_console_bytes") (by simp [bytesAxis])
    rw [hzero] at hused'
    have hfits : fits (bytesAxis 5) (bytesAxis 5) used := by
      simp [fits, bytesAxis, hused']
    unfold reserve_child
    rw [hfind]
    dsimp only
    simp only [bind_eq_ok, exists_unit, needOr_eq_ok, need_eq_ok, pure_eq_ok]
    refine ⟨rfl, by simp [smallBody, freshChild], _, axes_small, used, hused, by decide, hfits, e₀, ?_, e,
      ?_, rfl⟩
    · rw [← he₀]
      exact event_small rfl rfl .reservation (reservedFields none)
    · rw [envelope_eq_ok he₀]
      exact he
  obtain ⟨r', previous, hchange, hsigned, hread⟩ := h.change haction (by decide) hchild
  have hstep : step smallLedger r (.reserve "c" "a" (.list [rowOf "reserved_amount" "5"]) "now") =
      .ok r' := by
    simp only [step, reserve, bind_eq_ok, exists_unit, need_eq_ok, pure_eq_ok]
    exact ⟨(r', e), ⟨_, rowsOf_row (.inl rfl), _, axes_reserved, ⟨by decide, by decide⟩, hchange⟩, rfl⟩
  refine ⟨e, r', he, hstep, h.next hstep hsigned hread rfl fun previous => ?_⟩
  refine ⟨⟨[eventId .reservation], [lit "a"], 1⟩, ?_, rfl⟩
  simp only [check_child, bind_eq_ok, exists_unit, need_eq_ok]
  exact ⟨by simp, by decide, _, check_reserved he rfl rfl, _, rfl, _, rfl, _, rfl, .inl rfl, rfl⟩

/-! ## Dispatch -/

abbrev dispatchedChild (e : Envelope (Event ReservationFields)) (d : Envelope (Event DispatchFields)) :
    Child :=
  { reservedChild e with dispatch := some d }

theorem eventId_injective {k k' : Kind} (h : eventId k = eventId k') : k = k' := by
  have htext : k.text = k'.text := by
    unfold eventId at h
    exact List.append_cancel_right (List.append_cancel_right h)
  revert htext
  cases k <;> cases k' <;> decide

section Reserved

variable {e : Envelope (Event ReservationFields)}
  (he : Recorded .reservation reservationFields e) {c : Child} (hc : c.reservation = some e)

include he hc

theorem child_of_small {revision : Nat} {previous : Option Str} :
    child_of (smallBody revision previous c) (eventId .reservation) = .ok (c, 0) := by
  have hid : c.reservation_id = some (eventId .reservation) := by
    unfold Child.reservation_id
    rw [hc, Option.bind_some, envelope_eq_ok he]
    rfl
  have hfound : (smallBody revision previous c).children.zipIdx.filter
      (fun p => p.1.reservation_id = some (eventId .reservation)) = [(c, 0)] := by
    simp [smallBody, hid]
  unfold child_of
  rw [hfound]
  rfl

theorem names_small : names_reservation c (eventId .reservation) e.sha256 = .ok () := by
  unfold names_reservation
  rw [hc]
  refine need_eq_ok.mpr ⟨?_, rfl⟩
  rw [envelope_eq_ok he]
  rfl

theorem check_dispatched {d : Envelope (Event DispatchFields)}
    (hd : Recorded .dispatch (dispatchedFields e.sha256) d)
    (hid : c.child_id = lit "c") (hattempt : c.attempt_id = some (lit "a"))
    {revision : Nat} {previous : Option Str} {c₀ : Child} {attempts : List Str} :
    check_event smallLedger (smallBody revision previous c₀) smallRecordBudget c .dispatch
      (check_dispatch c) ⟨[eventId .reservation], attempts, 1⟩ (some d) =
        .ok ⟨[eventId .reservation, eventId .dispatch], attempts, 2⟩ := by
  refine check_event_small hid hattempt hd ?_ ?_
  · simp only [check_dispatch, bind_eq_ok, exists_unit, need_eq_ok]
    exact ⟨names_small he hc, rfl⟩
  · intro hmem
    exact absurd (eventId_injective (List.mem_singleton.mp hmem)) (by decide)

theorem check_completed {k : Envelope (Event CompletionFields)}
    (hk : Recorded .completion (completedFields e.sha256) k)
    (hid : c.child_id = lit "c") (hattempt : c.attempt_id = some (lit "a"))
    {revision : Nat} {previous : Option Str} {c₀ : Child} {attempts : List Str} :
    check_event smallLedger (smallBody revision previous c₀) smallRecordBudget c .completion
      (check_completion c (bytesAxis 5)) ⟨[eventId .reservation, eventId .dispatch], attempts, 2⟩
      (some k) =
        .ok ⟨[eventId .reservation, eventId .dispatch, eventId .completion], attempts, 3⟩ := by
  refine check_event_small hid hattempt hk ?_ ?_
  · simp only [check_completion, bind_eq_ok, exists_unit, need_eq_ok]
    have hmeasured : measuredText (bytesAxis 2) = lit "RECORDED_PRODUCER_OBSERVATION" := by decide
    have hservice : lit "PERFORMED" ∈ SERVICES := by decide
    have hpath : text (lit "p") := by decide
    exact ⟨names_small he hc, _, axes_measured, by decide, ⟨hservice, rfl⟩, hmeasured.symm, rfl, hpath,
      hex64_sha _⟩
  · intro hmem
    rcases List.mem_pair.mp hmem with h | h
    · exact absurd (eventId_injective h) (by decide)
    · exact absurd (eventId_injective h) (by decide)

end Reserved

/-- The child is dispatched. -/
theorem dispatch_course {e : Envelope (Event ReservationFields)} {r : Envelope Body}
    (he : Recorded .reservation reservationFields e) (h : Stage (reservedChild e) 1 r) : ∃ d r',
    Recorded .dispatch (dispatchedFields e.sha256) d ∧
    step smallLedger r (.dispatch_record (eventId .reservation) "now") = .ok r' ∧
    Stage (dispatchedChild e d) 2 r' := by
  obtain ⟨_, b, hshape⟩ := envelope_shape he
  have hsha : e.sha256 = sha b := by rw [hshape]
  have hdispatched := small_dispatched b
  rw [← hsha] at hdispatched
  obtain ⟨d, hd, -⟩ := signed_small hdispatched.canonical
  have hreservation : Small (value e) (2 ^ 15) 4 := small_event_record (small_reserved (by simp)) he
  have hdispatch : Small (value d) (2 ^ 15) 4 := small_event_record hdispatched hd
  have hnone : Small .null (2 ^ 15) 4 := small_null.mono (by decide) (Nat.zero_le _)
  have hchild : Small (dispatchedChild e d).value (2 ^ 18) 5 :=
    (small_child (c := dispatchedChild e d) rfl (by simp) hreservation hdispatch hnone hnone).mono
      (by decide) le_rfl
  have haction : ∀ previous, r.body = smallBody 1 previous (reservedChild e) →
      dispatch_child smallLedger (eventId .reservation) "now" (smallBody 1 previous (reservedChild e)) =
        .ok (smallBody 1 previous (dispatchedChild e d), d) := by
    intro previous _
    unfold dispatch_child
    simp only [bind_eq_ok, exists_unit, need_eq_ok, pure_eq_ok]
    refine ⟨_, child_of_small he rfl, rfl, d, ?_, rfl⟩
    rw [← hd]
    exact event_small rfl rfl .dispatch (dispatchedFields e.sha256)
  obtain ⟨r', previous, hchange, hsigned, hread⟩ := h.change haction (by decide) hchild
  have hstep : step smallLedger r (.dispatch_record (eventId .reservation) "now") = .ok r' := by
    simp only [step, dispatch_record, bind_eq_ok, pure_eq_ok]
    exact ⟨(r', d), hchange, rfl⟩
  refine ⟨d, r', hd, hstep, h.next hstep hsigned hread rfl fun previous => ?_⟩
  refine ⟨⟨[eventId .reservation, eventId .dispatch], [lit "a"], 2⟩, ?_, rfl⟩
  simp only [check_child, bind_eq_ok, exists_unit, need_eq_ok]
  exact ⟨by simp, by decide, _, check_reserved he rfl rfl, _, check_dispatched he rfl hd rfl rfl, _, rfl, _,
    rfl, .inl rfl, rfl⟩

/-! ## Completion -/

abbrev completedChild (e : Envelope (Event ReservationFields)) (d : Envelope (Event DispatchFields))
    (k : Envelope (Event CompletionFields)) : Child :=
  { dispatchedChild e d with completion := some k }

theorem small_smallObservation : Small smallObservation (2 ^ 12) 3 := by
  refine ⟨?_, ?_, ?_⟩
  · simp [smallObservation, rowOf, encodable_eventId, Distinct]
  · simp [smallObservation, rowOf, eventId, Kind.text, canon.textRoom, canon.textRoomMembers,
      canon.textRoomItems]
    decide
  · simp [smallObservation, rowOf, Value.depth, Value.depthMembers, Value.depthItems]

theorem check_smallObservation : check_observation (bytesOf smallObservation) (eventId .reservation)
    "PERFORMED" (.list [rowOf "measured_amount" "2"]) = .ok () := by
  have hcanonical := small_smallObservation.canonical
  have hload := load_canonical_bytes hcanonical (bytesOf_eq hcanonical)
  rw [if_pos (small_smallObservation.depth.trans (by decide))] at hload
  have hsame : python.eq smallObservation.normalize smallObservation = true := by
    rw [eq_normalize_left]
    exact eq_same hcanonical.distinctKeys
  exact bind_eq_ok.mpr ⟨_, lift_eq_ok.mpr hload, need_eq_ok.mpr hsame⟩

/-- The child is completed: it used less than was reserved for it. -/
theorem complete_course {e : Envelope (Event ReservationFields)} {d : Envelope (Event DispatchFields)}
    {r : Envelope Body}
    (he : Recorded .reservation reservationFields e)
    (hd : Recorded .dispatch (dispatchedFields e.sha256) d)
    (h : Stage (dispatchedChild e d) 2 r) : ∃ k r',
    Recorded .completion (completedFields e.sha256) k ∧
    step smallLedger r (.complete (eventId .reservation) "PERFORMED"
      (.list [rowOf "measured_amount" "2"]) smallArtifact (some (bytesOf smallObservation)) "now") = .ok r' ∧
    Stage (completedChild e d k) 3 r' := by
  obtain ⟨_, b, hshape⟩ := envelope_shape he
  have hsha : e.sha256 = sha b := by rw [hshape]
  have hdispatched := small_dispatched b
  have hcompleted := small_completed b
  rw [← hsha] at hdispatched hcompleted
  obtain ⟨k, hk, -⟩ := signed_small hcompleted.canonical
  have hreservation : Small (value e) (2 ^ 15) 4 := small_event_record (small_reserved (by simp)) he
  have hdispatch : Small (value d) (2 ^ 15) 4 := small_event_record hdispatched hd
  have hcompletion : Small (value k) (2 ^ 15) 4 := small_event_record hcompleted hk
  have hnone : Small .null (2 ^ 15) 4 := small_null.mono (by decide) (Nat.zero_le _)
  have hchild : Small (completedChild e d k).value (2 ^ 18) 5 :=
    (small_child (c := completedChild e d k) rfl (by simp) hreservation hdispatch hcompletion
      hnone).mono (by decide) le_rfl
  have haction : ∀ previous, r.body = smallBody 2 previous (dispatchedChild e d) →
      complete_child smallLedger (eventId .reservation) "PERFORMED" (.list [rowOf "measured_amount" "2"])
        (bytesAxis 2) smallArtifact "now" (smallBody 2 previous (dispatchedChild e d)) =
        .ok (smallBody 2 previous (completedChild e d k), k) := by
    intro previous _
    have hreserved : amountsOf (some e) ReservationFields.resource_rows "reserved_amount" =
        .ok (bytesAxis 5) := by
      rw [amountsOf, envelope_eq_ok he]
      exact axes_reserved
    have hmeasured : measuredText (bytesAxis 2) = lit "RECORDED_PRODUCER_OBSERVATION" := by decide
    unfold complete_child
    simp only [bind_eq_ok, exists_unit, need_eq_ok, pure_eq_ok]
    refine ⟨_, child_of_small he rfl, ⟨rfl, rfl⟩, _, hreserved, by decide, k, ?_, rfl⟩
    rw [← hk, hmeasured]
    exact event_small rfl rfl .completion (completedFields e.sha256)
  obtain ⟨r', previous, hchange, hsigned, hread⟩ := h.change haction (by decide) hchild
  have hstep : step smallLedger r (.complete (eventId .reservation) "PERFORMED"
      (.list [rowOf "measured_amount" "2"]) smallArtifact (some (bytesOf smallObservation)) "now") =
        .ok r' := by
    have hservice : lit "PERFORMED" ∈ SERVICES := by decide
    have hpath : text smallArtifact.path ∧ hex64 smallArtifact.sha256 := ⟨by decide, hex64_sha _⟩
    have hsize : (bytesOf smallObservation).size ≤ MAX_BYTES := by
      have hraw : raw smallObservation = .ok (bytesOf smallObservation) :=
        lift_eq_ok.mpr (bytesOf_eq small_smallObservation.canonical)
      have hbound := size_raw hraw
      have hroom := small_smallObservation.room
      unfold MAX_BYTES
      omega
    simp only [step, complete, bind_eq_ok, exists_unit, need_eq_ok, pure_eq_ok]
    exact ⟨(r', k), ⟨_, rowsOf_row (.inr rfl), _, axes_measured, hservice, hpath, hsize, rfl,
      check_smallObservation, hchange⟩, rfl⟩
  refine ⟨k, r', hk, hstep, h.next hstep hsigned hread rfl fun previous => ?_⟩
  refine ⟨⟨[eventId .reservation, eventId .dispatch, eventId .completion], [lit "a"], 3⟩, ?_, rfl⟩
  simp only [check_child, bind_eq_ok, exists_unit, need_eq_ok]
  exact ⟨by simp, by decide, _, check_reserved he rfl rfl, _, check_dispatched he rfl hd rfl rfl, _,
    check_completed he rfl hk rfl rfl, _, rfl, .inr rfl, rfl⟩

/-! ## Settlement -/

abbrev settledChild (e : Envelope (Event ReservationFields)) (d : Envelope (Event DispatchFields))
    (k : Envelope (Event CompletionFields)) (s : Envelope (Event SettlementFields)) : Child :=
  { completedChild e d k with settlement := some s }

/-- The child is settled, for what was measured of it. -/
theorem settle_course {e : Envelope (Event ReservationFields)} {d : Envelope (Event DispatchFields)}
    {k : Envelope (Event CompletionFields)} {r : Envelope Body}
    (he : Recorded .reservation reservationFields e)
    (hd : Recorded .dispatch (dispatchedFields e.sha256) d)
    (hk : Recorded .completion (completedFields e.sha256) k)
    (h : Stage (completedChild e d k) 3 r) : ∃ s r' previous,
    step smallLedger r (.settle (eventId .reservation) k.sha256 "now") = .ok r' ∧
    r'.body = smallBody 4 previous (settledChild e d k s) ∧
    s.body.fields.resource_rows = .list [settledRow] := by
  obtain ⟨_, b, hshape⟩ := envelope_shape he
  have hsha : e.sha256 = sha b := by rw [hshape]
  obtain ⟨_, b', hshape'⟩ := envelope_shape hk
  have hsha' : k.sha256 = sha b' := by rw [hshape']
  have hid : (Value.dict [("reservation", .str (eventId .reservation)),
      ("completion", .str k.sha256)]).Canonical := by
    rw [hsha']
    simp [encodable_eventId, encodable_sha, Distinct]
  obtain ⟨n, hn⟩ := raw_of_canonical hid
  have hnamed : settlement_id (eventId .reservation) k.sha256 = .ok (lit "settlement-" ++ sha n) := by
    simp only [settlement_id, digest, bind_eq_ok, pure_eq_ok]
    exact ⟨sha n, ⟨n, hn, rfl⟩, rfl⟩
  have hdispatched := small_dispatched b
  have hcompleted := small_completed b
  have hsettled := small_settled b b' n
  rw [← hsha] at hdispatched hcompleted hsettled
  rw [← hsha'] at hsettled
  obtain ⟨s, hs, -⟩ := signed_small hsettled.canonical
  have hreservation : Small (value e) (2 ^ 15) 4 := small_event_record (small_reserved (by simp)) he
  have hdispatch : Small (value d) (2 ^ 15) 4 := small_event_record hdispatched hd
  have hcompletion : Small (value k) (2 ^ 15) 4 := small_event_record hcompleted hk
  have hsettlement : Small (value s) (2 ^ 15) 4 := small_event_record hsettled hs
  have hchild : Small (settledChild e d k s).value (2 ^ 18) 5 :=
    (small_child (c := settledChild e d k s) rfl (by simp) hreservation hdispatch hcompletion
      hsettlement).mono (by decide) le_rfl
  have haction : ∀ previous, r.body = smallBody 3 previous (completedChild e d k) →
      settle_child smallLedger (eventId .reservation) k.sha256 "now"
        (smallBody 3 previous (completedChild e d k)) =
        .ok (smallBody 3 previous (settledChild e d k s), s) := by
    intro previous _
    have hrows : [rowOf "measured_amount" "2"].mapM (settlement_row (lit "PERFORMED")) =
        .ok [settledRow] := rfl
    unfold settle_child
    refine bind_eq_ok.mpr ⟨_, child_of_small he rfl, ?_⟩
    dsimp only [freshChild]
    simp only [bind_eq_ok, exists_unit, need_eq_ok, pure_eq_ok, lift_eq_ok, envelope_eq_ok hk]
    refine ⟨trivial, [rowOf "measured_amount" "2"], rfl, _, hrows, _, hnamed, s, ?_, rfl⟩
    rw [← hs]
    exact event_small rfl rfl .settlement (settledFields e.sha256 k.sha256 (lit "settlement-" ++ sha n))
  obtain ⟨r', previous, hchange, hsigned, -⟩ := h.change haction (by decide) hchild
  refine ⟨s, r', previous, ?_, envelope_eq_ok hsigned, ?_⟩
  · simp only [step, settle, bind_eq_ok, pure_eq_ok]
    exact ⟨(r', s), hchange, rfl⟩
  · rw [envelope_eq_ok hs]
    rfl

/-- What the settled child holds is what was measured of it. -/
theorem exposure_settledChild {e : Envelope (Event ReservationFields)} {d : Envelope (Event DispatchFields)}
    {k : Envelope (Event CompletionFields)} {s : Envelope (Event SettlementFields)}
    (he : Recorded .reservation reservationFields e) (hs : s.body.fields.resource_rows = .list [settledRow]) :
    (settledChild e d k s).exposure (lit "captured_console_bytes") = 2 := by
  have hreserved : amountsOf (some e) ReservationFields.resource_rows "reserved_amount" =
      .ok (bytesAxis 5) := by
    rw [amountsOf, envelope_eq_ok he]
    exact axes_reserved
  have hsettled : amountsOf (some s) SettlementFields.resource_rows "settled_amount_or_UNKNOWN" =
      .ok (bytesAxis 2) := by
    rw [amountsOf, hs]
    have hsettle : [rowOf "measured_amount" "2"].mapM (settlement_row (lit "PERFORMED")) =
        .ok [settledRow] := rfl
    exact axes_settlement axes_measured rfl hsettle
  simp [Child.exposure, Child.reserved, Child.settled, amountAt, hreserved, hsettled, bytesAxis]

theorem after_of_step {L : Ledger} {record next : Envelope Body} {op : Op}
    (h : step L record op = .ok next) : after L record op = next := by
  unfold after
  rw [h]

/-- The four calls, the last of them on the completion of this digest. -/
def smallCourse (completion_sha256 : Str) : List Op :=
  [.reserve "c" "a" (.list [rowOf "reserved_amount" "5"]) "now",
   .dispatch_record (eventId .reservation) "now",
   .complete (eventId .reservation) "PERFORMED" (.list [rowOf "measured_amount" "2"]) smallArtifact
     (some (bytesOf smallObservation)) "now",
   .settle (eventId .reservation) completion_sha256 "now"]

/-- The child reserves all 5 bytes of the budget and is dispatched, completed and
settled, for the 2 bytes that were measured. Each call is accepted. -/
theorem budget_is_safe_small : ∃ created completion_sha256 limits, create smallLedger = .ok created ∧
    (run smallLedger created (smallCourse completion_sha256)).body.revision = 4 ∧
    (run smallLedger created (smallCourse completion_sha256)).body.exposure
      (lit "captured_console_bytes") = 2 ∧
    axes created.body.budget.resource_rows "limit" = .ok limits ∧
    Safe smallLedger limits (run smallLedger created (smallCourse completion_sha256)) := by
  obtain ⟨created, hcreated⟩ := create_smallLedger
  obtain ⟨e, r₁, he, hreserve, h₁⟩ := reserve_course (stage_created hcreated)
  obtain ⟨d, r₂, hd, hdispatch, h₂⟩ := dispatch_course he h₁
  obtain ⟨k, r₃, hk, hcomplete, h₃⟩ := complete_course he hd h₂
  obtain ⟨s, r₄, previous, hsettle, hbody, hrows⟩ := settle_course he hd hk h₃
  have hrun : run smallLedger created (smallCourse k.sha256) = r₄ := by
    unfold run smallCourse
    rw [List.foldl_cons, after_of_step hreserve, List.foldl_cons, after_of_step hdispatch, List.foldl_cons,
      after_of_step hcomplete, List.foldl_cons, after_of_step hsettle, List.foldl_nil]
  obtain ⟨limits, hlimits, -, hsafe⟩ := budget_is_safe hcreated (smallCourse k.sha256)
  refine ⟨created, k.sha256, limits, hcreated, ?_, ?_, hlimits, hsafe⟩
  · rw [hrun, hbody]
    rfl
  · rw [hrun, hbody]
    show ([settledChild e d k s].map _).sum = 2
    rw [List.map_singleton, List.sum_singleton, exposure_settledChild he hrows]

end vfy.child_ledger
