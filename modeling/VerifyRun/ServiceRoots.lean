-- The roots that a service pool charges, as the directories that they are. Two
-- texts may name one directory: a pool that is asked under both charges it twice.
import VerifyRun.TestSoundness

namespace vfy.service_attempt

open python keys outcomes child_ledger common_capacity managed_capacity engineer service_tests

/-! ## The root that a request names -/

/-- The `attempt_root` of the bytes of a request. -/
def rootOf (request_bytes : ByteArray) : Option Str :=
  match load.load_json_bytes request_bytes with
  | .ok q =>
    match q.get? "attempt_root" with
    | some (.str root) => some root
    | _ => none
  | .error _ => none

theorem rootOf_request {P : ServicePool} {request_bytes : ByteArray} {q : Request}
    (h : read_request P request_bytes = .ok q) : rootOf request_bytes = some q.attempt_root := by
  unfold read_request at h
  simp only [bind_eq_ok, exists_unit, lift_eq_ok, need_eq_ok, item_eq_ok, pure_eq_ok] at h
  obtain ⟨v, hv, _, -, _, -, _, -, _, -, _, -, _, -, _, -, _, -, _, -, _, -, -, w, hw, root, hroot, -, _, -,
    _, -, rfl⟩ := h
  unfold rootOf
  rw [hv]
  dsimp only
  rw [hw]
  cases w with
  | str s =>
    obtain ⟨-, hroot⟩ := seq_eq_ok.mp hroot
    rw [pure_eq_ok.mp hroot]
  | _ => cases hroot

/-! ## Every run -/

/-- What is asked for in a call names its root as `str` does. -/
def Call.CanonicalRoot (c : Call) : Prop :=
  ∀ pool request_bytes preview_bytes approval_bytes recorded_at,
    c = .admit_request pool request_bytes preview_bytes approval_bytes recorded_at →
      ∀ root ∈ rootOf request_bytes, CanonicalText root

/-- No attempt, root directory or preview is charged twice. -/
def Body.ChargedOnce (P : ServicePool) (b : Body) : Prop :=
  ∃ qs, List.Forall₂ (fun e q => read_request P e.request_raw = .ok q) b.entries qs ∧
    (qs.map Request.attempt_id).Nodup ∧ (qs.map fun q => parts q.attempt_root).Nodup ∧
    (qs.map Request.preview_sha256).Nodup

section Runs

variable {P : Nat → ServicePool} {bytes : ByteArray} {turns : List Turn}

/-- What is charged was asked for. -/
theorem asked_of_entry {i : Nat} {e : Entry} (h : (run P (start bytes) turns).entries[i]? = some e) :
    ∃ t ∈ turns, ∃ pool preview_bytes approval_bytes recorded_at,
      t.call = .admit_request pool e.request_raw preview_bytes approval_bytes recorded_at := by
  induction turns using List.reverseRecOn generalizing e with
  | nil => simp [run, start, World.entries] at h
  | append_singleton turns t ih =>
    have hsafe := service_is_safe P bytes turns
    cases hold : (run P (start bytes) turns).entries[i]? with
    | none =>
      obtain ⟨pool, request_bytes, preview_bytes, approval_bytes, recorded_at, hcall, hnew⟩ :=
        hsafe.new t i e hold h
      rw [← hnew.request_raw] at hcall
      exact ⟨t, by simp, pool, preview_bytes, approval_bytes, recorded_at, hcall⟩
    | some e₀ =>
      obtain ⟨e', he', hlater, -⟩ := hsafe.kept [t] i e₀ hold
      obtain rfl := Option.some.inj (he'.symm.trans h)
      obtain ⟨x, hx, hcall⟩ := ih hold
      rw [← hlater.request_raw] at hcall
      exact ⟨x, List.mem_append_left _ hx, hcall⟩

/-- Two roots that are canonical are one directory only where they are one text. -/
theorem Body.Sound.chargedOnce {Q : ServicePool} {b : Body} (h : b.Sound Q)
    (hroots : ∀ e ∈ b.entries, ∀ root ∈ rootOf e.request_raw, CanonicalText root) : b.ChargedOnce Q := by
  obtain ⟨qs, hqs, hids, hnodup, hpreviews⟩ := h.charged
  refine ⟨qs, hqs, hids, ?_, hpreviews⟩
  have hcanonical : ∀ q ∈ qs, CanonicalText q.attempt_root := by
    intro q hq
    obtain ⟨hlength, hread⟩ := List.forall₂_iff_get.mp hqs
    obtain ⟨i, hi, rfl⟩ := List.mem_iff_getElem.mp hq
    have hi' : i < b.entries.length := hlength ▸ hi
    exact hroots _ (List.getElem_mem hi') _ (rootOf_request (hread i hi' hi))
  have hparts : (qs.map Request.attempt_root).map parts = qs.map fun q => parts q.attempt_root :=
    List.map_map
  rw [← hparts]
  refine hnodup.map_on fun v hv w hw hsame => ?_
  obtain ⟨q, hq, rfl⟩ := List.mem_map.mp hv
  obtain ⟨q', hq', rfl⟩ := List.mem_map.mp hw
  exact (hcanonical q hq).eq_of_parts (hcanonical q' hq') hsame

/-- A service pool keeps its attempts and charges no directory twice, over every
sequence of calls whose requests name their roots as `str` does. -/
theorem service_charges_directories_once (P : Nat → ServicePool) (bytes : ByteArray) (turns : List Turn)
    (h : ∀ t ∈ turns, t.call.CanonicalRoot) :
    Safe P bytes turns ∧ ∀ record, (run P (start bytes) turns).disk.state = .whole (.service record) →
      ∃ t ∈ turns, record.body.ChargedOnce (P t.call.pool) := by
  have hsafe := service_is_safe P bytes turns
  refine ⟨hsafe, fun record hstate => ?_⟩
  rcases hsafe.published with hprior | ⟨record', hstate', t, ht, -, hsound⟩
  · rw [hstate] at hprior
    cases hprior
  · obtain rfl : record = record' := by
      rw [hstate] at hstate'
      cases hstate'
      rfl
    refine ⟨t, ht, hsound.chargedOnce fun e he root hroot => ?_⟩
    rw [← World.entries_of_state hstate] at he
    obtain ⟨i, hi⟩ := List.mem_iff_getElem?.mp he
    obtain ⟨x, hx, pool, preview_bytes, approval_bytes, recorded_at, hcall⟩ := asked_of_entry hi
    exact h x hx pool _ preview_bytes approval_bytes recorded_at hcall root hroot

end Runs

/-! ## A pool that is asked twice -/

/-- An attempt of the small pool, and where it is to run. -/
structure Asked where
  id : String
  root : String

namespace Asked

/-- A pool can be asked for it. -/
structure Plain (a : Asked) : Prop where
  id : text a.id ∧ (lit a.id).length ≤ 2 ^ 5
  root : text a.root ∧ (lit a.root).length ≤ 2 ^ 5
  absolute : (lit a.root).head? = some (.scalar '/') ∧ twoSlashes a.root = false

/-- The limits of each attempt. -/
def limits : Value := .dict
  [("cpu_seconds", .int 1), ("descriptors", .int 1), ("file_bytes", .int 1), ("output_bytes", .int 1),
   ("wall_seconds", .int 1)]

def preview (a : Asked) : Value := .dict
  [("adapter_sha256", .str zeros), ("capture_sha256", .str zeros), ("environment", .null),
   ("examiner", .null), ("labels", .null), ("limits", limits), ("policy", .null), ("root", .str a.root),
   ("schema", .str "engineer.service-observation/1"), ("scope", .null), ("source", .null)]

def request (a : Asked) : Value := .dict
  [("attempt_id", .str a.id), ("attempt_root", .str a.root), ("authority_granted", .bool false),
   ("automatic_retry", .bool false), ("policy_sha256", .str (sha zeroService.policy_bytes)),
   ("pool_root", .str "/pool"), ("preview_sha256", .str (sha (bytesOf a.preview))), ("resources", limits),
   ("schema", .str PROFILE)]

/-- The request, as it is read. -/
def asks (a : Asked) : Request where
  attempt_id := a.id
  attempt_root := a.root
  preview_sha256 := sha (bytesOf a.preview)
  resources := ⟨1, 1, 1, 1, 1⟩

def approval (a : Asked) : Envelope Value :=
  signedAs "a" (approval_body zeroService (bytesOf a.request) (sha (bytesOf a.preview)))

/-- What is charged for it. -/
def entry (a : Asked) : Entry where
  request_raw := bytesOf a.request
  request_sha256 := sha (bytesOf a.request)
  approval_raw := bytesOf (value a.approval)
  approval_sha256 := sha (bytesOf (value a.approval))
  recorded_at := "t"
  consumed_at := none
  start_sha256 := none
  state := .ADMITTED
  unknown := none
  result := none

/-- What its admission finds in the file system. -/
def files (a : Asked) : Files := ⟨fun _ => some (bytesOf a.preview), fun _ => false, fun _ => true, fun _ => true⟩

/-- The call that admits it. -/
def admission (a : Asked) : Turn where
  files := a.files
  fault := none
  call := .admit_request 0 (bytesOf a.request) (bytesOf a.preview) (bytesOf (value a.approval)) "t"

end Asked

section Asking

variable {a : Asked}

theorem canonical_preview (a : Asked) : a.preview.Canonical := by
  simp [Asked.preview, Asked.limits, zeros, Distinct, Value.SafeInteger]

theorem canonical_request (a : Asked) : a.request.Canonical := by
  simp [Asked.request, Asked.limits, PROFILE, encodable_sha, Distinct, Value.SafeInteger]

theorem depth_preview (a : Asked) : a.preview.depth ≤ 64 := by
  simp [Asked.preview, Asked.limits, Value.depth, Value.depthMembers]

theorem depth_request (a : Asked) : a.request.depth ≤ 64 := by
  simp [Asked.request, Asked.limits, Value.depth, Value.depthMembers]

theorem room_preview (h : a.Plain) : canon.textRoom a.preview ≤ 3000 := by
  have hroot := h.root.2
  simp only [Asked.preview, Asked.limits, canon.textRoom, canon.textRoomMembers, length_zeros]
  generalize (lit a.root).length = n at hroot ⊢
  simp [lit, ofText]
  omega

theorem room_request (h : a.Plain) : canon.textRoom a.request ≤ 3000 := by
  have hroot := h.root.2
  have hid := h.id.2
  simp only [Asked.request, Asked.limits, canon.textRoom, canon.textRoomMembers, length_sha, PROFILE]
  generalize (lit a.root).length = n at hroot ⊢
  generalize (lit a.id).length = m at hid ⊢
  simp [lit, ofText]
  omega

theorem evidence_preview (h : a.Plain) : evidence (bytesOf a.preview) = .ok a.preview := by
  have hsize : (bytesOf a.preview).size ≤ MAX_BYTES := by
    have hbytes := size_bytesOf (canonical_preview a)
    have hroom := room_preview h
    unfold MAX_BYTES
    omega
  exact evidence_bytesOf (canonical_preview a) (depth_preview a) hsize

theorem read_asked (h : a.Plain) : read_request zeroService (bytesOf a.request) = .ok a.asks := by
  have hget : ∀ k v, a.request.get? k = some v → item a.request k = .ok v := fun _ _ => item_of_get
  have hload : load.load_json_bytes (bytesOf a.request) = .ok a.request :=
    load_bytesOf (canonical_request a) (depth_request a)
  have hresources : service_attempt.resources Asked.limits true = .ok ⟨1, 1, 1, 1, 1⟩ := rfl
  have hdigest : hex64Of (.str (sha (bytesOf a.preview))) = .ok (sha (bytesOf a.preview)) :=
    seq_eq_ok.mpr ⟨need_eq_ok.mpr (hex64_sha _), rfl⟩
  have hself : ∀ s, isStr (.str s) s = true := by simp
  refine bind_eq_ok.mpr ⟨_, lift_eq_ok.mpr hload, ?_⟩
  refine bind_eq_ok.mpr ⟨_, needKeys_eq_ok.mpr ⟨rfl, rfl⟩, ?_⟩
  refine bind_eq_ok.mpr ⟨_, hget "schema" (.str PROFILE) rfl, ?_⟩
  refine bind_eq_ok.mpr ⟨_, hget "attempt_id" (.str a.id) rfl, bind_eq_ok.mpr ⟨_, textOf_str h.id.1, ?_⟩⟩
  refine bind_eq_ok.mpr ⟨_, hget "pool_root" (.str "/pool") rfl, ?_⟩
  refine bind_eq_ok.mpr ⟨_, hget "policy_sha256" (.str (sha zeroService.policy_bytes)) rfl, ?_⟩
  refine bind_eq_ok.mpr ⟨_, hget "preview_sha256" (.str (sha (bytesOf a.preview))) rfl, ?_⟩
  refine bind_eq_ok.mpr ⟨_, hdigest, ?_⟩
  refine bind_eq_ok.mpr ⟨_, hget "authority_granted" (.bool false) rfl, ?_⟩
  refine bind_eq_ok.mpr ⟨_, hget "automatic_retry" (.bool false) rfl, ?_⟩
  refine seq_eq_ok.mpr ⟨need_eq_ok.mpr ⟨hself _, hself _, hself _, rfl, rfl⟩, ?_⟩
  refine bind_eq_ok.mpr ⟨_, hget "attempt_root" (.str a.root) rfl, bind_eq_ok.mpr ⟨_, textOf_str h.root.1, ?_⟩⟩
  refine seq_eq_ok.mpr ⟨need_eq_ok.mpr h.absolute.1, ?_⟩
  refine bind_eq_ok.mpr ⟨_, hget "resources" Asked.limits rfl, bind_eq_ok.mpr ⟨_, hresources, rfl⟩⟩

theorem canonical_approval_body (a : Asked) :
    (approval_body zeroService (bytesOf a.request) (sha (bytesOf a.preview))).Canonical := by
  simp [approval_body, encodable_sha, Distinct]

theorem depth_approval (a : Asked) : (value a.approval).depth ≤ 64 := by
  simp [value, Asked.approval, signedAs, Envelope.unsigned, Envelope.message, zeroHost, child_ledger.producer,
    approval_body, Value.depth, Value.depthMembers]

theorem check_asked (a : Asked) :
    check_approval zeroService (bytesOf (value a.approval)) (bytesOf a.request) a.asks = .ok () := by
  have hbody := canonical_approval_body a
  have hc : (value a.approval).Canonical := canonical_signedAs hbody "a"
  have hproducer : python.eq (child_ledger.producer .empty).normalize zeroHost.producer = true := by
    rw [eq_normalize_left]
    exact eq_same (canonical_producer .empty).distinctKeys
  have hverify : ∀ bytes, zeroHost.verify zeros (zeroHost.sign [1] bytes) bytes = true := by simp [zeroHost]
  have hauthentic : authenticate zeroService.owner.host a.approval zeroService.policy.approval_trust =
      .ok (approval_body zeroService (bytesOf a.request) (sha (bytesOf a.preview))) :=
    authenticate_envelope (envelope_signedAs hbody "a") rfl hproducer hverify rfl
  have hsame : python.eq (approval_body zeroService (bytesOf a.request) (sha (bytesOf a.preview))).normalize
      (approval_body zeroService (bytesOf a.request) a.asks.preview_sha256) = true := by
    rw [eq_normalize_left]
    exact eq_same hbody.distinctKeys
  refine bind_eq_ok.mpr ⟨_, lift_eq_ok.mpr (load_bytesOf hc (depth_approval a)), ?_⟩
  refine bind_eq_ok.mpr ⟨_, envelopeOf_normalize hc.distinctKeys, ?_⟩
  exact bind_eq_ok.mpr ⟨_, authenticate_normalized hc hauthentic, need_eq_ok.mpr hsame⟩

/-- What was met so far, where only these were charged. -/
def seenOf (as : List Asked) : Seen where
  ids := as.map fun a => lit a.id
  roots := as.map fun a => lit a.root
  previews := as.map fun a => sha (bytesOf a.preview)
  events := 1 + as.length

/-- Attempts that a pool takes for different ones. -/
structure Apart (as : List Asked) : Prop where
  plain : ∀ a ∈ as, a.Plain
  ids : (as.map fun a => lit a.id).Nodup
  roots : (as.map fun a => lit a.root).Nodup
  previews : (as.map fun a => sha (bytesOf a.preview)).Nodup

theorem Apart.of_append {as more : List Asked} (h : Apart (as ++ more)) : Apart as := by
  obtain ⟨hplain, hids, hroots, hpreviews⟩ := h
  simp only [List.map_append] at hids hroots hpreviews
  exact ⟨fun a ha => hplain a (List.mem_append_left _ ha), hids.of_append_left, hroots.of_append_left,
    hpreviews.of_append_left⟩

theorem Apart.entry {as : List Asked} (h : Apart (as ++ [a])) :
    check_entry zeroService (seenOf as) a.entry = .ok (seenOf (as ++ [a])) := by
  obtain ⟨hplain, hids, hroots, hpreviews⟩ := h
  simp only [List.map_append, List.map_cons, List.map_nil, List.nodup_append, List.mem_singleton] at hids hroots hpreviews
  have hfresh : a.asks.attempt_id ∉ (seenOf as).ids ∧ a.asks.attempt_root ∉ (seenOf as).roots ∧
      a.asks.preview_sha256 ∉ (seenOf as).previews :=
    ⟨fun hmem => hids.2.2 _ hmem _ rfl rfl, fun hmem => hroots.2.2 _ hmem _ rfl rfl,
      fun hmem => hpreviews.2.2 _ hmem _ rfl rfl⟩
  refine bind_eq_ok.mpr ⟨_, read_asked (hplain a (by simp)), ?_⟩
  refine seq_eq_ok.mpr ⟨need_eq_ok.mpr ⟨rfl, show text (lit "t") by decide⟩, ?_⟩
  refine seq_eq_ok.mpr ⟨needOr_eq_ok.mpr hfresh, seq_eq_ok.mpr ⟨need_eq_ok.mpr rfl, ?_⟩⟩
  refine seq_eq_ok.mpr ⟨check_asked a, seq_eq_ok.mpr ⟨need_eq_ok.mpr rfl, ?_⟩⟩
  refine seq_eq_ok.mpr ⟨rfl, seq_eq_ok.mpr ⟨rfl, seq_eq_ok.mpr ⟨need_eq_ok.mpr rfl, ?_⟩⟩⟩
  simp [seenOf, Asked.asks, Asked.entry, Entry.events, Nat.add_assoc]

theorem Apart.entries {as : List Asked} (h : Apart as) :
    (as.map Asked.entry).foldlM (check_entry zeroService) (seenOf []) = .ok (seenOf as) := by
  induction as using List.reverseRecOn with
  | nil => rfl
  | append_singleton as a ih =>
    rw [List.map_append, List.foldlM_append]
    exact bind_eq_ok.mpr ⟨_, ih h.of_append, bind_eq_ok.mpr ⟨_, h.entry, rfl⟩⟩

/-- The state of the pool after these were admitted. -/
def served (as : List Asked) (previous : Str) : Body where
  pool_root := "/pool"
  policy_sha256 := sha zeroService.policy_bytes
  service_identity := .null
  predecessor_raw := zeroHead
  entries := as.map Asked.entry
  revision := 1 + as.length
  previous := previous

theorem totals_asked {as : List Asked} (h : ∀ a ∈ as, a.Plain) :
    (as.map Asked.entry).foldlM (add_entry zeroService) (zeroService.base_used, 0) =
      .ok (⟨as.length, as.length, none⟩, ⟨as.length, as.length, as.length, as.length, as.length⟩) := by
  induction as using List.reverseRecOn with
  | nil => rfl
  | append_singleton as a ih =>
    rw [List.map_append, List.foldlM_append]
    refine bind_eq_ok.mpr ⟨_, ih fun x hx => h x (List.mem_append_left _ hx), ?_⟩
    refine bind_eq_ok.mpr ⟨_, bind_eq_ok.mpr ⟨_, read_asked (h a (by simp)), rfl⟩, ?_⟩
    rw [List.length_append]
    rfl

theorem canonical_served {as : List Asked} (hlength : as.length ≤ 2) (b : ByteArray) :
    (value (served as (sha b))).Canonical := by
  have hentry : ∀ a : Asked, a.entry.value.Canonical := by
    intro a
    simp [Asked.entry, Entry.value, textOrNull, EntryState.name, encodable_sha, encodable_hexOf, Distinct]
  have hsafe : Value.SafeInteger (1 + as.length) := by
    unfold Value.SafeInteger
    omega
  simp [value, served, PROFILE, encodable_sha, encodable_hexOf, Distinct, hsafe]
  exact fun a _ => hentry a

theorem validate_served {as : List Asked} (h : Apart as) (hlength : as.length ≤ 2) (b : ByteArray) :
    validate zeroService (signedBy (served as (sha b))) = .ok () := by
  have hnull : python.eq .null .null = true := eq_same .null
  have hauthentic : authenticate zeroService.owner.host (signedBy (served as (sha b))) zeroService.owner.trust =
      .ok (served as (sha b)) := authenticate_signedBy (canonical_served hlength b) rfl
  have hinteger : ∀ n ≤ 3, integer n := by decide
  have hcount : integer as.length := hinteger _ (by omega)
  have hused : fitsWithin ⟨as.length, as.length, none⟩ zeroService.caps :=
    ⟨hcount, hcount, by simp, hlength, hlength.trans (by decide), by simp⟩
  have hresources : Resources.integers ⟨as.length, as.length, as.length, as.length, as.length⟩ ∧
      (⟨as.length, as.length, as.length, as.length, as.length⟩ : Resources) ≤
        zeroService.policy.resource_capacities := by
    refine ⟨?_, hlength, hlength, hlength, hlength, hlength⟩
    intro m hm
    simp [Resources.members, RESOURCES] at hm
    rcases hm with rfl | rfl | rfl | rfl | rfl <;> exact hcount
  have htotals : ∃ t, totals zeroService (served as (sha b)) = .ok t :=
    ⟨_, bind_eq_ok.mpr ⟨_, totals_asked h.plain, seq_eq_ok.mpr ⟨needOr_eq_ok.mpr hused,
      seq_eq_ok.mpr ⟨needOr_eq_ok.mpr hresources, rfl⟩⟩⟩⟩
  obtain ⟨t, ht⟩ := htotals
  have hrevision : integer (served as (sha b)).revision := hinteger (1 + as.length) (by omega)
  refine bind_eq_ok.mpr ⟨_, hauthentic, seq_eq_ok.mpr ⟨need_eq_ok.mpr rfl, ?_⟩⟩
  refine seq_eq_ok.mpr ⟨need_eq_ok.mpr ⟨rfl, rfl, hnull, rfl, hrevision, hex64_sha b⟩, ?_⟩
  refine bind_eq_ok.mpr ⟨_, h.entries, seq_eq_ok.mpr ⟨need_eq_ok.mpr ?_, ?_⟩⟩
  · show 1 + as.length = 0 + (1 + as.length)
    omega
  · exact bind_eq_ok.mpr ⟨t, ht, rfl⟩

theorem room_approval (a : Asked) : canon.textRoom (value a.approval) ≤ 5000 := by
  have hbody : canon.textRoom (value (approval_body zeroService (bytesOf a.request) (sha (bytesOf a.preview)))) ≤
      2000 := by
    show canon.textRoom (approval_body zeroService (bytesOf a.request) (sha (bytesOf a.preview))) ≤ 2000
    simp only [approval_body, canon.textRoom, canon.textRoomMembers, length_sha]
    decide
  have hsigned := room_signedAs "a" (approval_body zeroService (bytesOf a.request) (sha (bytesOf a.preview)))
  have hissuer : (lit "a").length = 1 := by decide
  unfold Asked.approval
  omega

theorem room_entry (h : a.Plain) : canon.textRoom a.entry.value ≤ 390000 := by
  have hcanonical : (value a.approval).Canonical := canonical_signedAs (canonical_approval_body a) "a"
  have hrequest := size_bytesOf (canonical_request a)
  have happroval := size_bytesOf hcanonical
  have hroom := room_request h
  have hroom' := room_approval a
  simp only [Asked.entry, Entry.value, textOrNull, Option.map_none, Option.getD_none, EntryState.name, canon.textRoom,
    canon.textRoomMembers, length_sha, length_hexOf]
  generalize (bytesOf a.request).size = n at hrequest ⊢
  generalize (bytesOf (value a.approval)).size = m at happroval ⊢
  simp [lit, ofText]
  omega

theorem room_served {as : List Asked} (h : ∀ a ∈ as, a.Plain) (hlength : as.length ≤ 2) (b : ByteArray) :
    canon.textRoom (value (served as (sha b))) ≤ 1030000 := by
  have hentries : ∀ as : List Asked, (∀ a ∈ as, a.Plain) →
      canon.textRoomItems ((as.map Asked.entry).map Entry.value) ≤ 390001 * as.length := by
    intro as h
    induction as with
    | nil => exact Nat.zero_le _
    | cons a as ih =>
      have hentry := room_entry (h a (by simp))
      have hrest := ih fun x hx => h x (by simp [hx])
      simp only [List.map_cons, List.length_cons, canon.textRoomItems]
      omega
  have hroom := hentries as h
  have hhead := size_zeroHead
  have hstate := @room_state (served as (sha b)) rfl
  have hpool : (served as (sha b)).pool_root.length = 5 := show (lit "/pool").length = 5 by decide
  have hpolicy : (served as (sha b)).policy_sha256.length = 64 := length_sha _
  have hprevious : (served as (sha b)).previous.length = 64 := length_sha _
  have hraw : (served as (sha b)).predecessor_raw.size = zeroHead.size := rfl
  have hserved : (served as (sha b)).entries = as.map Asked.entry := rfl
  rw [← hserved] at hroom
  -- the sizes are all that counts from here on
  generalize served as (sha b) = state at hstate hpool hpolicy hprevious hraw hroom ⊢
  generalize zeroHead = head at hhead hraw
  omega

theorem depth_served (as : List Asked) (b : ByteArray) : (value (signedBy (served as (sha b)))).depth ≤ 64 := by
  have hentries : Value.depthItems ((as.map Asked.entry).map Entry.value) ≤ 1 := by
    refine Value.depthItems_le.mpr fun v hv => ?_
    obtain ⟨e, he, rfl⟩ := List.mem_map.mp hv
    obtain ⟨a, -, rfl⟩ := List.mem_map.mp he
    simp [Asked.entry, Entry.value, textOrNull, Value.depth, Value.depthMembers]
  simp only [value, signedBy, signedAs, Envelope.unsigned, Envelope.message, zeroHost, child_ledger.producer, served,
    List.cons_append, List.nil_append, Value.depth, Value.depthMembers]
  omega

/-- The pool publishes such a state, and reads it. -/
theorem publish_served {as : List Asked} (h : Apart as) (hlength : as.length ≤ 2) (b : ByteArray) :
    publish zeroService (served as (sha b)) = .ok (signedBy (served as (sha b))) ∧
      read_record (signedBy (served as (sha b))) = .ok () := by
  have hbody := canonical_served hlength b
  have hc := canonical_signedBy hbody
  have hroom := room_served h.plain hlength b
  have hissuer : canon.strWidth (lit "o") = 3 ∧ (lit "o").length = 1 := by decide
  constructor
  · refine bind_eq_ok.mpr ⟨_, envelope_signedBy hbody, seq_eq_ok.mpr ⟨validate_served h hlength b, ?_⟩⟩
    refine bind_eq_ok.mpr ⟨_, lift_eq_ok.mpr (bytesOf_eq hc), seq_eq_ok.mpr ⟨need_eq_ok.mpr ?_, rfl⟩⟩
    have hsize := size_signed signs_zeroHost (envelope_signedBy hbody) (lift_eq_ok.mpr (bytesOf_eq hc))
    unfold MAX_BYTES
    omega
  · refine read_small hc ?_ (depth_served as b)
    have hsigned := room_signedAs "o" (served as (sha b))
    unfold signedBy
    omega

/-- The file of the pool, with these in it. -/
def diskOf (as : List Asked) (b : ByteArray) : journal.Disk State where
  state := .whole (.service (signedBy (served as (sha b))))
  pending := none

theorem attach_zero (b : ByteArray) (hprevious : zeroService.predecessor.sha256 = sha b) :
    attach zeroService zeroHead = .ok (signedBy (served [] (sha b))) := by
  have hapart : Apart [] := ⟨by simp, by simp, by simp, by simp⟩
  have hpublish := (publish_served hapart (by decide) b).1
  unfold attach
  rw [needOr_eq_ok.mpr (show zeroHead = zeroService.head from rfl), ok_bind, hprevious]
  exact hpublish

theorem previous_zero : ∃ b, zeroService.predecessor.sha256 = sha b := by
  obtain ⟨_, b, hrecord⟩ := envelope_shape (envelope_signedBy canonical_zeroBody)
  refine ⟨b, ?_⟩
  show (signedBy zeroBody).sha256 = sha b
  rw [hrecord]

theorem publish_disk (w : World) (record : Envelope Body) (h : w.disk.pending = none) :
    (w.publish (.ok record) none).1.disk = { state := .whole (.service record), pending := none } :=
  journal.publish_none h

theorem step_attach (P : Nat → ServicePool) (F : Files) (w : World) (pool : Nat) :
    step P F none w (.attach pool) = (w.publish (w.attach (P pool)) none).1 := rfl

theorem attach_small : ∃ b,
    (step (fun _ => zeroService) noFiles none (start zeroHead) (.attach 0)).disk = diskOf [] b := by
  obtain ⟨b, hb⟩ := previous_zero
  have hnext : (start zeroHead).attach zeroService = .ok (signedBy (served [] (sha b))) := by
    unfold World.attach
    rw [show (start zeroHead).state = .ok (.prior zeroHead) from rfl, ok_bind]
    exact attach_zero b hb
  refine ⟨b, ?_⟩
  rw [step_attach, hnext, publish_disk _ _ rfl]
  rfl

theorem admit_asked (h : a.Plain) (b : Body) :
    admit_entry zeroService a.files a.asks (bytesOf a.request) (bytesOf a.preview) (bytesOf (value a.approval)) "t" b =
      .ok { b with entries := b.entries ++ [a.entry] } := by
  have hresources : equalsResources Asked.limits ⟨1, 1, 1, 1, 1⟩ = true := by decide
  have hself : ∀ s, isStr (.str s) s = true := by simp
  have hpath : path a.files a.asks.attempt_root = .ok (parts a.root) :=
    seq_eq_ok.mpr ⟨need_eq_ok.mpr h.root.1, seq_eq_ok.mpr ⟨needOr_eq_ok.mpr ⟨h.absolute.1, h.absolute.2, rfl⟩, rfl⟩⟩
  have hpreview : check_preview zeroService a.files a.asks (bytesOf a.preview) = .ok (parts a.root) := by
    refine bind_eq_ok.mpr ⟨_, evidence_preview h, ?_⟩
    refine seq_eq_ok.mpr ⟨need_eq_ok.mpr ⟨rfl, hself _, hself _, hresources, hself _, hself _⟩, ?_⟩
    refine seq_eq_ok.mpr ⟨need_eq_ok.mpr ?_, ?_⟩
    · intro k hk
      simp only [List.mem_cons, List.not_mem_nil, or_false] at hk
      rcases hk with rfl | rfl | rfl | rfl | rfl | rfl <;> rfl
    · refine bind_eq_ok.mpr ⟨_, hpath, seq_eq_ok.mpr ⟨need_eq_ok.mpr rfl, ?_⟩⟩
      exact bind_eq_ok.mpr ⟨bytesOf a.preview, rfl, seq_eq_ok.mpr ⟨needOr_eq_ok.mpr rfl, rfl⟩⟩
  unfold admit_entry
  rw [hpreview, ok_bind, needOr_eq_ok.mpr (show a.files.lexists _ = false from rfl), ok_bind]
  rfl

/-- An admission of an attempt that is new to the pool. -/
theorem next_small {as : List Asked} (h : Apart (as ++ [a])) (hlength : as.length ≤ 1) (b : ByteArray)
    (w : World) (hdisk : w.disk = diskOf as b) : ∃ b',
    w.next zeroService (admit_request zeroService a.files (bytesOf a.request) (bytesOf a.preview)
      (bytesOf (value a.approval)) "t") = .ok (signedBy (served (as ++ [a]) (sha b'))) := by
  have hplain := h.plain a (by simp)
  have hold := publish_served h.of_append (by omega) b
  have hstate : w.state = .ok (.service (signedBy (served as (sha b)))) := by
    unfold World.state
    rw [hdisk]
    rfl
  obtain ⟨_, b', hrecord⟩ := envelope_shape (envelope_signedBy (@canonical_served as (by omega) b))
  have hprevious : (signedBy (served as (sha b))).sha256 = sha b' := by rw [hrecord]
  have hmade : admit_request zeroService a.files (bytesOf a.request) (bytesOf a.preview)
      (bytesOf (value a.approval)) "t" = .ok (admit_entry zeroService a.files a.asks (bytesOf a.request)
        (bytesOf a.preview) (bytesOf (value a.approval)) "t") :=
    seq_eq_ok.mpr ⟨need_eq_ok.mpr (show text (lit "t") by decide), bind_eq_ok.mpr ⟨_, read_asked hplain,
      seq_eq_ok.mpr ⟨check_asked a, rfl⟩⟩⟩
  have hchange : change zeroService (signedBy (served as (sha b))) (admit_entry zeroService a.files a.asks
      (bytesOf a.request) (bytesOf a.preview) (bytesOf (value a.approval)) "t") =
        .ok (signedBy (served (as ++ [a]) (sha b'))) := by
    have hbody : ({ served as (sha b) with
        entries := (served as (sha b)).entries ++ [a.entry]
        revision := (served as (sha b)).revision + 1
        previous := sha b' } : Body) = served (as ++ [a]) (sha b') := by
      simp [served, Nat.add_assoc]
    unfold change
    rw [hold.2, ok_bind, validate_served h.of_append (by omega) b, ok_bind,
      show (signedBy (served as (sha b))).body = served as (sha b) from rfl, admit_asked hplain, ok_bind, hprevious,
      hbody]
    exact (publish_served h (by simpa using hlength) b').1
  refine ⟨b', ?_⟩
  unfold World.next
  rw [hmade, ok_bind, hstate, ok_bind]
  exact hchange

theorem step_admit (P : Nat → ServicePool) {w : World} {record : Envelope Body} {a : Asked}
    (h : w.next (P 0) (admit_request (P 0) a.files (bytesOf a.request) (bytesOf a.preview)
      (bytesOf (value a.approval)) "t") = .ok record) (hpending : w.disk.pending = none) :
    (step P a.admission.files a.admission.fault w a.admission.call).disk =
      { state := .whole (.service record), pending := none } := by
  unfold Asked.admission step World.change
  dsimp only
  rw [h]
  exact journal.publish_none hpending

theorem run_one (P : Nat → ServicePool) (w : World) (t : Turn) :
    run P w [t] = step P t.files t.fault w t.call := rfl

/-- The pool is attached, and asked for these. -/
def turnsOf (as : List Asked) : List Turn := ⟨noFiles, none, .attach 0⟩ :: as.map Asked.admission

/-- The pool after it was attached and asked for these. -/
theorem run_small {as : List Asked} (h : Apart as) (hlength : as.length ≤ 2) : ∃ b,
    (run (fun _ => zeroService) (start zeroHead) (turnsOf as)).disk = diskOf as b := by
  induction as using List.reverseRecOn with
  | nil =>
    unfold turnsOf
    rw [List.map_nil, run_one]
    exact attach_small
  | append_singleton as a ih =>
    rw [List.length_append, List.length_singleton] at hlength
    obtain ⟨b, hb⟩ := ih h.of_append (by omega)
    have hpending : (run (fun _ => zeroService) (start zeroHead) (turnsOf as)).disk.pending = none := by
      rw [hb]
      rfl
    have hturns : turnsOf (as ++ [a]) = turnsOf as ++ [a.admission] := by simp [turnsOf]
    obtain ⟨b', hb'⟩ := next_small h (by omega) b _ hb
    refine ⟨b', ?_⟩
    rw [hturns, run_concat, step_admit (fun _ => zeroService) hb' hpending]
    rfl

theorem canonicalRoot_turnsOf {as : List Asked} (h : ∀ a ∈ as, a.Plain ∧ CanonicalText a.root) :
    ∀ t ∈ turnsOf as, t.call.CanonicalRoot := by
  intro t ht pool request_bytes preview_bytes approval_bytes recorded_at hcall root hroot
  rcases List.mem_cons.mp ht with rfl | ht
  · cases hcall
  · obtain ⟨a, ha, rfl⟩ := List.mem_map.mp ht
    obtain ⟨hplain, hcanonical⟩ := h a ha
    obtain rfl : bytesOf a.request = request_bytes := by
      have hsame := Call.admit_request.inj hcall
      exact hsame.2.1
    rw [rootOf_request (read_asked hplain)] at hroot
    obtain rfl := Option.some.inj hroot
    exact hcanonical

/-- Directories that were charged once are different ones. -/
theorem parts_of_chargedOnce {as : List Asked} {b : ByteArray} (hplain : ∀ a ∈ as, a.Plain)
    (h : (served as (sha b)).ChargedOnce zeroService) : (as.map fun a => parts a.root).Nodup := by
  obtain ⟨qs, hqs, -, hroots, -⟩ := h
  have hasked : qs = as.map Asked.asks := by
    have hmap : List.Forall₂ (fun a q => read_request zeroService (bytesOf a.request) = .ok q) as qs :=
      List.forall₂_map_left_iff.mp hqs
    clear hqs hroots
    induction hmap with
    | nil => rfl
    | @cons a q as qs hread _ ih =>
      rw [read_asked (hplain a (by simp))] at hread
      rw [← Except.ok.inj hread, ih fun x hx => hplain x (by simp [hx])]
      rfl
  rw [hasked, List.map_map] at hroots
  exact hroots

end Asking

def first : Asked := ⟨"1", "/r/a"⟩
/-- The same directory, under another text. -/
def again : Asked := ⟨"2", "/r//a"⟩
def second : Asked := ⟨"2", "/r/b"⟩

theorem plain_attempts : first.Plain ∧ again.Plain ∧ second.Plain :=
  ⟨⟨by decide, by decide, by decide⟩, ⟨by decide, by decide, by decide⟩, ⟨by decide, by decide, by decide⟩⟩

theorem previews_apart : ([first, again, second].map fun a => sha (bytesOf a.preview)).Nodup := by
  simp only [List.map_cons, List.map_nil, sha_bytesOf]
  decide +kernel

theorem apart_again : Apart [first, again] where
  plain := by simp [plain_attempts]
  ids := by decide
  roots := by decide
  previews := previews_apart.sublist (by simp)

theorem apart_second : Apart [first, second] where
  plain := by simp [plain_attempts]
  ids := by decide
  roots := by decide
  previews := previews_apart.sublist (by simp)

/-- A pool that is asked for `/r/a` and for `/r//a` charges one directory twice. -/
theorem service_charges_a_directory_twice :
    service_attempt.init noFiles zeroService.predecessor zeroService.head zeroService.policy_bytes
      zeroService.profile = .ok zeroService ∧
    ∃ record e e', (run (fun _ => zeroService) (start zeroHead) (turnsOf [first, again])).disk.state =
        .whole (.service record) ∧
      record.body.entries = [e, e'] ∧ rootOf e.request_raw = some "/r/a" ∧ rootOf e'.request_raw = some "/r//a" ∧
      parts "/r/a" = parts "/r//a" ∧ ¬ record.body.ChargedOnce zeroService := by
  refine ⟨init_zeroService, ?_⟩
  obtain ⟨b, hdisk⟩ := run_small apart_again (by decide)
  refine ⟨_, first.entry, again.entry, by rw [hdisk]; rfl, rfl, rootOf_request (read_asked plain_attempts.1),
    rootOf_request (read_asked plain_attempts.2.1), by decide, fun h => ?_⟩
  have hparts := parts_of_chargedOnce (by simp [plain_attempts]) h
  revert hparts
  decide

theorem service_charges_directories_once_small :
    service_attempt.init noFiles zeroService.predecessor zeroService.head zeroService.policy_bytes
      zeroService.profile = .ok zeroService ∧
    Safe (fun _ => zeroService) zeroHead (turnsOf [first, second]) ∧
    ∃ record, (run (fun _ => zeroService) (start zeroHead) (turnsOf [first, second])).disk.state =
        .whole (.service record) ∧
      record.body.entries = [first.entry, second.entry] ∧ record.body.ChargedOnce zeroService := by
  have hcanonical : ∀ t ∈ turnsOf [first, second], t.call.CanonicalRoot := by
    refine canonicalRoot_turnsOf fun a ha => ?_
    simp only [List.mem_cons, List.not_mem_nil, or_false] at ha
    rcases ha with rfl | rfl
    · exact ⟨plain_attempts.1, by decide⟩
    · exact ⟨plain_attempts.2.2, by decide⟩
  obtain ⟨hsafe, hcharged⟩ :=
    service_charges_directories_once (fun _ => zeroService) zeroHead (turnsOf [first, second]) hcanonical
  obtain ⟨b, hdisk⟩ := run_small apart_second (by decide)
  have hstate : (run (fun _ => zeroService) (start zeroHead) (turnsOf [first, second])).disk.state =
      .whole (.service (signedBy (served [first, second] (sha b)))) := by
    rw [hdisk]
    rfl
  obtain ⟨t, -, honce⟩ := hcharged _ hstate
  exact ⟨init_zeroService, hsafe, _, hstate, rfl, honce⟩

end vfy.service_attempt
