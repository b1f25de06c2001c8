-- The attempts and destinations of the managed epoch, as the paths that they
-- are. Two texts may name one path: an epoch that is asked under both holds it
-- twice.
import VerifyRun.ManagedRequests

namespace vfy.managed_capacity

open python keys outcomes child_ledger common_capacity engineer service_tests

/-! ## Every run -/

/-- What is asked for in a call names its attempt and its destination as `str` does. -/
def Call.CanonicalPaths (c : Call) : Prop :=
  ∀ owner R recorded_at q, c = .prepare_managed owner R recorded_at →
    read_request R.request_bytes = .ok q →
      CanonicalText q.managed_attempt ∧ CanonicalText q.destination

/-- No capture, attempt directory or destination file is in two holds. -/
structure Body.HeldOnce (b : Body) : Prop where
  captures : (b.managed_entries.map fun e => e.binding.capture_identity).Nodup
  attempts : (b.managed_entries.map fun e => parts e.binding.managed_attempt).Nodup
  destinations : (b.managed_entries.map fun e => parts e.binding.destination).Nodup

section Runs

variable {M : Nat → ManagedOwner} {legacy : Envelope common_capacity.Body} {turns : List Turn}

/-- What is held was asked for. -/
theorem asked_of_hold {i : Nat} {e : Entry} (h : (run M (start legacy) turns).entries[i]? = some e) :
    ∃ t ∈ turns, ∃ owner R recorded_at, t.call = .prepare_managed owner R recorded_at ∧
      read_request R.request_bytes = .ok e.binding := by
  induction turns using List.reverseRecOn generalizing e with
  | nil => simp [run, start, World.entries] at h
  | append_singleton turns t ih =>
    have hsafe := epoch_is_safe M legacy turns
    have hbefore : ∀ e₀ : Entry, (run M (start legacy) turns).entries[i]? = some e₀ →
        e₀.binding = e.binding → ∃ t' ∈ turns ++ [t], ∃ owner R recorded_at,
          t'.call = .prepare_managed owner R recorded_at ∧ read_request R.request_bytes = .ok e.binding := by
      intro e₀ hi hbinding
      obtain ⟨x, hx, hcall⟩ := ih hi
      rw [hbinding] at hcall
      exact ⟨x, List.mem_append_left _ hx, hcall⟩
    rcases hsafe.step t with hsame | hchange
    · rw [hsame] at h
      exact hbefore e h rfl
    · rcases hchange.came h with ⟨e₀, hi, -⟩ | ⟨-, owner, R, recorded_at, key, hcall, -, hread⟩
      · obtain ⟨e', he', hlater⟩ := hsafe.kept [t] i e₀ hi
        obtain rfl := Option.some.inj (he'.symm.trans h)
        exact hbefore e₀ hi hlater.binding.symm
      · exact ⟨t, by simp, owner, R, recorded_at, hcall, hread⟩

/-- Two paths that are written canonically are one only where they are one text. -/
theorem nodup_parts {es : List Entry} {name : Entry → Str} (h : (es.map name).Nodup)
    (hcanonical : ∀ e ∈ es, CanonicalText (name e)) : (es.map fun e => parts (name e)).Nodup := by
  have hparts : (es.map name).map parts = es.map fun e => parts (name e) := List.map_map
  rw [← hparts]
  refine h.map_on fun v hv w hw hsame => ?_
  obtain ⟨e, he, rfl⟩ := List.mem_map.mp hv
  obtain ⟨e', he', rfl⟩ := List.mem_map.mp hw
  exact (hcanonical e he).eq_of_parts (hcanonical e' he') hsame

/-- The managed epoch keeps its holds and takes no path twice, over every
sequence of calls whose requests name their paths as `str` does. -/
theorem epoch_holds_paths_once (M : Nat → ManagedOwner) (legacy : Envelope common_capacity.Body)
    (turns : List Turn) (h : ∀ t ∈ turns, t.call.CanonicalPaths) :
    Safe M legacy turns ∧ ∀ record, (run M (start legacy) turns).disk.state = .whole (.managed record) →
      record.body.HeldOnce := by
  have hsafe := epoch_is_safe M legacy turns
  refine ⟨hsafe, fun record hstate => ?_⟩
  rcases hsafe.published with hlegacy | ⟨record', hstate', -, t, ht, -, hsound⟩
  · rw [hstate] at hlegacy
    cases hlegacy
  · obtain rfl : record = record' := by
      rw [hstate] at hstate'
      cases hstate'
      rfl
    have hasked : ∀ e ∈ record.body.managed_entries,
        CanonicalText e.binding.managed_attempt ∧ CanonicalText e.binding.destination := by
      intro e he
      rw [← World.entries_of_state hstate] at he
      obtain ⟨i, hi⟩ := List.mem_iff_getElem?.mp he
      obtain ⟨x, hx, owner, R, recorded_at, hcall, hread⟩ := asked_of_hold hi
      exact h x hx owner R recorded_at _ hcall hread
    exact ⟨hsound.captures, nodup_parts hsound.attempts fun e he => (hasked e he).1,
      nodup_parts hsound.destinations fun e he => (hasked e he).2⟩

end Runs

/-! ## An epoch that is asked twice -/

/-- The grant of the small epoch. -/
def zeroGrant : Grant where
  grant_id := "g"
  pool_root := "/pool"
  config_sha256 := configHash
  owner_issuer := "o"
  expected_head := (headOf zeroEpoch 0).value.normalize
  dispatch_slots := GRANT_SLOTS
  managed_receipt_bytes := GRANT_BYTES

theorem canonical_head : (headOf zeroEpoch 0).value.Canonical := by
  have henvelope : zeroEpoch.legacy.sha256 = sha (bytesOf (.dict (signedBy zeroBody).unsigned)) := rfl
  simp [headOf, Head.value, henvelope, encodable_sha, Distinct, Value.SafeInteger]

theorem canonical_grant : zeroGrant.value.Canonical := by
  have hhead := canonical_head.normalize
  simp [zeroGrant, Grant.value, GRANT_SCHEMA, GRANT_SCOPE, GRANT_SLOTS, GRANT_BYTES, EFFECT, encodable_hashes, Distinct,
    Value.SafeInteger, hhead]

theorem depth_grant : zeroGrant.value.depth = 2 := by
  have hhead : (headOf zeroEpoch 0).value.normalize.depth = 1 := by
    rw [Value.depth_normalize]
    simp [headOf, Head.value, Value.depth, Value.depthMembers]
  simp [zeroGrant, Grant.value, Value.depth, Value.depthMembers, hhead]

theorem read_grant_zero : read_grant (bytesOf zeroGrant.value) = .ok zeroGrant := by
  have hget : ∀ k v, zeroGrant.value.normalize.get? k = some v → item zeroGrant.value.normalize k = .ok v :=
    fun _ _ => item_of_get
  have hload : load.load_json_bytes (bytesOf zeroGrant.value) = .ok zeroGrant.value.normalize :=
    load_bytesOf canonical_grant (depth_grant.trans_le (by decide))
  have hself : ∀ s, isStr (.str s) s = true := by simp
  refine bind_eq_ok.mpr ⟨_, lift_eq_ok.mpr hload, ?_⟩
  refine bind_eq_ok.mpr ⟨_, needKeys_eq_ok.mpr ⟨rfl, rfl⟩, ?_⟩
  refine bind_eq_ok.mpr ⟨_, hget "schema" (.str GRANT_SCHEMA) rfl, ?_⟩
  refine bind_eq_ok.mpr ⟨_, hget "profile_extension" (.str EFFECT) rfl, ?_⟩
  refine bind_eq_ok.mpr ⟨_, hget "retained_byte_dimension" (.str "managed_receipt_bytes") rfl, ?_⟩
  refine bind_eq_ok.mpr ⟨_, hget "scope" (.str GRANT_SCOPE) rfl, ?_⟩
  refine bind_eq_ok.mpr ⟨_, hget "authority_granted" (.bool false) rfl, ?_⟩
  refine bind_eq_ok.mpr ⟨_, hget "automatic_retry" (.bool false) rfl, ?_⟩
  refine seq_eq_ok.mpr ⟨need_eq_ok.mpr ⟨hself _, hself _, hself _, hself _, rfl, rfl⟩, ?_⟩
  refine bind_eq_ok.mpr ⟨.dict [("dispatch_slots", .int 3), ("managed_receipt_bytes", .int 12288)],
    hget "additions" _ rfl, bind_eq_ok.mpr ⟨_, needKeys_eq_ok.mpr ⟨rfl, rfl⟩, ?_⟩⟩
  refine bind_eq_ok.mpr ⟨_, hget "grant_id" (.str "g") rfl, bind_eq_ok.mpr ⟨_, rfl, ?_⟩⟩
  refine bind_eq_ok.mpr ⟨_, hget "pool_root" (.str "/pool") rfl, bind_eq_ok.mpr ⟨_, rfl, ?_⟩⟩
  refine bind_eq_ok.mpr ⟨_, hget "config_sha256" (.str configHash) rfl, bind_eq_ok.mpr ⟨_, rfl, ?_⟩⟩
  refine bind_eq_ok.mpr ⟨_, hget "owner_issuer" (.str "o") rfl, bind_eq_ok.mpr ⟨_, rfl, ?_⟩⟩
  refine bind_eq_ok.mpr ⟨_, hget "expected_head" (headOf zeroEpoch 0).value.normalize rfl, ?_⟩
  refine bind_eq_ok.mpr ⟨.int 3, item_of_get rfl, bind_eq_ok.mpr ⟨3, integerOf_size (by decide), ?_⟩⟩
  exact bind_eq_ok.mpr ⟨.int 12288, item_of_get rfl, bind_eq_ok.mpr ⟨12288, integerOf_size (by decide), rfl⟩⟩

theorem grant_shape_zero : grant_shape zeroEpoch zeroGrant = .ok () := by
  have htext : text zeroGrant.grant_id := show text (lit "g") by decide
  exact seq_eq_ok.mpr ⟨need_eq_ok.mpr ⟨htext, rfl, sha_config.symm, rfl⟩, need_eq_ok.mpr ⟨rfl, rfl⟩⟩

theorem head_zero : python.eq zeroGrant.expected_head (headOf zeroEpoch 0).value = true := by
  show python.eq (headOf zeroEpoch 0).value.normalize (headOf zeroEpoch 0).value = true
  rw [eq_normalize_left]
  exact eq_same canonical_head.distinctKeys

theorem legacy_zero : legacy_view zeroEpoch = .ok (0, ⟨0, 0, none⟩) := by
  have hc := canonical_signedBy canonical_zeroBody
  have hroom : canon.textRoom (value (signedBy zeroBody)) ≤ 2 ^ 20 := by
    have hbody := room_zeroBody
    have hsigned := room_signedAs "o" zeroBody
    have hissuer : (lit "o").length = 1 := by decide
    unfold signedBy
    generalize canon.textRoom (value (signedAs (lit "o") zeroBody)) = room at hsigned ⊢
    generalize canon.textRoom (value zeroBody) = n at hbody hsigned
    omega
  refine bind_eq_ok.mpr ⟨_, lift_eq_ok.mpr (bytesOf_eq hc), seq_eq_ok.mpr ⟨need_eq_ok.mpr rfl, ?_⟩⟩
  refine seq_eq_ok.mpr ⟨seq_eq_ok.mpr ⟨read_small hc hroom depth_zeroBody, validate_zeroBody⟩, ?_⟩
  exact seq_eq_ok.mpr ⟨needOr_eq_ok.mpr rfl, rfl⟩

namespace Asked

/-- What the key of the hold is the digest of. -/
def keyed (a : Asked) : Value := .dict
  [("managed_state", .str "/s"), ("managed_attempt", .str a.attempt), ("capture_identity", .str a.captureHash),
   ("destination", .str a.destination), ("profile", .str EFFECT)]

def key (a : Asked) : Str := sha (bytesOf a.keyed)

/-- The hold that is taken for it. -/
def entry (a : Asked) : Entry where
  key := a.key
  binding := a.binding
  recorded_at := "t"
  consumption := none
  settlement := none
  retained_bytes := HOLD

/-- The call that takes it. -/
def preparation (a : Asked) : Turn where
  files := a.files
  fault := none
  call := .prepare_managed 0 a.given "t"

end Asked

section Holds

variable {a : Asked}

theorem effect_key_asked (a : Asked) : effect_key a.binding = .ok a.key := by
  have hdestination : Encodable a.destination := encodable_lit _
  have hcanonical : a.keyed.Canonical := by
    simp [Asked.keyed, Asked.captureHash, EFFECT, encodable_sha, Distinct, hdestination]
  exact bind_eq_ok.mpr ⟨_, lift_eq_ok.mpr (bytesOf_eq hcanonical), rfl⟩

/-- What was met so far, where only these were held. -/
def seenOf (as : List Asked) : Seen where
  keys := as.map Asked.key
  captures := as.map Asked.captureHash
  attempts := as.map fun a => lit a.attempt
  destinations := as.map Asked.destination
  events := 1 + as.length

/-- Holds that an epoch takes for different ones. -/
structure Apart (as : List Asked) : Prop where
  plain : ∀ a ∈ as, a.Plain
  keys : (as.map Asked.key).Nodup
  captures : (as.map Asked.captureHash).Nodup
  attempts : (as.map fun a => lit a.attempt).Nodup
  destinations : (as.map Asked.destination).Nodup

theorem Apart.of_append {as more : List Asked} (h : Apart (as ++ more)) : Apart as := by
  obtain ⟨hplain, hkeys, hcaptures, hattempts, hdestinations⟩ := h
  simp only [List.map_append] at hkeys hcaptures hattempts hdestinations
  exact ⟨fun a ha => hplain a (List.mem_append_left _ ha), hkeys.of_append_left, hcaptures.of_append_left,
    hattempts.of_append_left, hdestinations.of_append_left⟩

/-- What is new among these was not met before it. -/
theorem Apart.fresh {as : List Asked} (h : Apart (as ++ [a])) :
    a.key ∉ (seenOf as).keys ∧ a.captureHash ∉ (seenOf as).captures ∧ lit a.attempt ∉ (seenOf as).attempts ∧
      a.destination ∉ (seenOf as).destinations := by
  obtain ⟨-, hkeys, hcaptures, hattempts, hdestinations⟩ := h
  simp only [List.map_append, List.map_cons, List.map_nil, List.nodup_append,
    List.mem_singleton] at hkeys hcaptures hattempts hdestinations
  exact ⟨fun hmem => hkeys.2.2 _ hmem _ rfl rfl, fun hmem => hcaptures.2.2 _ hmem _ rfl rfl,
    fun hmem => hattempts.2.2 _ hmem _ rfl rfl, fun hmem => hdestinations.2.2 _ hmem _ rfl rfl⟩

theorem Apart.entry {as : List Asked} (h : Apart (as ++ [a])) (x : Asked) :
    check_entry zeroEpoch x.files (seenOf as) a.entry = .ok (seenOf (as ++ [a])) := by
  obtain ⟨hkey, hcapture, hattempt, hdestination⟩ := h.fresh
  have hretained : integer HOLD := by decide
  refine seq_eq_ok.mpr ⟨binding_shape_asked (h.plain a (by simp)) x, seq_eq_ok.mpr ⟨need_eq_ok.mpr hretained, ?_⟩⟩
  refine bind_eq_ok.mpr ⟨_, effect_key_asked a, seq_eq_ok.mpr ⟨need_eq_ok.mpr ⟨rfl, hkey⟩, ?_⟩⟩
  refine seq_eq_ok.mpr ⟨needOr_eq_ok.mpr ⟨hcapture, hattempt, hdestination⟩, ?_⟩
  refine seq_eq_ok.mpr ⟨need_eq_ok.mpr (show text (lit "t") by decide), seq_eq_ok.mpr ⟨need_eq_ok.mpr ?_, ?_⟩⟩
  · simp [Asked.entry]
  · refine seq_eq_ok.mpr ⟨need_eq_ok.mpr rfl, ?_⟩
    simp [seenOf, Asked.binding, Asked.entry, Entry.events, Nat.add_assoc]

theorem Apart.entries {as : List Asked} (h : Apart as) (x : Asked) :
    (as.map Asked.entry).foldlM (check_entry zeroEpoch x.files) (seenOf []) = .ok (seenOf as) := by
  induction as using List.reverseRecOn with
  | nil => rfl
  | append_singleton as a ih =>
    rw [List.map_append, List.foldlM_append]
    exact bind_eq_ok.mpr ⟨_, ih h.of_append, bind_eq_ok.mpr ⟨_, h.entry x, rfl⟩⟩

/-- The state of the epoch after these were held. -/
def held (as : List Asked) (previous : Str) : Body where
  pool_root := "/pool"
  config_sha256 := sha zeroOwner.config_bytes
  owner_profile := .null
  legacy_raw := zeroHead
  callback_identity := zeroCallback
  revision := 1 + as.length
  previous := previous
  grants := [(zeroGrant, "t")]
  managed_entries := as.map Asked.entry

theorem canonical_entry (a : Asked) : a.entry.value.Canonical := by
  have hdone := safe_size (size_done a).2
  have hreceipt := safe_size ((size_receipt a).2.trans (by decide))
  have hhold : Value.SafeInteger HOLD := by decide
  have hencodable : Encodable a.destination ∧ Encodable a.capturePath := ⟨encodable_lit _, encodable_lit _⟩
  simp [Asked.entry, Entry.value, Asked.key, Asked.binding, Binding.members, zeroIdentity, TaskIdentity.value,
    Artifact.value, startRef, inspectionRef, bindingRef, adapterRef, Asked.captureRef, Asked.captureHash, Callback.value,
    zeroCallback, encodable_hashes, encodable_sha, EFFECT, Distinct, hdone, hreceipt, hhold, hencodable]

theorem canonical_held {as : List Asked} (hlength : as.length ≤ 2) (b : ByteArray) :
    (value (held as (sha b))).Canonical := by
  have hsafe : Value.SafeInteger (1 + as.length) := by
    unfold Value.SafeInteger
    omega
  have hgrant := canonical_grant
  simp [value, held, PROFILE, Callback.value, zeroCallback, EFFECT, encodable_sha, encodable_hexOf, encodable_hashes,
    Distinct, hsafe, hgrant]
  exact fun a _ => canonical_entry a

theorem usage_held (as : List Asked) (b : ByteArray) :
    usage ⟨0, 0, none⟩ (held as (sha b)) = ⟨as.length, 0, some (as.length * HOLD)⟩ := by
  have hretained : (as.map Asked.entry).map Entry.retained_bytes = List.replicate as.length HOLD := by
    rw [List.map_map]
    exact List.map_const
  simp [usage, held, hretained]

theorem validate_held {as : List Asked} (h : Apart as) (hlength : as.length ≤ 2) (b : ByteArray) (x : Asked) :
    validate_record zeroEpoch x.files (signedBy (held as (sha b))) = .ok () := by
  have hnull : python.eq .null .null = true := eq_same .null
  have hauthentic : authenticate zeroEpoch.owner.host (signedBy (held as (sha b))) zeroEpoch.owner.trust =
      .ok (held as (sha b)) := authenticate_signedBy (canonical_held hlength b) rfl
  have hcaps : capacities zeroEpoch (held as (sha b)) = .ok ⟨5, 262144, some 12288⟩ := rfl
  have hinteger : ∀ n ≤ 2, integer n ∧ integer (n * HOLD) ∧ n * HOLD ≤ 12288 := by decide
  obtain ⟨hcount, hbytes, hroom⟩ := hinteger _ hlength
  have hfits : fitsWithin (usage ⟨0, 0, none⟩ (held as (sha b))) ⟨5, 262144, some 12288⟩ := by
    rw [usage_held]
    exact ⟨hcount, show integer 0 by decide, by simpa using hbytes, hlength.trans (by decide), Nat.zero_le _,
      by simpa using hroom⟩
  refine bind_eq_ok.mpr ⟨_, hauthentic, seq_eq_ok.mpr ⟨need_eq_ok.mpr rfl, ?_⟩⟩
  refine seq_eq_ok.mpr ⟨need_eq_ok.mpr ⟨hnull, rfl, rfl, rfl⟩, seq_eq_ok.mpr ⟨needOr_eq_ok.mpr rfl, ?_⟩⟩
  refine bind_eq_ok.mpr ⟨_, legacy_zero, seq_eq_ok.mpr ⟨grant_shape_zero, ?_⟩⟩
  refine seq_eq_ok.mpr ⟨need_eq_ok.mpr (show text (lit "t") by decide), ?_⟩
  refine seq_eq_ok.mpr ⟨need_eq_ok.mpr head_zero, bind_eq_ok.mpr ⟨_, h.entries x, ?_⟩⟩
  refine seq_eq_ok.mpr ⟨need_eq_ok.mpr (Nat.zero_add _).symm, seq_eq_ok.mpr ⟨need_eq_ok.mpr (hex64_sha b), ?_⟩⟩
  exact bind_eq_ok.mpr ⟨_, hcaps, need_eq_ok.mpr hfits⟩

theorem room_hold (h : a.Plain) : canon.textRoom a.entry.value ≤ 20000 := by
  have hattempt := h.attempt.2.1
  have hdestination := h.destination.2.1
  have hcapture := h.capturePath.2.1
  simp only [Asked.entry, Entry.value, Asked.key, Asked.binding, Binding.members, zeroIdentity, TaskIdentity.value,
    Artifact.value, startRef, inspectionRef, bindingRef, adapterRef, Asked.captureRef, Asked.captureHash, Callback.value,
    zeroCallback, EFFECT, List.map_cons, List.map_nil, Option.map_none, Option.getD_none, canon.textRoom,
    canon.textRoomMembers, canon.textRoomItems, length_sha, length_hashes, length_zeros]
  generalize (lit a.attempt).length = l at hattempt ⊢
  generalize a.destination.length = m at hdestination ⊢
  generalize a.capturePath.length = n at hcapture ⊢
  simp [lit, ofText]
  omega

theorem room_grant : canon.textRoom zeroGrant.value ≤ 8000 := by
  have hhead : canon.textRoom (headOf zeroEpoch 0).value.normalize ≤ 2000 := by
    have henvelope : zeroEpoch.legacy.sha256 = sha (bytesOf (.dict (signedBy zeroBody).unsigned)) := rfl
    have hnormal : (headOf zeroEpoch 0).value.normalize = .dict [("envelope_sha256", .str zeroEpoch.legacy.sha256),
        ("raw_sha256", .str (sha zeroHead)), ("revision", .int 0)] := rfl
    rw [hnormal, henvelope]
    simp only [canon.textRoom, canon.textRoomMembers, length_sha]
    decide
  simp only [zeroGrant, Grant.value, GRANT_SCHEMA, GRANT_SCOPE, EFFECT, canon.textRoom, canon.textRoomMembers,
    length_hashes]
  generalize canon.textRoom (headOf zeroEpoch 0).value.normalize = n at hhead ⊢
  simp [lit, ofText]
  omega

theorem room_body {b : Body} (hprofile : b.owner_profile = .null) :
    canon.textRoom (value b) ≤ 6 * (b.pool_root.length + b.config_sha256.length + b.previous.length) +
      12 * b.legacy_raw.size + canon.textRoom b.callback_identity.value +
      canon.textRoomItems (b.grants.map fun g => Value.dict [("request", g.1.value), ("recorded_at", .str g.2)]) +
      canon.textRoomItems (b.managed_entries.map Entry.value) + 3000 := by
  have hhex := length_hexOf b.legacy_raw
  have hkeys : (lit "schema").length = 6 ∧ PROFILE.length = 22 ∧ (lit "pool_root").length = 9 ∧
      (lit "config_sha256").length = 13 ∧ (lit "owner_profile").length = 13 ∧ (lit "legacy_raw_hex").length = 14 ∧
      (lit "callback_identity").length = 17 ∧ (lit "revision").length = 8 ∧ (lit "previous").length = 8 ∧
      (lit "grants").length = 6 ∧ (lit "managed_entries").length = 15 ∧ (lit "authority_granted").length = 17 ∧
      (lit "automatic_retry").length = 15 := by
    decide
  simp only [value, canon.textRoom, canon.textRoomMembers, hhex, hkeys, hprofile]
  omega

theorem room_held {as : List Asked} (h : ∀ a ∈ as, a.Plain) (hlength : as.length ≤ 2) (b : ByteArray) :
    canon.textRoom (value (held as (sha b))) ≤ 320000 := by
  have hentries : ∀ as : List Asked, (∀ a ∈ as, a.Plain) →
      canon.textRoomItems ((as.map Asked.entry).map Entry.value) ≤ 20001 * as.length := by
    intro as h
    induction as with
    | nil => exact Nat.zero_le _
    | cons a as ih =>
      have hentry := room_hold (h a (by simp))
      have hrest := ih fun x hx => h x (by simp [hx])
      simp only [List.map_cons, List.length_cons, canon.textRoomItems]
      omega
  have hgrants : canon.textRoomItems ([(zeroGrant, lit "t")].map fun g =>
      Value.dict [("request", g.1.value), ("recorded_at", .str g.2)]) ≤ 9000 := by
    have hgrant := room_grant
    have hkeys : (lit "request").length = 7 ∧ (lit "recorded_at").length = 11 ∧ (lit "t").length = 1 := by decide
    simp only [List.map_cons, List.map_nil, canon.textRoomItems, canon.textRoom, canon.textRoomMembers, hkeys]
    omega
  have hcallback : canon.textRoom zeroCallback.value ≤ 2000 := by decide
  have hroom := hentries as h
  have hhead := size_zeroHead
  have hbody := @room_body (held as (sha b)) rfl
  have hpool : (held as (sha b)).pool_root.length = 5 := show (lit "/pool").length = 5 by decide
  have hconfig : (held as (sha b)).config_sha256.length = 64 := length_sha _
  have hprevious : (held as (sha b)).previous.length = 64 := length_sha _
  have hraw : (held as (sha b)).legacy_raw.size = zeroHead.size := rfl
  have hheld : (held as (sha b)).managed_entries = as.map Asked.entry := rfl
  have hgranted : (held as (sha b)).grants = [(zeroGrant, lit "t")] := rfl
  have hcalled : (held as (sha b)).callback_identity = zeroCallback := rfl
  rw [← hheld] at hroom
  rw [← hgranted] at hgrants
  rw [← hcalled] at hcallback
  -- the sizes are all that counts from here on
  generalize held as (sha b) = state at hbody hpool hconfig hprevious hraw hroom hgrants hcallback ⊢
  generalize zeroHead = head at hhead hraw
  omega

theorem depth_held (as : List Asked) (b : ByteArray) : (value (signedBy (held as (sha b)))).depth ≤ 64 := by
  have hentries : Value.depthItems ((as.map Asked.entry).map Entry.value) ≤ 4 := by
    refine Value.depthItems_le.mpr fun v hv => ?_
    obtain ⟨e, he, rfl⟩ := List.mem_map.mp hv
    obtain ⟨a, -, rfl⟩ := List.mem_map.mp he
    simp [Asked.entry, Entry.value, Asked.binding, Binding.members, TaskIdentity.value, Artifact.value, Callback.value,
      Value.depth, Value.depthMembers, Value.depthItems]
  have hgrant := depth_grant
  simp only [value, signedBy, signedAs, Envelope.unsigned, Envelope.message, zeroHost, child_ledger.producer, held,
    Callback.value, List.map_cons, List.map_nil, List.cons_append, List.nil_append, Value.depth, Value.depthMembers,
    Value.depthItems]
  omega

/-- The epoch publishes such a state, and reads it. -/
theorem publish_held {as : List Asked} (h : Apart as) (hlength : as.length ≤ 2) (b : ByteArray) (x : Asked) :
    publish zeroEpoch x.files (held as (sha b)) = .ok (signedBy (held as (sha b))) ∧
      load zeroEpoch x.files (signedBy (held as (sha b))) = .ok () := by
  have hbody := canonical_held hlength b
  have hc := canonical_signedBy hbody
  have hvalid := validate_held h hlength b x
  have hroom := room_held h.plain hlength b
  have hissuer : canon.strWidth (lit "o") = 3 ∧ (lit "o").length = 1 := by decide
  constructor
  · refine bind_eq_ok.mpr ⟨_, envelope_signedBy hbody, seq_eq_ok.mpr ⟨hvalid, ?_⟩⟩
    refine bind_eq_ok.mpr ⟨_, lift_eq_ok.mpr (bytesOf_eq hc), seq_eq_ok.mpr ⟨need_eq_ok.mpr ?_, rfl⟩⟩
    have hsize := size_signed signs_zeroHost (envelope_signedBy hbody) (lift_eq_ok.mpr (bytesOf_eq hc))
    unfold MAX_BYTES
    omega
  · refine seq_eq_ok.mpr ⟨read_small hc ?_ (depth_held as b), hvalid⟩
    have hsigned := room_signedAs "o" (held as (sha b))
    unfold signedBy
    omega

/-- The file of the pool, with these held in it. -/
def diskOf (as : List Asked) (b : ByteArray) : journal.Disk State where
  state := .whole (.managed (signedBy (held as (sha b))))
  pending := none

theorem apply_grant_zero (x : Asked) : ∃ b,
    apply_grant zeroEpoch x.files (signedBy zeroBody) (bytesOf zeroGrant.value) "t" =
      .ok (signedBy (held [] (sha b))) := by
  have hapart : Apart [] := ⟨by simp, by simp, by simp, by simp, by simp⟩
  have hraw : raw (value (signedBy zeroBody)) = .ok zeroEpoch.legacy_bytes :=
    lift_eq_ok.mpr (bytesOf_eq (canonical_signedBy canonical_zeroBody))
  obtain ⟨_, b, hrecord⟩ := envelope_shape (envelope_signedBy canonical_zeroBody)
  have hprevious : zeroEpoch.legacy.sha256 = sha b := by
    show (signedBy zeroBody).sha256 = sha b
    rw [hrecord]
  refine ⟨b, ?_⟩
  refine bind_eq_ok.mpr ⟨_, read_grant_zero, seq_eq_ok.mpr ⟨grant_shape_zero, ?_⟩⟩
  refine seq_eq_ok.mpr ⟨need_eq_ok.mpr (show text (lit "t") by decide), bind_eq_ok.mpr ⟨_, legacy_zero, ?_⟩⟩
  refine bind_eq_ok.mpr ⟨_, hraw, seq_eq_ok.mpr ⟨needOr_eq_ok.mpr rfl, seq_eq_ok.mpr ⟨need_eq_ok.mpr head_zero, ?_⟩⟩⟩
  rw [hprevious]
  exact (publish_held hapart (by decide) b x).1

/-- A hold that is new to the epoch. -/
theorem prepare_asked {as : List Asked} (h : Apart (as ++ [a])) (hlength : as.length ≤ 1) (b : ByteArray) : ∃ b',
    prepare_managed zeroEpoch a.files (signedBy (held as (sha b))) a.given "t" =
      .ok (signedBy (held (as ++ [a]) (sha b')), a.key) := by
  obtain ⟨-, hcapture, hattempt, hdestination⟩ := h.fresh
  have hold := publish_held h.of_append (by omega) b a
  obtain ⟨_, b', hrecord⟩ := envelope_shape (envelope_signedBy (@canonical_held as (by omega) b))
  have hprevious : (signedBy (held as (sha b))).sha256 = sha b' := by rw [hrecord]
  have hcaps : capacities zeroEpoch (held as (sha b)) = .ok ⟨5, 262144, some 12288⟩ := rfl
  have hroom : as.length + 1 ≤ 5 ∧ as.length * HOLD + HOLD ≤ 12288 := by
    unfold HOLD
    omega
  have hfresh : ∀ e ∈ (held as (sha b)).managed_entries, ¬ sharesClaim e a.binding := by
    intro e he
    obtain ⟨x, hx, rfl⟩ := List.mem_map.mp he
    rintro (hsame | hsame | hsame)
    · exact hcapture (List.mem_map.mpr ⟨x, hx, hsame⟩)
    · exact hattempt (List.mem_map.mpr ⟨x, hx, hsame⟩)
    · exact hdestination (List.mem_map.mpr ⟨x, hx, hsame⟩)
  have hhold : hold_entry zeroEpoch a.binding a.key "t" (held as (sha b)) =
      .ok ({ held as (sha b) with
        managed_entries := (held as (sha b)).managed_entries ++ [a.entry] }, ()) := by
    refine seq_eq_ok.mpr ⟨needOr_eq_ok.mpr hfresh, bind_eq_ok.mpr ⟨_, legacy_zero, ?_⟩⟩
    refine bind_eq_ok.mpr ⟨_, hcaps, seq_eq_ok.mpr ⟨needOr_eq_ok.mpr ?_, rfl⟩⟩
    rw [usage_held]
    exact hroom
  have hchange : change zeroEpoch a.files (signedBy (held as (sha b))) (hold_entry zeroEpoch a.binding a.key "t") =
      .ok (signedBy (held (as ++ [a]) (sha b')), ()) := by
    have hbody : ({ held as (sha b) with
        managed_entries := (held as (sha b)).managed_entries ++ [a.entry]
        revision := (held as (sha b)).revision + 1
        previous := sha b' } : Body) = held (as ++ [a]) (sha b') := by
      simp [held, Nat.add_assoc]
    unfold change
    rw [hold.2, ok_bind, show (signedBy (held as (sha b))).body = held as (sha b) from rfl, hhold, ok_bind, hprevious]
    dsimp only
    rw [hbody, (publish_held h (by simpa using hlength) b' a).1]
    rfl
  refine ⟨b', seq_eq_ok.mpr ⟨need_eq_ok.mpr (show text (lit "t") by decide), ?_⟩⟩
  refine bind_eq_ok.mpr ⟨_, inspect_asked (h.plain a (by simp)), bind_eq_ok.mpr ⟨_, effect_key_asked a, ?_⟩⟩
  exact bind_eq_ok.mpr ⟨_, hchange, rfl⟩

theorem step_grant (M : Nat → ManagedOwner) {F : Files} {w : World} {current : Envelope common_capacity.Body}
    {record : Envelope Body} {request_bytes : ByteArray} {recorded_at : Str}
    (hdisk : w.disk = { state := .whole (.legacy current), pending := none })
    (h : apply_grant (M 0) F current request_bytes recorded_at = .ok record) :
    (step M F none w (.apply_grant 0 request_bytes recorded_at)).disk =
      { state := .whole (.managed record), pending := none } := by
  unfold step
  dsimp only
  rw [hdisk]
  dsimp only
  rw [h]
  exact journal.publish_none (by rw [hdisk])

theorem step_prepare (M : Nat → ManagedOwner) {w : World} {old record : Envelope Body} {key : Str} {a : Asked}
    (hdisk : w.disk = { state := .whole (.managed old), pending := none })
    (h : prepare_managed (M 0) a.files old a.given "t" = .ok (record, key)) :
    (step M a.preparation.files a.preparation.fault w a.preparation.call).disk =
      { state := .whole (.managed record), pending := none } := by
  have hrecord : w.record = .ok old := by
    unfold World.record
    rw [hdisk]
    rfl
  unfold Asked.preparation step
  dsimp only
  rw [hrecord, ok_bind, h]
  dsimp only
  rw [if_pos rfl]
  exact journal.publish_none (by rw [hdisk])

theorem run_one (M : Nat → ManagedOwner) (w : World) (t : Turn) : run M w [t] = step M t.files t.fault w t.call := rfl

/-- The epoch is granted, and asked for these. -/
def turnsOf (x : Asked) (as : List Asked) : List Turn :=
  ⟨x.files, none, .apply_grant 0 (bytesOf zeroGrant.value) "t"⟩ :: as.map Asked.preparation

/-- The epoch after it was granted and asked for these. -/
theorem run_held {as : List Asked} (h : Apart as) (hlength : as.length ≤ 2) (x : Asked) : ∃ b,
    (run (fun _ => zeroEpoch) (start (signedBy zeroBody)) (turnsOf x as)).disk = diskOf as b := by
  induction as using List.reverseRecOn with
  | nil =>
    obtain ⟨b, hb⟩ := apply_grant_zero x
    refine ⟨b, ?_⟩
    unfold turnsOf
    rw [List.map_nil, run_one]
    exact step_grant (fun _ => zeroEpoch) rfl hb
  | append_singleton as a ih =>
    rw [List.length_append, List.length_singleton] at hlength
    obtain ⟨b, hb⟩ := ih h.of_append (by omega)
    have hturns : turnsOf x (as ++ [a]) = turnsOf x as ++ [a.preparation] := by simp [turnsOf]
    obtain ⟨b', hb'⟩ := prepare_asked h (by omega) b
    refine ⟨b', ?_⟩
    rw [hturns, run_concat]
    exact step_prepare (fun _ => zeroEpoch) hb hb'

theorem canonicalPaths_turnsOf {x : Asked} {as : List Asked}
    (h : ∀ a ∈ as, a.Plain ∧ CanonicalText a.attempt ∧ CanonicalText a.destination) :
    ∀ t ∈ turnsOf x as, t.call.CanonicalPaths := by
  intro t ht owner R recorded_at q hcall hread
  rcases List.mem_cons.mp ht with rfl | ht
  · cases hcall
  · obtain ⟨a, ha, rfl⟩ := List.mem_map.mp ht
    obtain ⟨hplain, hcanonical⟩ := h a ha
    obtain rfl : a.given = R := (Call.prepare_managed.inj hcall).2.1
    rw [read_asked hplain] at hread
    rw [← Except.ok.inj hread]
    exact hcanonical

end Holds

def first : Asked := ⟨"1", "/s/a"⟩
/-- The same paths, under other texts. -/
def again : Asked := ⟨"2", "/s//a"⟩
def second : Asked := ⟨"2", "/s/b"⟩

theorem plain_asked : first.Plain ∧ again.Plain ∧ second.Plain :=
  ⟨⟨by decide, by decide, by decide, by decide, by decide⟩, ⟨by decide, by decide, by decide, by decide, by decide⟩,
    ⟨by decide, by decide, by decide, by decide, by decide⟩⟩

def firstHash : Str := "a2e9b2e79cdbb6d2e22ca0cf2e0cdea1c80d5d1fcc6d763188726cba65a10fdc"
def laterHash : Str := "96ed9a995cea82340af3d866be6b4defb4466b9d680cc9c6b40557cd8a61be4c"

theorem sha_first : first.captureHash = firstHash := by
  unfold Asked.captureHash
  rw [sha_bytesOf]
  decide +kernel

theorem sha_later : again.captureHash = laterHash ∧ second.captureHash = laterHash := by
  have hlater : again.captureHash = laterHash := by
    unfold Asked.captureHash
    rw [sha_bytesOf]
    decide +kernel
  exact ⟨hlater, hlater⟩

theorem captures_apart : ([first, again].map Asked.captureHash).Nodup ∧
    ([first, second].map Asked.captureHash).Nodup := by
  have hapart : [firstHash, laterHash].Nodup := by decide
  simp only [List.map_cons, List.map_nil, sha_first, sha_later]
  exact ⟨hapart, hapart⟩

theorem keys_apart : ([first, again, second].map Asked.key).Nodup := by
  simp only [List.map_cons, List.map_nil, Asked.key, sha_bytesOf, Asked.keyed, sha_first, sha_later]
  decide +kernel

theorem apart_again : Apart [first, again] where
  plain := by simp [plain_asked]
  keys := keys_apart.sublist (by simp)
  captures := captures_apart.1
  attempts := by decide
  destinations := by decide

theorem apart_second : Apart [first, second] where
  plain := by simp [plain_asked]
  keys := keys_apart.sublist (by simp)
  captures := captures_apart.2
  attempts := by decide
  destinations := by decide

/-- The small epoch is one that is made. -/
theorem init_zeroEpoch :
    managed_capacity.init zeroOwner (signedBy zeroBody) zeroHead [] zeroCallback .null = .ok zeroEpoch := by
  have hcallback : zeroCallback.id = EFFECT ∧ hex64 zeroCallback.code_sha256 ∧
      hex64 zeroCallback.adapter_source_sha256 ∧ text zeroCallback.python :=
    ⟨rfl, hex64_zeros, shared_adapter.hex, show text (lit "p") by decide⟩
  exact bind_eq_ok.mpr ⟨_, legacy_zero, seq_eq_ok.mpr ⟨need_eq_ok.mpr hcallback, rfl⟩⟩

/-- An epoch that is asked for `/s/a` and for `/s//a` holds one attempt and one
destination twice. -/
theorem epoch_holds_a_path_twice :
    managed_capacity.init zeroOwner (signedBy zeroBody) zeroHead [] zeroCallback .null = .ok zeroEpoch ∧
    ∃ record e e', (run (fun _ => zeroEpoch) (start (signedBy zeroBody)) (turnsOf first [first, again])).disk.state =
        .whole (.managed record) ∧
      record.body.managed_entries = [e, e'] ∧ e.binding.managed_attempt = "/s/a" ∧
      e'.binding.managed_attempt = "/s//a" ∧ parts e.binding.managed_attempt = parts e'.binding.managed_attempt ∧
      parts e.binding.destination = parts e'.binding.destination ∧ ¬ record.body.HeldOnce := by
  refine ⟨init_zeroEpoch, ?_⟩
  obtain ⟨b, hdisk⟩ := run_held apart_again (by decide) first
  refine ⟨_, first.entry, again.entry, by rw [hdisk]; rfl, rfl, rfl, rfl, by decide, by decide, fun h => ?_⟩
  have hattempts : ([first, again].map fun a => parts a.attempt).Nodup := h.attempts
  revert hattempts
  decide

theorem epoch_holds_paths_once_small :
    managed_capacity.init zeroOwner (signedBy zeroBody) zeroHead [] zeroCallback .null = .ok zeroEpoch ∧
    Safe (fun _ => zeroEpoch) (signedBy zeroBody) (turnsOf first [first, second]) ∧
    ∃ record, (run (fun _ => zeroEpoch) (start (signedBy zeroBody)) (turnsOf first [first, second])).disk.state =
        .whole (.managed record) ∧
      record.body.managed_entries = [first.entry, second.entry] ∧ record.body.HeldOnce := by
  have hcanonical : ∀ t ∈ turnsOf first [first, second], t.call.CanonicalPaths := by
    refine canonicalPaths_turnsOf fun a ha => ?_
    simp only [List.mem_cons, List.not_mem_nil, or_false] at ha
    rcases ha with rfl | rfl
    · exact ⟨plain_asked.1, by decide, by decide⟩
    · exact ⟨plain_asked.2.2, by decide, by decide⟩
  obtain ⟨hsafe, honce⟩ :=
    epoch_holds_paths_once (fun _ => zeroEpoch) (signedBy zeroBody) (turnsOf first [first, second]) hcanonical
  obtain ⟨b, hdisk⟩ := run_held apart_second (by decide) first
  have hstate : (run (fun _ => zeroEpoch) (start (signedBy zeroBody)) (turnsOf first [first, second])).disk.state =
      .whole (.managed (signedBy (held [first, second] (sha b)))) := by
    rw [hdisk]
    rfl
  exact ⟨init_zeroEpoch, hsafe, _, hstate, rfl, honce _ hstate⟩

end vfy.managed_capacity
