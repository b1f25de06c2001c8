-- Requests of a small managed epoch, with the evidence that they name: each that
-- is written plainly is taken for what it asks for.
import VerifyRun.TestSoundness

namespace vfy.engineer

open python keys outcomes child_ledger service_tests

/-! ## Sealed evidence is read back -/

theorem dumpsItems_eq {items : List Value} (h : ∀ v ∈ items, dumps v = canon.encode v) :
    dumpsItems items = canon.encodeItems items := by
  induction items with
  | nil => rfl
  | cons v rest ih =>
    rw [dumpsItems, canon.encodeItems, h v (by simp), ih fun w hw => h w (by simp [hw])]

theorem dumpsMembers_eq {members : List (Str × Value)} (h : ∀ m ∈ members, dumps m.2 = canon.encode m.2) :
    dumpsMembers members = canon.encodeMembers members := by
  induction members with
  | nil => rfl
  | cons m rest ih =>
    rw [dumpsMembers, canon.encodeMembers, h m (by simp), ih fun w hw => h w (by simp [hw])]

/-- A canonical value is dumped as its canonical text. -/
theorem dumps_of_canonical {v : Value} (h : v.Canonical) : dumps v = canon.encode v := by
  induction h with
  | null => rfl
  | bool b => cases b <;> rfl
  | int h => rw [dumps, canon.encode, canon.integer_text_of_safe h]
  | str h => rfl
  | list _ ih => rw [dumps, canon.encode, dumpsItems_eq ih]
  | dict _ _ _ ih =>
    rw [dumps, canon.encode, dumpsMembers_eq ih]

/-- The members of a sealed record in key order. -/
def sealedMembers (before after : List (Str × Value)) : List (Str × Value) :=
  before ++ (lit "identity_sha256", Value.str (sha (bytesOf (.dict (before ++ after))))) :: after

section Sealed

variable {before after : List (Str × Value)}

/-- Sealed evidence that is small is read back. -/
theorem sealed_bytesOf {room depth : Nat} (hbefore : ∀ m ∈ before, m.1 ≠ lit "identity_sha256")
    (hafter : ∀ m ∈ after, m.1 ≠ lit "identity_sha256")
    (h : Small (.dict (sealedMembers before after)) room depth) (hroom : room ≤ 2 ^ 20) (hdepth : depth ≤ 64)
    (hnormal : (Value.dict (sealedMembers before after)).normalize = .dict (sealedMembers before after)) :
    engineer.sealed (bytesOf (.dict (sealedMembers before after))) = .ok (.dict (sealedMembers before after)) := by
  have hsub : List.Sublist (before ++ after) (sealedMembers before after) :=
    (List.sublist_cons_self _ _).append_left before
  have hbody : (Value.dict (before ++ after)).Canonical := by
    obtain ⟨hd, hk, hv⟩ := Value.canonical_dict.mp h.canonical
    exact Value.canonical_dict.mpr ⟨hd.sublist (hsub.map _), fun m hm => hk m (hsub.subset hm),
      fun m hm => hv m (hsub.subset hm)⟩
  have hsize : (bytesOf (.dict (sealedMembers before after))).size ≤ MAX_BYTES := by
    have hbytes := size_bytesOf h.canonical
    have hsmall := h.room
    unfold MAX_BYTES
    omega
  have hread : engineer_json (bytesOf (.dict (sealedMembers before after))) =
      .ok (.dict (sealedMembers before after)) :=
    (read_bytesOf load.reject_float h.canonical (h.depth.trans hdepth) hsize).trans (congrArg Except.ok hnormal)
  have hkeep : ∀ l : List (Str × Value), (∀ m ∈ l, m.1 ≠ lit "identity_sha256") →
      l.filter (fun m => m.1 ≠ lit "identity_sha256") = l := by
    intro l hl
    exact List.filter_eq_self.mpr fun m hm => decide_eq_true (hl m hm)
  have hrest : (sealedMembers before after).filter (fun m => m.1 ≠ lit "identity_sha256") = before ++ after := by
    unfold sealedMembers
    rw [List.filter_append, hkeep before hbefore, List.filter_cons_of_neg (by simp), hkeep after hafter]
  have hidentity : get (.dict (sealedMembers before after)) (lit "identity_sha256") =
      .str (sha (bytesOf (.dict (before ++ after)))) := by
    have hnone : before.lookup (lit "identity_sha256") = none := by
      refine List.lookup_eq_none_iff.mpr fun m hm => ?_
      exact bne_iff_ne.mpr (hbefore m hm).symm
    unfold get sealedMembers
    rw [Value.get?_dict, List.lookup_append, hnone]
    simp
  obtain ⟨t, ht⟩ := canon.encode_of_canonical hbody
  have hdumps : dumps (.dict (before ++ after)) = .ok t := (dumps_of_canonical hbody).trans ht
  have hbytes : (String.ofList t).toByteArray = bytesOf (.dict (before ++ after)) :=
    Except.ok.inj ((canon.canonical_bytes_eq_ok.mpr ⟨t, ht, rfl⟩).symm.trans (bytesOf_eq hbody))
  refine bind_eq_ok.mpr ⟨_, hread, ?_⟩
  dsimp only
  rw [hrest, hdumps, lift_ok, ok_bind, hbytes, hidentity, needOr_eq_ok.mpr (by simp), ok_bind]
  rfl

end Sealed

end vfy.engineer

namespace vfy.managed_capacity

open python keys outcomes child_ledger common_capacity engineer service_tests

/-! ## A small epoch -/

def inspectionHash : Str := "82d2043c6edff2602f5d859ae9fde9c44ca093d8d96ced4c446ba4f910415d56"
def configHash : Str := "19893f9d1c53373c4823bb8a2c6d4a058eaa874a9d0bbb71462baab5552756bc"
def bindingHash : Str := "802e21168915d3f7feac44b2e1dbc557b6803b8e0cec522d1f844ee7ddc49182"
def adapterHash : Str := "e3b0c44298fc1c149afbf4c8996fb92427ae41e4649b934ca495991b7852b855"

def zeroCallback : Callback where
  id := EFFECT
  code_sha256 := zeros
  adapter_source_sha256 := adapterHash
  python := "p"

/-- The epoch of the small pool. -/
def zeroEpoch : ManagedOwner where
  owner := zeroOwner
  legacy := signedBy zeroBody
  legacy_bytes := zeroHead
  legacy_trusts := []
  callback := zeroCallback
  profile := .null

def zeroIdentity : TaskIdentity := ⟨"r", zeros, "t"⟩
def inspectionRef : Artifact := ⟨"/f/inspection", inspectionHash⟩
def bindingRef : Artifact := ⟨"/f/binding", bindingHash⟩
def configRef : Artifact := ⟨"/f/config", configHash⟩
def adapterRef : Artifact := ⟨"/f/adapter", adapterHash⟩

def zeroInspection : Value := .dict
  [("repository", .str "r"),
   ("task_source_binding", .dict [("task_id", .str "t"), ("task_subject_identity_sha256", .str zeros)])]

def zeroTask : Value := .dict
  [("inspection_sha256", .str inspectionHash), ("task_id", .str "t"),
   ("task_subject_identity_sha256", .str zeros)]

def zeroBindingFile : Value := .dict
  [("authority_granted", .bool false), ("automatic_retry", .bool false), ("config", configRef.value),
   ("effect_profile", .str EFFECT),
   ("owner", .dict [("owner_issuer", .str "o"), ("public_key_hex", .str "p")]), ("pool_root", .str "/pool"),
   ("schema", .str "engineer.managed-task-capacity-binding/1"), ("state_root", .str "/s"), ("task", zeroTask)]

def zeroStart : List (Str × Value) :=
  [("attempt_id", .str "a"), ("automatic_retry", .bool false),
   ("input_artifacts", .list [inspectionRef.value]),
   ("native_child_population", .dict [("expected_child_ids", .list [.str "managed-json-callback"]),
      ("state", .str "DECLARED_BEFORE_DISPATCH")]),
   ("operation_id", .str "o"), ("state", .str "STARTED"),
   ("task_identity", .dict [("repository", .str "r"), ("subject_sha256", .str zeros), ("task_id", .str "t")]),
   ("task_key", .str zeros)]

def startBytes : ByteArray := bytesOf (.dict zeroStart)
def startRef : Artifact := ⟨"/f/start", sha startBytes⟩

/-- The files that no attempt changes. -/
def zeroFiles : List (List Str × ByteArray) :=
  [([lit "f", lit "start"], startBytes), ([lit "f", lit "inspection"], bytesOf zeroInspection),
   ([lit "f", lit "binding"], bytesOf zeroBindingFile), ([lit "f", lit "config"], zeroOwner.config_bytes),
   ([lit "f", lit "adapter"], .empty)]

/-- The callback, as it stands in a file. -/
def callbackValue : Value := .dict
  [("adapter_source_sha256", .str adapterHash), ("code_sha256", .str zeros), ("id", .str EFFECT),
   ("python", .str "p")]

def SCHEMA : Value := .str "engineer.managed-local-execution/1"

/-- A hold that the epoch can be asked for: what tells its capture from others,
and its attempt. -/
structure Asked where
  name : String
  attempt : String

namespace Asked

def destination (a : Asked) : Str := lit (a.attempt ++ "/CALLBACK.json")
def capturePath (a : Asked) : Str := lit (a.attempt ++ "/CAPTURE.json")

/-- An epoch can be asked for it. -/
structure Plain (a : Asked) : Prop where
  name : text a.name ∧ (lit a.name).length ≤ 2 ^ 5
  attempt : text a.attempt ∧ (lit a.attempt).length ≤ 2 ^ 5 ∧ (lit a.attempt).head? = some (.scalar '/') ∧
    twoSlashes a.attempt = false
  destination : text a.destination ∧ a.destination.length ≤ 2 ^ 6 ∧ a.destination.head? = some (.scalar '/') ∧
    twoSlashes a.destination = false
  capturePath : text a.capturePath ∧ a.capturePath.length ≤ 2 ^ 6 ∧
    a.capturePath.head? = some (.scalar '/') ∧ twoSlashes a.capturePath = false
  inside : (parts a.attempt).length = 2 ∧ (parts a.attempt).dropLast = [lit "s"] ∧
    parts a.destination = parts a.attempt ++ [lit "CALLBACK.json"] ∧
    parts a.capturePath = parts a.attempt ++ [lit "CAPTURE.json"]

def captureBefore : List (Str × Value) :=
  [("callback", callbackValue), ("common_capacity_binding", bindingRef.value),
   ("contract", .dict [("destination", .str "d"), ("task_id", .str "t")]),
   ("criterion", .dict [("parameters", .list [])])]

def captureAfter (a : Asked) : List (Str × Value) :=
  [("kind", .str "CAPTURE"), ("name", .str a.name), ("refs", .dict [("inspection", inspectionRef.value)]),
   ("repository", .str "r"), ("schema", SCHEMA),
   ("snapshot", .dict [("observation", .dict [("task", zeroTask)]), ("payload", .null), ("values", .dict [])])]

def capture (a : Asked) : List (Str × Value) := sealedMembers captureBefore a.captureAfter

/-- The digest by which the capture is known. -/
def captureHash (a : Asked) : Str := sha (bytesOf (.dict (captureBefore ++ a.captureAfter)))

def receiptBefore (a : Asked) : List (Str × Value) :=
  [("callback_id", .str EFFECT), ("capture_id", .str a.captureHash), ("destination_label", .str "d")]

def receiptAfter : List (Str × Value) :=
  [("kind", .str "LOCAL_CALLBACK_RECEIPT"), ("payload", .null), ("schema", SCHEMA)]

def receipt (a : Asked) : List (Str × Value) := sealedMembers a.receiptBefore receiptAfter

def receiptHash (a : Asked) : Str := sha (bytesOf (.dict (a.receiptBefore ++ receiptAfter)))

def doneBefore (a : Asked) : List (Str × Value) :=
  [("callback", callbackValue), ("callback_calls", .int 1), ("capture_id", .str a.captureHash),
   ("external_effects", .str "UNKNOWN")]

def doneAfter (a : Asked) : List (Str × Value) :=
  [("kind", .str "COMPLETE"), ("local_effect", .str "MANAGED_JSON_RECEIPT_ONLY"),
   ("observed_guard_arguments", .list []), ("observed_guard_result", .bool true),
   ("receipt_sha256", .str a.receiptHash), ("schema", SCHEMA)]

def done (a : Asked) : List (Str × Value) := sealedMembers a.doneBefore a.doneAfter

def captureRef (a : Asked) : Artifact := ⟨a.capturePath, sha (bytesOf (.dict a.capture))⟩

def request (a : Asked) : List (Str × Value) :=
  [("attempt_id", .str "a"), ("authority_granted", .bool false), ("automatic_retry", .bool false),
   ("basis", inspectionRef.value), ("binding_basis", inspectionRef.value), ("binding_ref", bindingRef.value),
   ("callback_identity", callbackValue), ("capture", a.captureRef.value),
   ("capture_identity", .str a.captureHash), ("child_id", .str "managed-json-callback"),
   ("complete_bytes", .int (bytesOf (.dict a.done)).size),
   ("complete_sha256", .str (sha (bytesOf (.dict a.done)))), ("destination", .str a.destination),
   ("managed_attempt", .str a.attempt), ("managed_state", .str "/s"), ("operation_id", .str "o"),
   ("parent_start", startRef.value), ("receipt_bytes", .int (bytesOf (.dict a.receipt)).size),
   ("receipt_sha256", .str (sha (bytesOf (.dict a.receipt)))),
   ("schema", .str "vfy.managed-dispatch-request/1"),
   ("source_refs", .list [adapterRef.value, inspectionRef.value]),
   ("task_identity", .dict [("repository", .str "r"), ("subject_sha256", .str zeros), ("task_id", .str "t")]),
   ("task_key", .str zeros)]

/-- The request, as it is read. -/
def binding (a : Asked) : Binding where
  task_key := zeros
  task_identity := zeroIdentity
  operation_id := "o"
  attempt_id := "a"
  parent_start := startRef
  basis := inspectionRef
  child_id := "managed-json-callback"
  capture := a.captureRef
  capture_identity := a.captureHash
  managed_state := "/s"
  managed_attempt := a.attempt
  destination := a.destination
  callback_identity := zeroCallback
  receipt_sha256 := sha (bytesOf (.dict a.receipt))
  receipt_bytes := (bytesOf (.dict a.receipt)).size
  complete_sha256 := sha (bytesOf (.dict a.done))
  complete_bytes := (bytesOf (.dict a.done)).size
  source_refs := [adapterRef, inspectionRef]
  binding_ref := bindingRef
  binding_basis := inspectionRef
  recorded_request_sha256 := sha (bytesOf (.dict a.request))

/-- What its preparation is given. -/
def given (a : Asked) : Request where
  request_bytes := bytesOf (.dict a.request)
  parent_start_bytes := startBytes
  capture_bytes := bytesOf (.dict a.capture)
  expected_receipt_bytes := bytesOf (.dict a.receipt)
  expected_complete_bytes := bytesOf (.dict a.done)

/-- What its preparation finds in the file system. -/
def files (a : Asked) : Files where
  read p := if p.length = 3 then some (bytesOf (.dict a.capture)) else zeroFiles.lookup p
  lexists _ := false
  is_dir _ := true
  resolved _ := true

end Asked

section Asking

variable {a : Asked}

theorem length_hashes : inspectionHash.length = 64 ∧ configHash.length = 64 ∧ bindingHash.length = 64 ∧
    adapterHash.length = 64 := by
  decide

theorem encodable_hashes : Encodable inspectionHash ∧ Encodable configHash ∧ Encodable bindingHash ∧
    Encodable adapterHash ∧ Encodable zeros :=
  ⟨encodable_lit _, encodable_lit _, encodable_lit _, encodable_lit _, encodable_lit _⟩

theorem small_capture (h : a.Plain) : Small (.dict a.capture) 7000 5 := by
  have hname := h.name.2
  refine ⟨?_, ?_, ?_⟩
  · simp [Asked.capture, engineer.sealedMembers, Asked.captureBefore, Asked.captureAfter, callbackValue, SCHEMA,
      Artifact.value, bindingRef, inspectionRef, zeroTask, encodable_hashes, EFFECT, encodable_sha, Distinct]
  · simp only [Asked.capture, engineer.sealedMembers, Asked.captureBefore, Asked.captureAfter, callbackValue, SCHEMA,
      Artifact.value, bindingRef, inspectionRef, zeroTask, length_hashes, length_zeros, EFFECT,
      List.cons_append, List.nil_append, canon.textRoom, canon.textRoomMembers, canon.textRoomItems, length_sha]
    generalize (lit a.name).length = n at hname ⊢
    simp [lit, ofText]
    omega
  · simp [Asked.capture, engineer.sealedMembers, Asked.captureBefore, Asked.captureAfter, callbackValue, SCHEMA,
      Artifact.value, bindingRef, inspectionRef, zeroTask, Value.depth, Value.depthMembers, Value.depthItems]

theorem small_receipt (a : Asked) : Small (.dict a.receipt) 3000 1 := by
  refine ⟨?_, ?_, ?_⟩
  · simp [Asked.receipt, engineer.sealedMembers, Asked.receiptBefore, Asked.receiptAfter, SCHEMA,
      Asked.captureHash, EFFECT, encodable_sha, Distinct]
  · simp only [Asked.receipt, engineer.sealedMembers, Asked.receiptBefore, Asked.receiptAfter, SCHEMA,
      Asked.captureHash, EFFECT, List.cons_append, List.nil_append, canon.textRoom, canon.textRoomMembers, length_sha]
    simp [lit, ofText]
  · simp [Asked.receipt, engineer.sealedMembers, Asked.receiptBefore, Asked.receiptAfter, SCHEMA,
      Value.depth, Value.depthMembers]

theorem small_done (a : Asked) : Small (.dict a.done) 5000 2 := by
  refine ⟨?_, ?_, ?_⟩
  · simp [Asked.done, engineer.sealedMembers, Asked.doneBefore, Asked.doneAfter, SCHEMA, callbackValue,
      Asked.captureHash, Asked.receiptHash, EFFECT, encodable_hashes, encodable_sha, Distinct, Value.SafeInteger]
  · simp only [Asked.done, engineer.sealedMembers, Asked.doneBefore, Asked.doneAfter, SCHEMA, callbackValue,
      Asked.captureHash, Asked.receiptHash, EFFECT, List.cons_append, List.nil_append, canon.textRoom,
      canon.textRoomMembers, canon.textRoomItems, length_sha, length_hashes, length_zeros]
    simp [lit, ofText]
  · simp [Asked.done, engineer.sealedMembers, Asked.doneBefore, Asked.doneAfter, SCHEMA, callbackValue,
      Value.depth, Value.depthMembers, Value.depthItems]

theorem sealed_capture (h : a.Plain) : engineer.sealed (bytesOf (.dict a.capture)) = .ok (.dict a.capture) := by
  refine engineer.sealed_bytesOf (by decide) ?_ (small_capture h) (by decide) (by decide) rfl
  simp [Asked.captureAfter]

theorem sealed_receipt (a : Asked) : engineer.sealed (bytesOf (.dict a.receipt)) = .ok (.dict a.receipt) := by
  refine engineer.sealed_bytesOf ?_ (by decide) (small_receipt a) (by decide) (by decide) rfl
  simp [Asked.receiptBefore]

theorem sealed_done (a : Asked) : engineer.sealed (bytesOf (.dict a.done)) = .ok (.dict a.done) := by
  refine engineer.sealed_bytesOf ?_ ?_ (small_done a) (by decide) (by decide) rfl
  · simp [Asked.doneBefore]
  · simp [Asked.doneAfter]

theorem size_done (a : Asked) :
    0 < (bytesOf (.dict a.done)).size ∧ (bytesOf (.dict a.done)).size ≤ 2 ^ 15 := by
  have hsmall := small_done a
  have hsize := size_bytesOf hsmall.canonical
  have hroom := hsmall.room
  refine ⟨?_, by omega⟩
  rw [size_raw_eq (lift_eq_ok.mpr (bytesOf_eq hsmall.canonical)), canon.textWidth]
  omega

theorem size_receipt (a : Asked) :
    0 < (bytesOf (.dict a.receipt)).size ∧ (bytesOf (.dict a.receipt)).size ≤ HOLD := by
  rw [size_raw_eq (lift_eq_ok.mpr (bytesOf_eq (small_receipt a).canonical))]
  simp only [Asked.receipt, engineer.sealedMembers, Asked.receiptBefore, Asked.receiptAfter, SCHEMA,
      Asked.captureHash, EFFECT, List.cons_append, List.nil_append, canon.textWidthMembers, canon.textWidth, strWidth_sha]
  decide

theorem refOf_value {r : Artifact} (hpath : text r.path) (hsha : hex64 r.sha256) : refOf r.value = .ok r := by
  refine bind_eq_ok.mpr ⟨_, needKeys_eq_ok.mpr ⟨rfl, rfl⟩, ?_⟩
  refine bind_eq_ok.mpr ⟨_, item_of_get (v := r.value) (k := "path") rfl, bind_eq_ok.mpr ⟨_, textOf_str hpath, ?_⟩⟩
  refine bind_eq_ok.mpr ⟨_, item_of_get (v := r.value) (k := "sha256") rfl, ?_⟩
  exact bind_eq_ok.mpr ⟨_, seq_eq_ok.mpr ⟨need_eq_ok.mpr hsha, rfl⟩, rfl⟩

/-- A file that no attempt changes, and its reference. -/
structure Shared (r : Artifact) (data : ByteArray) : Prop where
  text : text r.path
  absolute : r.path.head? = some (.scalar '/') ∧ twoSlashes r.path = false
  stored : (parts r.path).length ≠ 3 ∧ zeroFiles.lookup (parts r.path) = some data
  sha : sha data = r.sha256

theorem Shared.hex {r : Artifact} {data : ByteArray} (h : Shared r data) : hex64 r.sha256 := by
  rw [← h.sha]
  exact hex64_sha data

theorem shared_start : Shared startRef startBytes :=
  ⟨by decide, by decide, ⟨by decide, rfl⟩, rfl⟩

theorem sha_inspection : sha (bytesOf zeroInspection) = inspectionHash := by
  rw [sha_bytesOf]
  decide +kernel

theorem sha_config : sha zeroOwner.config_bytes = configHash := by
  show sha (bytesOf (poolConfig 2)) = configHash
  rw [sha_bytesOf]
  decide +kernel

theorem sha_binding : sha (bytesOf zeroBindingFile) = bindingHash := by
  rw [sha_bytesOf]
  decide +kernel

theorem sha_adapter : sha .empty = adapterHash := by decide +kernel

theorem shared_inspection : Shared inspectionRef (bytesOf zeroInspection) :=
  ⟨by decide, by decide, ⟨by decide, rfl⟩, sha_inspection⟩

theorem shared_binding : Shared bindingRef (bytesOf zeroBindingFile) :=
  ⟨by decide, by decide, ⟨by decide, rfl⟩, sha_binding⟩

theorem shared_config : Shared configRef zeroOwner.config_bytes :=
  ⟨by decide, by decide, ⟨by decide, rfl⟩, sha_config⟩

theorem shared_adapter : Shared adapterRef .empty :=
  ⟨by decide, by decide, ⟨by decide, rfl⟩, sha_adapter⟩

theorem safe_size {n : Nat} (h : n ≤ 2 ^ 15) : Value.SafeInteger n := by
  unfold Value.SafeInteger
  omega

theorem integerOf_size {n : Nat} (h : n ≤ 2 ^ 15) : integerOf (.int n) = .ok n := by
  have hinteger : integer n := by
    unfold integer canon.MAX_SAFE_INTEGER
    omega
  show (need (0 ≤ (n : Int) ∧ integer (n : Int).toNat) >>= fun _ => pure (n : Int).toNat) = _
  rw [Int.toNat_natCast, need_eq_ok.mpr ⟨Int.natCast_nonneg n, hinteger⟩]
  rfl

theorem small_request (h : a.Plain) : Small (.dict a.request) 12000 3 := by
  have hdone := safe_size (size_done a).2
  have hreceipt := safe_size ((size_receipt a).2.trans (by decide))
  have hattempt := h.attempt.2.1
  have hdestination := h.destination.2.1
  have hcapture := h.capturePath.2.1
  have hencodable : Encodable a.destination ∧ Encodable a.capturePath := ⟨encodable_lit _, encodable_lit _⟩
  refine ⟨?_, ?_, ?_⟩
  · simp [Asked.request, Asked.captureRef, Asked.captureHash, callbackValue, Artifact.value, inspectionRef, bindingRef,
      adapterRef, startRef, encodable_hashes, encodable_sha, EFFECT, Distinct, hdone, hreceipt, hencodable]
  · simp only [Asked.request, Asked.captureRef, Asked.captureHash, callbackValue, Artifact.value, inspectionRef,
      bindingRef, adapterRef, startRef, EFFECT, canon.textRoom, canon.textRoomMembers, canon.textRoomItems, length_sha,
      length_hashes, length_zeros]
    generalize (lit a.attempt).length = l at hattempt ⊢
    generalize a.destination.length = m at hdestination ⊢
    generalize a.capturePath.length = n at hcapture ⊢
    simp [lit, ofText]
    omega
  · simp [Asked.request, Asked.captureRef, callbackValue, Artifact.value, inspectionRef, bindingRef, adapterRef, startRef,
      Value.depth, Value.depthMembers, Value.depthItems]

theorem normalize_request (a : Asked) : (Value.dict a.request).normalize = .dict a.request := by
  have hkeys : a.request.map Prod.fst = ([lit "attempt_id", lit "authority_granted", lit "automatic_retry",
      lit "basis", lit "binding_basis", lit "binding_ref", lit "callback_identity", lit "capture",
      lit "capture_identity", lit "child_id", lit "complete_bytes", lit "complete_sha256", lit "destination",
      lit "managed_attempt", lit "managed_state", lit "operation_id", lit "parent_start", lit "receipt_bytes",
      lit "receipt_sha256", lit "schema", lit "source_refs", lit "task_identity", lit "task_key"] : List Str) := rfl
  have hsorted : (a.request.map Prod.fst).Pairwise (· < ·) := by
    rw [hkeys]
    decide
  have hmembers : a.request.map (fun m => (m.1, m.2.normalize)) = a.request := rfl
  rw [Value.normalize_dict, hmembers, sortByKey_eq_self (List.pairwise_map.mp hsorted)]

theorem read_asked (h : a.Plain) : read_request a.given.request_bytes = .ok a.binding := by
  have hload : load.load_json_bytes (bytesOf (.dict a.request)) = .ok (.dict a.request) := by
    rw [load_bytesOf (small_request h).canonical ((small_request h).depth.trans (by decide)), normalize_request]
  have hget : ∀ k v, (Value.dict a.request).get? k = some v → item (.dict a.request) k = .ok v :=
    fun _ _ => item_of_get
  have hself : ∀ s, isStr (.str s) s = true := by simp
  have hcapture : refOf a.captureRef.value = .ok a.captureRef := refOf_value h.capturePath.1 (hex64_sha _)
  have hstart := refOf_value shared_start.text shared_start.hex
  have hinspection := refOf_value shared_inspection.text shared_inspection.hex
  have hbinding := refOf_value shared_binding.text shared_binding.hex
  have hadapter := refOf_value shared_adapter.text shared_adapter.hex
  have hcallback : callbackOf callbackValue = .ok zeroCallback := rfl
  have hreceipt := integerOf_size ((size_receipt a).2.trans (by decide))
  have hdone := integerOf_size (size_done a).2
  have hrefs : [adapterRef.value, inspectionRef.value].mapM refOf = .ok [adapterRef, inspectionRef] :=
    mapM_eq_ok.mpr (.cons hadapter (.cons hinspection .nil))
  have hname : ∀ s : String, text s → textOf (.str s) = .ok (lit s) := fun s => textOf_str
  refine bind_eq_ok.mpr ⟨_, lift_eq_ok.mpr hload, ?_⟩
  refine bind_eq_ok.mpr ⟨_, needKeys_eq_ok.mpr ⟨rfl, rfl⟩, ?_⟩
  refine bind_eq_ok.mpr ⟨_, hget "schema" (.str "vfy.managed-dispatch-request/1") rfl, ?_⟩
  refine bind_eq_ok.mpr ⟨_, hget "authority_granted" (.bool false) rfl, ?_⟩
  refine bind_eq_ok.mpr ⟨_, hget "automatic_retry" (.bool false) rfl, ?_⟩
  refine seq_eq_ok.mpr ⟨need_eq_ok.mpr ⟨hself _, rfl, rfl⟩, ?_⟩
  refine bind_eq_ok.mpr ⟨_, hget "task_identity" _ rfl, ?_⟩
  refine bind_eq_ok.mpr ⟨_, needKeys_eq_ok.mpr ⟨rfl, rfl⟩, ?_⟩
  refine bind_eq_ok.mpr ⟨_, hget "source_refs" _ rfl, bind_eq_ok.mpr ⟨_, lift_eq_ok.mpr rfl, ?_⟩⟩
  refine bind_eq_ok.mpr ⟨_, hget "task_key" (.str zeros) rfl, bind_eq_ok.mpr ⟨_, rfl, ?_⟩⟩
  refine bind_eq_ok.mpr ⟨.str "r", item_of_get rfl, bind_eq_ok.mpr ⟨_, hname "r" (by decide), ?_⟩⟩
  refine bind_eq_ok.mpr ⟨.str zeros, item_of_get rfl, bind_eq_ok.mpr ⟨zeros, textOf_str (by decide), ?_⟩⟩
  refine bind_eq_ok.mpr ⟨.str "t", item_of_get rfl, bind_eq_ok.mpr ⟨_, hname "t" (by decide), ?_⟩⟩
  refine bind_eq_ok.mpr ⟨_, hget "operation_id" (.str "o") rfl, bind_eq_ok.mpr ⟨_, rfl, ?_⟩⟩
  refine bind_eq_ok.mpr ⟨_, hget "attempt_id" (.str "a") rfl, bind_eq_ok.mpr ⟨_, rfl, ?_⟩⟩
  refine bind_eq_ok.mpr ⟨_, hget "parent_start" startRef.value rfl, bind_eq_ok.mpr ⟨_, hstart, ?_⟩⟩
  refine bind_eq_ok.mpr ⟨_, hget "basis" inspectionRef.value rfl, bind_eq_ok.mpr ⟨_, hinspection, ?_⟩⟩
  refine bind_eq_ok.mpr ⟨_, hget "child_id" (.str "managed-json-callback") rfl, bind_eq_ok.mpr ⟨_, rfl, ?_⟩⟩
  refine bind_eq_ok.mpr ⟨_, hget "capture" a.captureRef.value rfl, bind_eq_ok.mpr ⟨_, hcapture, ?_⟩⟩
  refine bind_eq_ok.mpr ⟨_, hget "capture_identity" (.str a.captureHash) rfl, bind_eq_ok.mpr ⟨_, rfl, ?_⟩⟩
  refine bind_eq_ok.mpr ⟨_, hget "managed_state" (.str "/s") rfl, bind_eq_ok.mpr ⟨_, rfl, ?_⟩⟩
  refine bind_eq_ok.mpr ⟨_, hget "managed_attempt" (.str a.attempt) rfl, bind_eq_ok.mpr ⟨_, rfl, ?_⟩⟩
  refine bind_eq_ok.mpr ⟨_, hget "destination" (.str a.destination) rfl, bind_eq_ok.mpr ⟨_, rfl, ?_⟩⟩
  refine bind_eq_ok.mpr ⟨_, hget "callback_identity" callbackValue rfl, bind_eq_ok.mpr ⟨_, hcallback, ?_⟩⟩
  refine bind_eq_ok.mpr ⟨_, hget "receipt_sha256" (.str (sha (bytesOf (.dict a.receipt)))) rfl,
    bind_eq_ok.mpr ⟨_, rfl, ?_⟩⟩
  refine bind_eq_ok.mpr ⟨_, hget "receipt_bytes" (.int (bytesOf (.dict a.receipt)).size) rfl,
    bind_eq_ok.mpr ⟨_, hreceipt, ?_⟩⟩
  refine bind_eq_ok.mpr ⟨_, hget "complete_sha256" (.str (sha (bytesOf (.dict a.done)))) rfl,
    bind_eq_ok.mpr ⟨_, rfl, ?_⟩⟩
  refine bind_eq_ok.mpr ⟨_, hget "complete_bytes" (.int (bytesOf (.dict a.done)).size) rfl,
    bind_eq_ok.mpr ⟨_, hdone, ?_⟩⟩
  refine bind_eq_ok.mpr ⟨_, hrefs, ?_⟩
  refine bind_eq_ok.mpr ⟨_, hget "binding_ref" bindingRef.value rfl, bind_eq_ok.mpr ⟨_, hbinding, ?_⟩⟩
  exact bind_eq_ok.mpr ⟨_, hget "binding_basis" inspectionRef.value rfl, bind_eq_ok.mpr ⟨_, hinspection, rfl⟩⟩

/-! ## What a preparation finds -/

theorem path_asked {x : Asked} {v : Str} (htext : text v)
    (habsolute : v.head? = some (.scalar '/') ∧ twoSlashes v = false) : path x.files v = .ok (parts v) :=
  seq_eq_ok.mpr ⟨need_eq_ok.mpr htext, seq_eq_ok.mpr ⟨needOr_eq_ok.mpr ⟨habsolute.1, habsolute.2, rfl⟩, rfl⟩⟩

theorem read_shared {r : Artifact} {data : ByteArray} (h : Shared r data) :
    read_file a.files (parts r.path) = .ok data := by
  have hread : a.files.read (parts r.path) = some data := by
    show (if (parts r.path).length = 3 then _ else zeroFiles.lookup (parts r.path)) = _
    rw [if_neg h.stored.1, h.stored.2]
  unfold read_file
  rw [hread]
  rfl

theorem checked_shared {r : Artifact} {data : ByteArray} (h : Shared r data) :
    checked_ref a.files r = .ok data := by
  refine seq_eq_ok.mpr ⟨need_eq_ok.mpr h.hex, bind_eq_ok.mpr ⟨_, path_asked h.text h.absolute, ?_⟩⟩
  exact bind_eq_ok.mpr ⟨_, read_shared h, seq_eq_ok.mpr ⟨needOr_eq_ok.mpr h.sha, rfl⟩⟩

theorem checked_capture (h : a.Plain) : checked_ref a.files a.captureRef = .ok (bytesOf (.dict a.capture)) := by
  have hlength : (parts a.capturePath).length = 3 := by
    rw [h.inside.2.2.2, List.length_append, h.inside.1, List.length_singleton]
  have hread : read_file a.files (parts a.capturePath) = .ok (bytesOf (.dict a.capture)) := by
    have hfile : a.files.read (parts a.capturePath) = some (bytesOf (.dict a.capture)) := if_pos hlength
    unfold read_file
    rw [hfile]
    rfl
  refine seq_eq_ok.mpr ⟨need_eq_ok.mpr (hex64_sha _), ?_⟩
  refine bind_eq_ok.mpr ⟨_, path_asked h.capturePath.1 h.capturePath.2.2, bind_eq_ok.mpr ⟨_, hread, ?_⟩⟩
  exact seq_eq_ok.mpr ⟨needOr_eq_ok.mpr rfl, rfl⟩

theorem binding_shape_asked (h : a.Plain) (x : Asked) : binding_shape zeroEpoch x.files a.binding = .ok () := by
  have hidentity : text zeroIdentity.repository ∧ text zeroIdentity.subject_sha256 ∧ text zeroIdentity.task_id := by
    decide
  have hstate : path x.files (lit "/s") = .ok [lit "s"] := path_asked (by decide) (by decide)
  have hreceipt := size_receipt a
  have hdone := size_done a
  refine seq_eq_ok.mpr ⟨need_eq_ok.mpr ⟨hidentity.1, hidentity.2.1, hidentity.2.2, hex64_zeros⟩, ?_⟩
  refine seq_eq_ok.mpr ⟨need_eq_ok.mpr ⟨rfl, rfl⟩, ?_⟩
  refine seq_eq_ok.mpr ⟨need_eq_ok.mpr ⟨hex64_zeros, hex64_sha _, hex64_sha _, hex64_sha _, hex64_sha _⟩, ?_⟩
  refine seq_eq_ok.mpr ⟨need_eq_ok.mpr ⟨hreceipt.1, hreceipt.2, hdone.1, hdone.2.trans (by decide)⟩, ?_⟩
  refine bind_eq_ok.mpr ⟨_, hstate, bind_eq_ok.mpr ⟨_, path_asked h.attempt.1 h.attempt.2.2, ?_⟩⟩
  refine bind_eq_ok.mpr ⟨_, path_asked h.destination.1 h.destination.2.2, ?_⟩
  refine bind_eq_ok.mpr ⟨_, path_asked h.capturePath.1 h.capturePath.2.2, ?_⟩
  exact need_eq_ok.mpr h.inside.2

theorem check_files_asked (h : a.Plain) : check_files a.files a.binding = .ok () := by
  have hrefs : forM a.binding.source_refs (fun r => do let _ ← checked_ref a.files r) = .ok () := by
    refine forM_eq_ok.mpr fun r hr => ?_
    rcases List.mem_cons.mp hr with rfl | hr
    · exact bind_eq_ok.mpr ⟨_, checked_shared shared_adapter, rfl⟩
    · obtain rfl := List.mem_singleton.mp hr
      exact bind_eq_ok.mpr ⟨_, checked_shared shared_inspection, rfl⟩
  refine bind_eq_ok.mpr ⟨_, checked_shared shared_start, bind_eq_ok.mpr ⟨_, checked_shared shared_inspection, ?_⟩⟩
  refine bind_eq_ok.mpr ⟨_, checked_capture h, bind_eq_ok.mpr ⟨_, checked_shared shared_binding, ?_⟩⟩
  refine bind_eq_ok.mpr ⟨_, checked_shared shared_inspection, seq_eq_ok.mpr ⟨hrefs, ?_⟩⟩
  refine bind_eq_ok.mpr ⟨_, path_asked h.destination.1 h.destination.2.2, ?_⟩
  exact bind_eq_ok.mpr ⟨_, path_asked h.attempt.1 h.attempt.2.2, rfl⟩

theorem small_start : Small (.dict zeroStart) 3000 3 := by
  refine ⟨?_, ?_, ?_⟩
  · simp [zeroStart, Artifact.value, inspectionRef, encodable_hashes, Distinct]
  · simp only [zeroStart, Artifact.value, inspectionRef, canon.textRoom, canon.textRoomMembers, canon.textRoomItems,
      length_hashes, length_zeros]
    simp [lit, ofText]
  · simp [zeroStart, Artifact.value, inspectionRef, Value.depth, Value.depthMembers, Value.depthItems]

theorem isStart_zeroStart : IsStart (.dict zeroStart) inspectionRef zeros "o" "a" [lit "managed-json-callback"] where
  state := rfl
  automatic_retry := rfl
  task_key := ⟨rfl, by decide⟩
  operation_id := ⟨rfl, by decide⟩
  attempt_id := ⟨rfl, by decide⟩
  subject := ⟨zeros, rfl, hex64_zeros⟩
  population := ⟨_, rfl, rfl, rfl⟩
  ids := by decide
  named := ⟨by decide, shared_inspection.hex⟩
  artifacts := ⟨_, rfl, by decide⟩

/-- What the START says. -/
def zeroBound : Bound where
  task_key := zeros
  task_identity := zeroIdentity.value
  parent_binding := { operation_id := "o", attempt_id := "a", start_sha256 := sha startBytes
                      basis_artifact := inspectionRef }
  expected_child_ids := [lit "managed-json-callback"]

theorem parent_zero : parent_binding startBytes inspectionRef = .ok zeroBound := by
  have hsmall := small_start
  have hsize : startBytes.size ≤ MAX_BYTES := by
    have hbytes := size_bytesOf hsmall.canonical
    have hroom := hsmall.room
    unfold MAX_BYTES startBytes
    omega
  have hnormal : (Value.dict zeroStart).normalize = .dict zeroStart := rfl
  have hdecode : decode_parent_start startBytes = .ok (.dict zeroStart) := by
    rw [← hnormal]
    exact decode_parent_start_canonical hsmall.canonical (by decide) (hsmall.depth.trans (by decide))
      (bytesOf_eq hsmall.canonical) hsize
  exact isStart_zeroStart.bound hdecode

theorem check_capture_asked (a : Asked) : check_capture zeroEpoch a.binding (.dict a.capture) = .ok () := by
  have hself : ∀ s, isStr (.str s) s = true := by simp
  have hget : ∀ k v, (Value.dict a.capture).get? k = some v → item (.dict a.capture) k = .ok v :=
    fun _ _ => item_of_get
  have hcallback : python.eq callbackValue zeroCallback.value = true := by decide
  have hbinding : python.eq bindingRef.value bindingRef.value = true := by decide
  have htask : python.eq zeroTask (inspectedTask inspectionRef zeroIdentity) = true := by decide
  have hinspection : python.eq inspectionRef.value inspectionRef.value = true := by decide
  have hadapter : ([adapterRef, inspectionRef].filter fun r => r.sha256 = adapterHash).length = 1 := by decide
  refine bind_eq_ok.mpr ⟨_, hget "kind" (.str "CAPTURE") rfl, ?_⟩
  refine bind_eq_ok.mpr ⟨_, hget "identity_sha256" (.str a.captureHash) rfl, ?_⟩
  refine bind_eq_ok.mpr ⟨_, hget "callback" callbackValue rfl, ?_⟩
  refine bind_eq_ok.mpr ⟨_, hget "common_capacity_binding" bindingRef.value rfl, ?_⟩
  refine bind_eq_ok.mpr ⟨_, hget "repository" (.str "r") rfl, ?_⟩
  refine bind_eq_ok.mpr ⟨_, hget "contract" _ rfl, bind_eq_ok.mpr ⟨.str "t", item_of_get rfl, ?_⟩⟩
  refine seq_eq_ok.mpr ⟨need_eq_ok.mpr ⟨hself _, hself _, hcallback, hbinding, hself _, hself _⟩, ?_⟩
  refine bind_eq_ok.mpr ⟨_, hget "snapshot" _ rfl, bind_eq_ok.mpr ⟨.dict [("task", zeroTask)], item_of_get rfl, ?_⟩⟩
  refine bind_eq_ok.mpr ⟨zeroTask, item_of_get rfl, seq_eq_ok.mpr ⟨need_eq_ok.mpr htask, ?_⟩⟩
  refine bind_eq_ok.mpr ⟨.dict [("inspection", inspectionRef.value)], hget "refs" _ rfl, ?_⟩
  refine seq_eq_ok.mpr ⟨need_eq_ok.mpr hinspection, need_eq_ok.mpr ⟨rfl, ?_, hadapter⟩⟩
  intro r hr
  obtain rfl := List.mem_singleton.mp hr
  exact ⟨inspectionRef, by simp [Asked.binding], hinspection⟩

theorem small_bindingFile : Small zeroBindingFile 5000 2 := by
  refine ⟨?_, ?_, ?_⟩
  · simp [zeroBindingFile, Artifact.value, configRef, zeroTask, encodable_hashes, EFFECT, Distinct]
  · simp only [zeroBindingFile, Artifact.value, configRef, zeroTask, EFFECT, canon.textRoom, canon.textRoomMembers,
      length_hashes, length_zeros]
    simp [lit, ofText]
  · simp [zeroBindingFile, Artifact.value, configRef, zeroTask, Value.depth, Value.depthMembers]

theorem check_binding_asked (a : Asked) : check_binding_file zeroEpoch a.files a.binding = .ok () := by
  have hself : ∀ s, isStr (.str s) s = true := by simp
  have hget : ∀ k v, zeroBindingFile.get? k = some v → item zeroBindingFile k = .ok v := fun _ _ => item_of_get
  have hload : load.load_json_bytes (bytesOf zeroBindingFile) = .ok zeroBindingFile :=
    load_bytesOf small_bindingFile.canonical (small_bindingFile.depth.trans (by decide))
  have howner : python.eq (.dict [("owner_issuer", .str "o"), ("public_key_hex", .str "p")])
      (.dict [("owner_issuer", .str zeroOwner.issuer), ("public_key_hex", .str "p")]) = true := by decide
  have htask : python.eq zeroTask (inspectedTask inspectionRef zeroIdentity) = true := by decide
  have hconfig : isStr (.str configHash) (sha zeroOwner.config_bytes) = true := by
    rw [sha_config]
    exact hself _
  refine bind_eq_ok.mpr ⟨_, checked_shared shared_binding, bind_eq_ok.mpr ⟨_, lift_eq_ok.mpr hload, ?_⟩⟩
  refine bind_eq_ok.mpr ⟨_, hget "pool_root" (.str "/pool") rfl, ?_⟩
  refine bind_eq_ok.mpr ⟨_, hget "config" configRef.value rfl, ?_⟩
  refine bind_eq_ok.mpr ⟨.str configHash, item_of_get rfl, ?_⟩
  refine bind_eq_ok.mpr ⟨_, hget "owner" _ rfl, bind_eq_ok.mpr ⟨_, hget "state_root" (.str "/s") rfl, ?_⟩⟩
  refine bind_eq_ok.mpr ⟨_, hget "schema" (.str "engineer.managed-task-capacity-binding/1") rfl, ?_⟩
  refine bind_eq_ok.mpr ⟨_, hget "effect_profile" (.str EFFECT) rfl, ?_⟩
  refine bind_eq_ok.mpr ⟨_, hget "authority_granted" (.bool false) rfl, ?_⟩
  refine bind_eq_ok.mpr ⟨_, hget "automatic_retry" (.bool false) rfl, bind_eq_ok.mpr ⟨_, hget "task" zeroTask rfl, ?_⟩⟩
  refine seq_eq_ok.mpr ⟨need_eq_ok.mpr
    ⟨hself _, hconfig, howner, hself _, hself _, hself _, rfl, rfl, htask⟩, ?_⟩
  refine bind_eq_ok.mpr ⟨_, refOf_value shared_config.text shared_config.hex, ?_⟩
  exact bind_eq_ok.mpr ⟨_, checked_shared shared_config, need_eq_ok.mpr rfl⟩

theorem check_inspection_asked (a : Asked) : check_inspection a.files a.binding inspectionRef = .ok () := by
  have hself : ∀ s, isStr (.str s) s = true := by simp
  have hsmall : Small zeroInspection 1000 2 := by
    refine ⟨?_, ?_, ?_⟩
    · simp [zeroInspection, encodable_hashes, Distinct]
    · simp only [zeroInspection, canon.textRoom, canon.textRoomMembers, length_zeros]
      simp [lit, ofText]
    · simp [zeroInspection, Value.depth, Value.depthMembers]
  have hread : engineer_json (bytesOf zeroInspection) = .ok zeroInspection := by
    have hsize := size_bytesOf hsmall.canonical
    have hroom := hsmall.room
    refine read_bytesOf load.reject_float hsmall.canonical (hsmall.depth.trans (by decide)) ?_
    unfold MAX_BYTES
    omega
  refine bind_eq_ok.mpr ⟨_, checked_shared shared_inspection, bind_eq_ok.mpr ⟨_, hread, ?_⟩⟩
  refine bind_eq_ok.mpr ⟨.dict [("task_id", .str "t"), ("task_subject_identity_sha256", .str zeros)],
    item_of_get rfl, ?_⟩
  refine bind_eq_ok.mpr ⟨.str "r", item_of_get rfl, bind_eq_ok.mpr ⟨.str "t", item_of_get rfl, ?_⟩⟩
  exact bind_eq_ok.mpr ⟨.str zeros, item_of_get rfl, need_eq_ok.mpr ⟨hself _, hself _, hself _⟩⟩

theorem check_outcome_asked (a : Asked) :
    check_outcome zeroEpoch a.binding (.dict a.capture) (.dict a.receipt) (.dict a.done) = .ok () := by
  have hself : ∀ s, isStr (.str s) s = true := by simp
  have hcapture : ∀ k v, (Value.dict a.capture).get? k = some v → item (.dict a.capture) k = .ok v :=
    fun _ _ => item_of_get
  have hreceipt : ∀ k v, (Value.dict a.receipt).get? k = some v → item (.dict a.receipt) k = .ok v :=
    fun _ _ => item_of_get
  have hdone : ∀ k v, (Value.dict a.done).get? k = some v → item (.dict a.done) k = .ok v :=
    fun _ _ => item_of_get
  have hcallback : python.eq callbackValue zeroCallback.value = true := by decide
  have hlabel : python.eq (.str "d") (.str "d") = true := by decide
  have hidentity : python.eq (.str a.receiptHash) (.str a.receiptHash) = true := eq_same (.str _)
  have hempty : raw (.list []) = .ok (bytesOf (.list [])) := lift_eq_ok.mpr (bytesOf_eq (by simp))
  refine bind_eq_ok.mpr ⟨_, hreceipt "schema" SCHEMA rfl, bind_eq_ok.mpr ⟨_, hcapture "schema" SCHEMA rfl, ?_⟩⟩
  refine bind_eq_ok.mpr ⟨_, hdone "schema" SCHEMA rfl, ?_⟩
  refine seq_eq_ok.mpr ⟨need_eq_ok.mpr ⟨hself _, hself _, hself _⟩, ?_⟩
  refine bind_eq_ok.mpr ⟨_, hreceipt "kind" (.str "LOCAL_CALLBACK_RECEIPT") rfl, ?_⟩
  refine bind_eq_ok.mpr ⟨_, hreceipt "capture_id" (.str a.captureHash) rfl, ?_⟩
  refine bind_eq_ok.mpr ⟨_, hreceipt "callback_id" (.str EFFECT) rfl, ?_⟩
  refine bind_eq_ok.mpr ⟨_, hreceipt "destination_label" (.str "d") rfl, ?_⟩
  refine bind_eq_ok.mpr ⟨_, hcapture "contract" _ rfl, bind_eq_ok.mpr ⟨.str "d", item_of_get rfl, ?_⟩⟩
  refine bind_eq_ok.mpr ⟨_, hreceipt "payload" .null rfl, bind_eq_ok.mpr ⟨"null".toList, lift_eq_ok.mpr rfl, ?_⟩⟩
  refine bind_eq_ok.mpr ⟨_, hcapture "snapshot" _ rfl, bind_eq_ok.mpr ⟨.null, item_of_get rfl, ?_⟩⟩
  refine bind_eq_ok.mpr ⟨"null".toList, lift_eq_ok.mpr rfl, ?_⟩
  refine seq_eq_ok.mpr ⟨need_eq_ok.mpr ⟨hself _, hself _, hself _, hlabel, rfl⟩, ?_⟩
  refine bind_eq_ok.mpr ⟨_, hdone "kind" (.str "COMPLETE") rfl, ?_⟩
  refine bind_eq_ok.mpr ⟨_, hdone "capture_id" (.str a.captureHash) rfl, ?_⟩
  refine bind_eq_ok.mpr ⟨_, hdone "callback" callbackValue rfl, ?_⟩
  refine bind_eq_ok.mpr ⟨_, hdone "receipt_sha256" (.str a.receiptHash) rfl, ?_⟩
  refine bind_eq_ok.mpr ⟨_, hreceipt "identity_sha256" (.str a.receiptHash) rfl, ?_⟩
  refine bind_eq_ok.mpr ⟨_, hdone "observed_guard_result" (.bool true) rfl, ?_⟩
  refine bind_eq_ok.mpr ⟨_, hdone "callback_calls" (.int 1) rfl, ?_⟩
  refine bind_eq_ok.mpr ⟨_, hdone "observed_guard_arguments" (.list []) rfl, bind_eq_ok.mpr ⟨_, hempty, ?_⟩⟩
  refine bind_eq_ok.mpr ⟨_, hcapture "snapshot" _ rfl, bind_eq_ok.mpr ⟨.dict [], item_of_get rfl, ?_⟩⟩
  refine bind_eq_ok.mpr ⟨_, hcapture "criterion" _ rfl, bind_eq_ok.mpr ⟨.list [], item_of_get rfl, ?_⟩⟩
  refine bind_eq_ok.mpr ⟨[], rfl, bind_eq_ok.mpr ⟨[], rfl, bind_eq_ok.mpr ⟨_, hempty, ?_⟩⟩⟩
  refine bind_eq_ok.mpr ⟨_, hdone "local_effect" (.str "MANAGED_JSON_RECEIPT_ONLY") rfl, ?_⟩
  refine bind_eq_ok.mpr ⟨_, hdone "external_effects" (.str "UNKNOWN") rfl, ?_⟩
  refine seq_eq_ok.mpr ⟨need_eq_ok.mpr
    ⟨hself _, hself _, hcallback, hidentity, rfl, rfl, rfl, hself _, hself _⟩, ?_⟩
  refine bind_eq_ok.mpr ⟨_, needKeys_eq_ok.mpr ⟨rfl, rfl⟩, ?_⟩
  exact bind_eq_ok.mpr ⟨_, needKeys_eq_ok.mpr ⟨rfl, rfl⟩, rfl⟩

/-- The request is taken, as what it asks for. -/
theorem inspect_asked (h : a.Plain) : inspect_managed_request zeroEpoch a.files a.given = .ok a.binding := by
  have hstart : path a.files a.binding.parent_start.path = .ok (parts startRef.path) :=
    path_asked shared_start.text shared_start.absolute
  have htask : python.eq zeroBound.task_identity a.binding.task_identity.value = true := by
    show python.eq zeroIdentity.value zeroIdentity.value = true
    decide
  have hchild : a.binding.child_id ∈ zeroBound.expected_child_ids := by
    show (lit "managed-json-callback") ∈ [lit "managed-json-callback"]
    exact List.mem_singleton.mpr rfl
  have hinspection := check_inspection_asked a
  refine bind_eq_ok.mpr ⟨_, read_asked h, seq_eq_ok.mpr ⟨binding_shape_asked h a, ?_⟩⟩
  refine seq_eq_ok.mpr ⟨check_files_asked h, bind_eq_ok.mpr ⟨_, hstart, ?_⟩⟩
  refine bind_eq_ok.mpr ⟨_, read_shared shared_start, seq_eq_ok.mpr ⟨need_eq_ok.mpr ⟨rfl, rfl⟩, ?_⟩⟩
  refine bind_eq_ok.mpr ⟨_, parent_zero, seq_eq_ok.mpr ⟨need_eq_ok.mpr ⟨rfl, htask, rfl, rfl, hchild⟩, ?_⟩⟩
  refine seq_eq_ok.mpr ⟨need_eq_ok.mpr rfl, bind_eq_ok.mpr ⟨_, sealed_capture h, ?_⟩⟩
  refine bind_eq_ok.mpr ⟨_, sealed_receipt a, bind_eq_ok.mpr ⟨_, sealed_done a, ?_⟩⟩
  refine seq_eq_ok.mpr ⟨needOr_eq_ok.mpr ⟨rfl, rfl⟩, seq_eq_ok.mpr ⟨check_capture_asked a, ?_⟩⟩
  refine seq_eq_ok.mpr ⟨check_binding_asked a, seq_eq_ok.mpr ⟨hinspection, seq_eq_ok.mpr ⟨hinspection, ?_⟩⟩⟩
  refine seq_eq_ok.mpr ⟨check_outcome_asked a, seq_eq_ok.mpr ⟨need_eq_ok.mpr ⟨rfl, rfl⟩, ?_⟩⟩
  refine seq_eq_ok.mpr ⟨need_eq_ok.mpr ⟨rfl, rfl⟩, ?_⟩
  refine bind_eq_ok.mpr ⟨_, path_asked h.attempt.1 h.attempt.2.2, ?_⟩
  exact seq_eq_ok.mpr ⟨needOr_eq_ok.mpr ⟨rfl, rfl, rfl⟩, rfl⟩

end Asking

end vfy.managed_capacity
