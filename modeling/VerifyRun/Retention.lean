-- Evidence of a check that is kept in a directory: the files, and a signed
-- receipt that counts their bytes and its own. The receipt says its own size,
-- so it is signed again until what it says is so.
import VerifyRun.TaskSuccession
import VerifyRun.PoolMarkers
import VerifyRun.Lib.Directories
import VerifyRun.Lib.SelfSize

namespace vfy.child_ledger

/-- `producer`, of the file of the module that signs. -/
def producer (source : ByteArray) : Value := .dict
  [("component", .str "verify-run"), ("version", .str "0.1.0a7"), ("source_sha256", .str (sha source)),
   ("source_identity_scope", .str "child_ledger.py")]

end vfy.child_ledger

namespace vfy.service_tests

open python keys outcomes child_ledger common_capacity managed_capacity service_attempt directories

/-! ## The disk -/

/-- The directories and files of a disk by path, and where its symbolic links are. -/
structure Disk where
  tree : Tree Str ByteArray
  is_link : List Str → Bool

namespace Disk

/-- `p == p.resolve()`, of the parts of an absolute path. -/
def Resolved (D : Disk) (p : List Str) : Prop :=
  lit ".." ∉ p ∧ ∀ q ∈ p.inits, D.is_link q = false

instance (D : Disk) (p : List Str) : Decidable (D.Resolved p) := inferInstanceAs (Decidable (_ ∧ _))

/-- `read_file`. -/
def read_file (D : Disk) (p : List Str) : Checked ByteArray := do
  need (D.Resolved p)
  match D.tree p with
  | some (.file data) => do
    need (data.size ≤ MAX_BYTES)
    pure data
  | some .directory => .error (.refused REFUSED)
  | none => .error (.raised .os_error)

/-- `mkdir`, which makes one directory, where nothing stands. -/
def mkdir (D : Disk) (p : List Str) : Checked Disk :=
  if (D.tree p).isNone && !D.is_link p && isDirectory D.tree p.dropLast then
    pure { D with tree := Function.update D.tree p (some .directory) }
  else .error (.raised .os_error)

/-- `fresh`. -/
def fresh (D : Disk) (p : List Str) (data : ByteArray) : Checked Disk :=
  match directories.fresh D.tree p data, D.is_link p with
  | some tree, false => pure { D with tree }
  | _, _ => .error (.raised .os_error)

end Disk

/-! ## The receipt -/

/-- `FILES`. -/
def FILES : List (Str × Str) :=
  [("selection_bytes", "SELECTION.json"), ("requirements_bytes", "REQUIREMENTS.json"),
   ("runner_bytes", "runner.bin"), ("preview_bytes", "PREVIEW.json"), ("start_bytes", "START.json"),
   ("result_bytes", "RESULT.json"), ("stdout_bytes", "stdout.bin"), ("stderr_bytes", "stderr.bin"),
   ("accounting_snapshot_bytes", "ACCOUNTING.json")]

/-- `FILES[k]`, of a name that is there. -/
def fileOf (k : Str) : Str := (FILES.lookup k).getD []

/-- The names in a manifest. -/
def MANIFEST : List Str := FILES.map Prod.snd ++ [lit "OBSERVATION.json"]

/-- What a receipt is about. -/
structure Retained where
  recorded_at : Str
  manifest : List (Str × Str)
  observation_sha256 : Str
  input_bytes : Option Nat

namespace TestObservationChecker

variable (C : TestObservationChecker)

/-- The members of a receipt that says how many bytes are retained. -/
def receipt_said (R : Retained) (retained_bytes : Nat) : List (Str × Value) :=
  [("schema", .str "vfy.service-test-evidence/1"), ("checker_identity", identity C.source),
   ("recorded_at", .str R.recorded_at), ("manifest", .dict (R.manifest.map fun m => (m.1, .str m.2))),
   ("observation_sha256", .str R.observation_sha256), ("selected_limits", C.limits.value),
   ("input_bytes", intOrNull R.input_bytes), ("retained_bytes", .int retained_bytes),
   ("additional_evidence_charged_to_service_pool", .bool false)]

/-- The body of that receipt. -/
def receipt_body (R : Retained) (retained_bytes : Nat) : Value :=
  .dict (C.receipt_said R retained_bytes ++ SCOPE ++ FLAGS)

/-- The receipt that says so, and its bytes. -/
def sign_receipt (R : Retained) (retained_bytes : Nat) : Checked (Envelope Value × ByteArray) := do
  let receipt ← envelope C.pool.owner.host (C.receipt_body R retained_bytes) C.pool.owner.key
    C.pool.owner.issuer
  let receipt_raw ← raw (value receipt)
  pure (receipt, receipt_raw)

/-- The loop that signs the receipt until it says the bytes of the files and its
own: the receipt, its bytes, and the sum. -/
def settle_size (R : Retained) (others : Nat) :
    Nat → Nat → Checked (Envelope Value × ByteArray × Nat)
  | 0, _ => .error (.refused "RECEIPT_SIZE_UNSTABLE")
  | rounds + 1, retained_bytes => do
    let (receipt, receipt_raw) ← C.sign_receipt R retained_bytes
    let total := others + receipt_raw.size
    if retained_bytes = total then pure (receipt, receipt_raw, total)
    else settle_size R others rounds total

/-- The files of a check, by their names. -/
def files (E : Evidence) (observation : ByteArray) : List (Str × ByteArray) :=
  (C.selected ++ E.members).map (fun i => (fileOf i.1, i.2)) ++
    [(lit "OBSERVATION.json", observation)]

def sizeOf (files : List (Str × ByteArray)) : Nat := (files.map fun f => f.2.size).sum

/-- `retain`: the receipt, and the disk after it. -/
def retain (D : Disk) (destination recorded_at : Str) (E : Evidence) :
    Checked (Envelope Value × Disk) := do
  needOr (text recorded_at) "INVALID_RECORDED_AT"
  let observed ← C.check E
  let _ ← bounded C.limits (C.selected ++ E.members)
  let observation ← raw observed.value
  let files := C.files E observation
  needOr (∀ f ∈ files, f.2.size ≤ MAX_BYTES) "RETAINED_MEMBER_SIZE_LIMIT"
  let R : Retained :=
    { recorded_at, manifest := files.map fun f => (f.1, sha f.2)
      observation_sha256 := sha observation, input_bytes := observed.input_bytes }
  let (receipt, receipt_raw, total) ← C.settle_size R (sizeOf files) 8 0
  needOr (total ≤ C.limits.retained_bytes) "RETENTION_BYTE_LIMIT"
  let dest := parts destination
  needOr (destination.head? = some (.scalar '/') ∧ D.Resolved dest) "NONCANONICAL_EVIDENCE_DESTINATION"
  let D ← D.mkdir dest
  let D ← files.foldlM (fun D f => D.fresh (dest ++ [f.1]) f.2) D
  let D ← D.fresh (dest ++ [lit "RECEIPT.json"]) receipt_raw
  pure (receipt, D)

/-! ## Reading it back -/

def RECEIPT_KEYS : List Str :=
  ["schema", "checker_identity", "recorded_at", "manifest", "observation_sha256", "selected_limits",
   "input_bytes", "retained_bytes", "additional_evidence_charged_to_service_pool",
   "semantic_acceptance", "adoption", "organizational_authority", "authority_granted",
   "automatic_retry"]

/-- `text(v)`, of any value. -/
def isText : Value → Bool
  | .str s => decide (text s)
  | _ => false

/-- The members of a receipt that do not depend on the evidence. -/
def check_receipt (b : Value) : Checked Unit := do
  let schema ← item b "schema"
  let checker_identity ← item b "checker_identity"
  let selected_limits ← item b "selected_limits"
  let semantic_acceptance ← item b "semantic_acceptance"
  let adoption ← item b "adoption"
  let organizational_authority ← item b "organizational_authority"
  let authority_granted ← item b "authority_granted"
  let automatic_retry ← item b "automatic_retry"
  let charged ← item b "additional_evidence_charged_to_service_pool"
  let recorded_at ← item b "recorded_at"
  needOr (isStr schema "vfy.service-test-evidence/1" ∧
    python.eq checker_identity (identity C.source) = true ∧
    python.eq selected_limits C.limits.value = true ∧ isStr semantic_acceptance "UNESTABLISHED" ∧
    isStr adoption "UNESTABLISHED" ∧ isStr organizational_authority "UNESTABLISHED" ∧
    isFalseValue authority_granted ∧ isFalseValue automatic_retry ∧ isFalseValue charged ∧
    isText recorded_at = true) "RETAINED_SELECTION_MISMATCH"

/-- `request_sha256`, as an observation says it. What is no text is no digest,
and the empty text stands for it. -/
def requestOf : Option Value → Str
  | some (.str s) => s
  | _ => []

/-- The evidence among named inputs. -/
def evidenceAmong (inputs : List (Str × ByteArray)) (request_sha256 : Str) : Evidence :=
  let named (k : Str) := (inputs.lookup k).getD .empty
  { preview_bytes := named "preview_bytes", start_bytes := named "start_bytes"
    result_bytes := named "result_bytes", stdout_bytes := named "stdout_bytes"
    stderr_bytes := named "stderr_bytes"
    accounting_snapshot_bytes := named "accounting_snapshot_bytes", request_sha256 }

/-- The files that a manifest names, each with the bytes that it says. -/
def read_manifest (D : Disk) (root : List Str) (manifest : List (Str × Value)) :
    Checked (List (Str × ByteArray)) := do
  let files ← manifest.mapM fun m => do pure (m.1, ← D.read_file (root ++ [m.1]))
  needOr (∀ f ∈ files, isStr ((manifest.lookup f.1).getD .null) (sha f.2)) "RETAINED_BYTES_CHANGED"
  pure files

/-- `verify_retained`. -/
def verify_retained (D : Disk) (directory : Str) : Checked Observation := do
  let root := parts directory
  needOr (directory.head? = some (.scalar '/') ∧ D.Resolved root) "NONCANONICAL_EVIDENCE_DIRECTORY"
  let receipt_raw ← D.read_file (root ++ [lit "RECEIPT.json"])
  let receipt ← envelopeOf (← lift (load.load_json_bytes receipt_raw))
  let b ← authenticate C.pool.owner.host receipt C.pool.owner.trust
  needOr (receipt.issuer_identity = C.pool.owner.issuer) "INVALID_RETAINED_RECEIPT"
  let _ ← exactly b RECEIPT_KEYS "INVALID_RETAINED_RECEIPT"
  C.check_receipt b
  let manifest ← exactly (← item b "manifest") MANIFEST "INVALID_MANIFEST"
  let files ← read_manifest D root manifest
  let total := sizeOf files + receipt_raw.size
  let retained_bytes ← item b "retained_bytes"
  needOr (python.eq (.int total) retained_bytes = true ∧ total ≤ C.limits.retained_bytes)
    "RETAINED_BYTE_COUNT_MISMATCH"
  let inputs := FILES.map fun f => (f.1, (files.lookup f.2).getD .empty)
  let count ← bounded C.limits inputs
  let input_bytes ← item b "input_bytes"
  needOr (python.eq (.int count) input_bytes = true ∧ ∀ s ∈ C.selected, inputs.lookup s.1 = some s.2)
    "RETAINED_INPUT_SELECTION_MISMATCH"
  let observation := (files.lookup (lit "OBSERVATION.json")).getD .empty
  let observed ← lift (load.load_json_bytes observation)
  let request_sha256 ← lift (getMethod observed "request_sha256")
  let recomputed ← C.check (evidenceAmong inputs (requestOf request_sha256))
  let recomputed_raw ← raw recomputed.value
  let observation_sha256 ← item b "observation_sha256"
  needOr (recomputed_raw = observation ∧ isStr observation_sha256 (sha observation))
    "RETAINED_OBSERVATION_MISMATCH"
  pure recomputed

end TestObservationChecker

/-! ## The size of a receipt -/

theorem mem_hexOf {b : ByteArray} {c : CodePoint} (h : c ∈ hexOf b) :
    ∃ n < 16, c = .scalar (Nat.digitChar n) := by
  obtain ⟨n, -, hc⟩ := List.mem_flatMap.mp h
  have hn : n.toNat < 256 := n.toNat_lt
  rcases List.mem_cons.mp hc with rfl | hc
  · exact ⟨_, by omega, rfl⟩
  · rw [List.mem_singleton] at hc
    exact ⟨_, Nat.mod_lt _ (by decide), hc⟩

theorem length_hexOf (b : ByteArray) : (hexOf b).length = 2 * b.size := by
  rw [hexOf, List.length_flatMap, ← ByteArray.size_data, ← Array.length_toList]
  simp [mul_comm]

theorem strWidth_hexOf (b : ByteArray) : canon.strWidth (hexOf b) = 2 * b.size + 2 := by
  rw [canon.strWidth_hex fun _ => mem_hexOf, length_hexOf]

/-- What the cryptography package promises of a signature: it is 64 bytes, here in
hexadecimal text, and the public key of the key verifies it. The producer is
what the module says of itself. -/
structure Signs (host : Host) : Prop where
  signature : ∀ key m, ∃ s : ByteArray, s.size = 64 ∧ host.sign key m = hexOf s
  verifies : ∀ key m, host.verify (host.public_key_hex key) (host.sign key m) m = true
  producer : ∃ source, host.producer = producer source

namespace TestObservationChecker

variable {C : TestObservationChecker} {R : Retained}

/-- How long the receipt is that says this. -/
def receiptWidth (C : TestObservationChecker) (R : Retained) (retained_bytes : Nat) : Nat :=
  canon.textWidth (value
    ({ issuer_identity := C.pool.owner.issuer, producer_identity := C.pool.owner.host.producer
       body := C.receipt_body R retained_bytes, signature := hexOf ⟨Array.replicate 64 0⟩
       sha256 := sha .empty } : Envelope Value))

theorem size_sign_receipt (hhost : Signs C.pool.owner.host) {n : Nat} {r : Envelope Value × ByteArray}
    (h : C.sign_receipt R n = .ok r) : r.2.size = C.receiptWidth R n := by
  unfold sign_receipt at h
  obtain ⟨receipt, hreceipt, h⟩ := bind_eq_ok.mp h
  obtain ⟨receipt_raw, hraw, h⟩ := bind_eq_ok.mp h
  obtain rfl := pure_eq_ok.mp h
  obtain ⟨bytes, b, rfl⟩ := envelope_shape hreceipt
  obtain ⟨s, hs, hsign⟩ := hhost.signature C.pool.owner.key bytes
  have hwidth : canon.strWidth (hexOf s) = canon.strWidth (hexOf ⟨Array.replicate 64 0⟩) := by
    rw [strWidth_hexOf, strWidth_hexOf, hs]
    rfl
  rw [size_raw_eq hraw, receiptWidth, hsign]
  simp only [value, Envelope.unsigned, Envelope.message, List.cons_append, List.nil_append,
    canon.textWidth_dict_cons, canon.textWidthMembers, canon.textWidth, hwidth, strWidth_sha]

/-- Only the digits of the number make a difference. -/
theorem receiptWidth_eq (n : Nat) : C.receiptWidth R n =
    self_size.size 10 (C.receiptWidth R 0 - 1) n := by
  have hzero : canon.textWidth (.int (0 : Nat)) = 1 := by rw [canon.textWidth_nat]; rfl
  have hbody : ∀ n : Nat, canon.textWidth (C.receipt_body R n) + 1 =
      canon.textWidth (C.receipt_body R 0) + canon.textWidth (.int n) := by
    intro n
    simp only [receipt_body, receipt_said, SCOPE, FLAGS, List.cons_append, List.nil_append,
      canon.textWidth_dict_cons, canon.textWidthMembers, hzero]
    omega
  have hn := hbody n
  have hdigits := canon.textWidth_nat n
  unfold receiptWidth self_size.size self_size.digits
  simp only [value, Envelope.unsigned, Envelope.message, List.cons_append, List.nil_append,
    canon.textWidth_dict_cons, canon.textWidthMembers, id_eq]
  omega

/-! ## The loop settles -/

theorem raw_error {v : Value} {e : Refusal} (h : raw v = .error e) : ∃ x, e = .raised x := by
  unfold raw child_ledger.lift at h
  cases hbytes : canon.canonical_bytes v with
  | ok b =>
    rw [hbytes] at h
    cases h
  | error x =>
    rw [hbytes] at h
    cases h
    exact ⟨x, rfl⟩

/-- Signing refuses nothing. -/
theorem sign_receipt_error {n : Nat} {e : Refusal} (h : C.sign_receipt R n = .error e) :
    ∃ x, e = .raised x := by
  unfold sign_receipt envelope signedBytes digest at h
  dsimp only at h
  simp only [bind_eq_error, pure_ne_error, and_false, exists_false, or_false] at h
  rcases h with (h | ⟨_, -, h⟩) | ⟨_, -, h⟩
  · exact raw_error h
  · exact raw_error h
  · exact raw_error h

/-- What the loop returns says the sum, of which it is a part. -/
theorem settle_size_eq_ok {others rounds n total : Nat} {receipt : Envelope Value}
    {receipt_raw : ByteArray}
    (h : C.settle_size R others rounds n = .ok (receipt, receipt_raw, total)) :
    C.sign_receipt R total = .ok (receipt, receipt_raw) ∧ total = others + receipt_raw.size := by
  induction rounds generalizing n with
  | zero => cases h
  | succ rounds ih =>
    obtain ⟨r, hr, h⟩ := bind_eq_ok.mp h
    dsimp only at h
    split at h
    · rename_i hn
      cases h
      exact ⟨hn ▸ hr, rfl⟩
    · exact ih h

/-- The loop runs out of rounds. -/
def Unstable {α : Type} (x : Checked α) : Prop := x = .error (.refused "RECEIPT_SIZE_UNSTABLE")

section Settling

variable (hhost : Signs C.pool.owner.host) {others : Nat}

include hhost

/-- One round: the receipt says the size that it has, or the next round comes. -/
theorem not_unstable_turn {rounds n : Nat}
    (hnext : others + C.receiptWidth R n ≠ n →
      ¬ Unstable (C.settle_size R others rounds (others + C.receiptWidth R n))) :
    ¬ Unstable (C.settle_size R others (rounds + 1) n) := by
  intro h
  unfold Unstable settle_size at h
  cases hsign : C.sign_receipt R n with
  | error e =>
    rw [hsign, error_bind] at h
    obtain ⟨x, rfl⟩ := sign_receipt_error hsign
    cases h
  | ok r =>
    rw [hsign, ok_bind] at h
    dsimp only at h
    rw [size_sign_receipt hhost hsign] at h
    split at h
    · cases h
    · rename_i hn
      exact hnext (Ne.symm hn) h

/-- The eight rounds are enough. -/
theorem settle_size_stable : ¬ Unstable (C.settle_size R others 8 0) := by
  have htotal : ∀ n, others + C.receiptWidth R n =
      self_size.size 10 (others + (C.receiptWidth R 0 - 1)) n := by
    intro n
    rw [receiptWidth_eq n, self_size.size, self_size.size]
    omega
  -- a round goes from one draft to the next
  have hdraft : ∀ k rounds,
      (k ≠ 3 → ¬ Unstable (C.settle_size R others rounds
        (self_size.draft 10 (others + (C.receiptWidth R 0 - 1)) (k + 1)))) →
      ¬ Unstable (C.settle_size R others (rounds + 1)
        (self_size.draft 10 (others + (C.receiptWidth R 0 - 1)) k)) := by
    intro k rounds hnext
    apply not_unstable_turn hhost
    intro hne
    rw [htotal] at hne ⊢
    apply hnext
    rintro rfl
    exact hne (self_size.draft_settled (by decide) _)
  apply hdraft 0
  intro _
  apply hdraft 1
  intro _
  apply hdraft 2
  intro _
  apply hdraft 3
  exact fun h => absurd rfl h

end Settling

/-! ## Nothing else says that -/

section Elsewhere

variable {α β : Type}

theorem not_unstable_bind {x : Checked α} {f : α → Checked β} (hx : ¬ Unstable x)
    (hf : ∀ a, ¬ Unstable (f a)) : ¬ Unstable (x >>= f) := by
  intro h
  rcases bind_eq_error.mp h with h | ⟨a, -, h⟩
  · exact hx h
  · exact hf a h

theorem not_unstable_needOr {p : Prop} [Decidable p] {message : Str}
    (h : message ≠ lit "RECEIPT_SIZE_UNSTABLE") : ¬ Unstable (needOr p message) := by
  intro hp
  obtain ⟨-, heq⟩ := raiseIf_eq_error.mp hp
  injection heq with heq
  exact h heq

theorem not_unstable_raised {x : Checked α} (h : ∀ e, x = .error e → ∃ exn, e = .raised exn) :
    ¬ Unstable x := by
  intro hx
  obtain ⟨_, he⟩ := h _ hx
  cases he

theorem not_unstable_pure (a : α) : ¬ Unstable (pure a : Checked α) := by
  intro h
  cases h

theorem not_unstable_foldlM {σ : Type} {f : σ → α → Checked σ} (hf : ∀ s a, ¬ Unstable (f s a))
    (l : List α) (s : σ) : ¬ Unstable (l.foldlM f s) := by
  induction l generalizing s with
  | nil => exact not_unstable_pure s
  | cons a l ih =>
    rw [List.foldlM_cons]
    exact not_unstable_bind (hf s a) ih

end Elsewhere

theorem failed_error {out : Observation} {e e' : Refusal} (h : out.failed e = .error e') :
    ∃ x, e' = .raised x := by
  unfold Observation.failed at h
  split at h
  · cases h
  · split at h
    · cases h
    · cases h
      exact ⟨_, rfl⟩

theorem attempt_error {out : Observation} {x : Checked α} {next : α → Checked Observation} {e : Refusal}
    (h : attempt out x next = .error e) : (∃ exn, e = .raised exn) ∨ ∃ a, next a = .error e := by
  unfold attempt at h
  cases x with
  | ok a => exact .inr ⟨a, h⟩
  | error e' => exact .inl (failed_error h)

/-- A check refuses nothing: it has reasons instead. -/
theorem check_error {E : Evidence} {e : Refusal} (h : C.check E = .error e) : ∃ x, e = .raised x := by
  unfold check at h
  rcases attempt_error h with h | ⟨count, h⟩
  · exact h
  rcases attempt_error h with h | ⟨_, h⟩
  · exact h
  rcases attempt_error h with h | ⟨report, h⟩
  · exact h
  rcases attempt_error h with h | ⟨_, h⟩
  · exact h
  · cases h

theorem mkdir_error {D : Disk} {p : List Str} {e : Refusal} (h : D.mkdir p = .error e) :
    ∃ x, e = .raised x := by
  unfold Disk.mkdir at h
  split at h
  · cases h
  · cases h
    exact ⟨_, rfl⟩

theorem fresh_error {D : Disk} {p : List Str} {data : ByteArray} {e : Refusal}
    (h : D.fresh p data = .error e) : ∃ x, e = .raised x := by
  unfold Disk.fresh at h
  split at h
  · cases h
  · cases h
    exact ⟨_, rfl⟩

/-- Retaining evidence never runs out of rounds. -/
theorem retain_stable (hhost : Signs C.pool.owner.host) (D : Disk) (destination recorded_at : Str)
    (E : Evidence) : ¬ Unstable (C.retain D destination recorded_at E) := by
  have hneed : ∀ (p : Prop) [Decidable p] (message : Str), message ≠ lit "RECEIPT_SIZE_UNSTABLE" →
      ¬ Unstable (needOr p message) := fun p _ _ => not_unstable_needOr
  unfold retain
  apply not_unstable_bind (hneed _ _ (by decide))
  intro _
  apply not_unstable_bind (not_unstable_raised fun _ => check_error)
  intro observed
  apply not_unstable_bind
  · unfold bounded
    apply not_unstable_bind (hneed _ _ (by decide))
    intro _
    apply not_unstable_bind (hneed _ _ (by decide))
    exact fun _ => not_unstable_pure _
  intro _
  apply not_unstable_bind (not_unstable_raised fun _ => raw_error)
  intro observation
  apply not_unstable_bind (hneed _ _ (by decide))
  intro _
  apply not_unstable_bind (settle_size_stable hhost)
  intro settled
  apply not_unstable_bind (hneed _ _ (by decide))
  intro _
  apply not_unstable_bind (hneed _ _ (by decide))
  intro _
  apply not_unstable_bind (not_unstable_raised fun _ => mkdir_error)
  intro _
  apply not_unstable_bind
  · exact not_unstable_foldlM (fun _ _ => not_unstable_raised fun _ => fresh_error) _ _
  intro _
  apply not_unstable_bind (not_unstable_raised fun _ => fresh_error)
  exact fun _ => not_unstable_pure _

end TestObservationChecker

end vfy.service_tests
