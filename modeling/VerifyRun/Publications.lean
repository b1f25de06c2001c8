-- What the writers of a child ledger, and those of a pool root, publish: which
-- record a mutation makes of the record that it read, and that the records are
-- one chain. A pool root goes from the shared owner to a managed epoch, or to a
-- service pool, in the same state file and under the same lock.
import VerifyRun.BudgetSafety
import VerifyRun.CommonLaws
import VerifyRun.PoolMarkers
import VerifyRun.ServiceLaws

namespace vfy.publication

/-- What the records of a journal say of their place in the chain. -/
structure Place (ρ : Type) where
  sha256 : ρ → Str
  previous : ρ → Option Str
  revision : ρ → Nat

/-- The second record names the first one, and is one revision later. -/
def Place.Follows {ρ : Type} (place : Place ρ) (old new : ρ) : Prop :=
  place.previous new = some (place.sha256 old) ∧ place.revision new = place.revision old + 1

end vfy.publication

namespace vfy.child_ledger

open python keys outcomes publication

/-! ## The child ledger -/

def place : Place (Envelope Body) where
  sha256 record := record.sha256
  previous record := record.body.previous_snapshot_sha256
  revision record := record.body.revision

/-- Some call of some writer makes this record of that one. -/
def Mutates (old new : Envelope Body) : Prop := ∃ L op, step L old op = .ok new

/-- A change whose action leaves the revision alone makes the next record. -/
theorem follows_of_change {α : Type} {L : Ledger} {old new : Envelope Body}
    {action : Body → Checked (Body × α)} {result : α} (h : change L old action = .ok (new, result))
    (hkeeps : ∀ body, action old.body = .ok (body, result) → body.revision = old.body.revision) :
    place.Follows old new := by
  obtain ⟨body, hbody, hnew⟩ := change_eq_ok h
  constructor
  · exact congrArg Body.previous_snapshot_sha256 hnew
  · have hrevision : new.body.revision = body.revision + 1 := congrArg Body.revision hnew
    rw [hkeeps body hbody] at hrevision
    exact hrevision

theorem reserve_child_revision {L : Ledger} {child_id attempt_id issued_at : Str} {rows : Value}
    {requested : Amounts} {body body' : Body} {e : Envelope (Event ReservationFields)}
    (h : reserve_child L child_id attempt_id rows requested issued_at body = .ok (body', e)) :
    body'.revision = body.revision := by
  unfold reserve_child at h
  split at h
  · cases h
  · simp only [bind_eq_ok, exists_unit, pure_eq_ok] at h
    obtain ⟨-, -, _, -, _, -, -, -, _, -, _, -, h⟩ := h
    obtain ⟨rfl, -⟩ := Prod.mk.inj h
    rfl

theorem dispatch_child_revision {L : Ledger} {reservation_id recorded_at : Str} {body body' : Body}
    {e : Envelope (Event DispatchFields)}
    (h : dispatch_child L reservation_id recorded_at body = .ok (body', e)) :
    body'.revision = body.revision := by
  unfold dispatch_child at h
  simp only [bind_eq_ok, exists_unit, pure_eq_ok] at h
  obtain ⟨_, -, -, _, -, h⟩ := h
  obtain ⟨rfl, -⟩ := Prod.mk.inj h
  rfl

theorem complete_child_revision {L : Ledger} {reservation_id service_performed recorded_at : Str}
    {rows : Value} {measured : Amounts} {observation : Artifact} {body body' : Body}
    {e : Envelope (Event CompletionFields)}
    (h : complete_child L reservation_id service_performed rows measured observation recorded_at
      body = .ok (body', e)) : body'.revision = body.revision := by
  unfold complete_child at h
  simp only [bind_eq_ok, exists_unit, pure_eq_ok] at h
  obtain ⟨_, -, -, _, -, -, _, -, h⟩ := h
  obtain ⟨rfl, -⟩ := Prod.mk.inj h
  rfl

theorem settle_child_revision {L : Ledger} {reservation_id completion_sha256 settled_at : Str}
    {body body' : Body} {e : Envelope (Event SettlementFields)}
    (h : settle_child L reservation_id completion_sha256 settled_at body = .ok (body', e)) :
    body'.revision = body.revision := by
  unfold settle_child at h
  obtain ⟨⟨c, i⟩, -, h⟩ := bind_eq_ok.mp h
  dsimp only at h
  split at h
  · simp only [bind_eq_ok, exists_unit, pure_eq_ok] at h
    obtain ⟨-, _, -, _, -, _, -, _, -, h⟩ := h
    obtain ⟨rfl, -⟩ := Prod.mk.inj h
    rfl
  · cases h

theorem Mutates.follows {old new : Envelope Body} (h : Mutates old new) : place.Follows old new := by
  obtain ⟨L, op, h⟩ := h
  cases op with
  | reserve child_id attempt_id resource_rows issued_at =>
    simp only [step, reserve, bind_eq_ok, exists_unit, pure_eq_ok] at h
    obtain ⟨⟨_, e⟩, ⟨_, -, _, -, -, hchange⟩, rfl⟩ := h
    exact follows_of_change hchange fun _ => reserve_child_revision
  | dispatch_record reservation_id recorded_at =>
    simp only [step, dispatch_record, bind_eq_ok, pure_eq_ok] at h
    obtain ⟨⟨_, e⟩, hchange, rfl⟩ := h
    exact follows_of_change hchange fun _ => dispatch_child_revision
  | complete reservation_id service_performed resource_rows observation observation_bytes
      recorded_at =>
    simp only [step, complete, bind_eq_ok, exists_unit, pure_eq_ok] at h
    obtain ⟨⟨_, e⟩, ⟨_, -, _, -, -, -, h⟩, rfl⟩ := h
    split at h
    · cases h
    · simp only [bind_eq_ok, exists_unit] at h
      obtain ⟨-, -, -, hchange⟩ := h
      exact follows_of_change hchange fun _ => complete_child_revision
  | settle reservation_id completion_sha256 settled_at =>
    simp only [step, settle, bind_eq_ok, pure_eq_ok] at h
    obtain ⟨⟨_, e⟩, hchange, rfl⟩ := h
    exact follows_of_change hchange fun _ => settle_child_revision

end vfy.child_ledger

namespace vfy.pool

open python keys outcomes child_ledger common_capacity publication

/-! ## The records of a pool root -/

/-- A record in the state file of a pool root, of one of the owners of it. -/
inductive Content where
  | common (record : Envelope common_capacity.Body)
  | managed (record : Envelope managed_capacity.Body)
  | service (record : Envelope service_attempt.Body)

namespace Content

def value : Content → Value
  | .common record => Encoded.value record
  | .managed record => Encoded.value record
  | .service record => Encoded.value record

def sha256 : Content → Str
  | .common record => record.sha256
  | .managed record => record.sha256
  | .service record => record.sha256

def revision : Content → Nat
  | .common record => record.body.revision
  | .managed record => record.body.revision
  | .service record => record.body.revision

/-- The digest of the record that this one replaced. -/
def previous : Content → Option Str
  | .common record => record.body.previous
  | .managed record => some record.body.previous
  | .service record => some record.body.previous

end Content

/-- A record, as it is read and written: no mapping in it has a key twice. -/
structure Record where
  content : Content
  distinct : content.value.DistinctKeys

def place : Place Record where
  sha256 record := record.content.sha256
  previous record := record.content.previous
  revision record := record.content.revision

/-- Some call of some writer makes this record of that one. -/
inductive Mutates : Content → Content → Prop where
  | reserve (O : Owner) (old next : Envelope common_capacity.Body) (ledger : Ledger)
      (ledger_root : Str) (request_bytes : ByteArray) (present : Option ByteArray)
      (ticket : Envelope Ticket) :
      common_capacity.reserve O old ledger ledger_root request_bytes present = .ok (next, ticket) →
      Mutates (.common old) (.common next)
  | bind_dispatch (O : Owner) (old next : Envelope common_capacity.Body) (ticket : Envelope Ticket)
      (reservation binding_record : Envelope Value) (dispatch : Dispatch) :
      bind_dispatch O old ticket reservation binding_record = .ok (next, dispatch) →
      Mutates (.common old) (.common next)
  | settle (O : Owner) (old next : Envelope common_capacity.Body) (ticket : Envelope Ticket)
      (result : Result) (settlement : Envelope Settlement) :
      common_capacity.settle O old ticket result = .ok (next, settlement) →
      Mutates (.common old) (.common next)
  /-- The epoch starts over the legacy state. -/
  | apply_grant (M : managed_capacity.ManagedOwner) (F : managed_capacity.Files)
      (old : Envelope common_capacity.Body) (next : Envelope managed_capacity.Body)
      (grant_request_bytes : ByteArray) (recorded_at : Str) :
      (Encoded.value M.legacy).DistinctKeys →
      managed_capacity.apply_grant M F old grant_request_bytes recorded_at = .ok next →
      Mutates (.common old) (.managed next)
  | prepare_managed (M : managed_capacity.ManagedOwner) (F : managed_capacity.Files)
      (old next : Envelope managed_capacity.Body) (R : managed_capacity.Request)
      (recorded_at key : Str) :
      managed_capacity.prepare_managed M F old R recorded_at = .ok (next, key) →
      Mutates (.managed old) (.managed next)
  | before_callback (M : managed_capacity.ManagedOwner) (F : managed_capacity.Files)
      (old next : Envelope managed_capacity.Body) (key : Str) (A : managed_capacity.Callbacks) :
      managed_capacity.change M F old (managed_capacity.consume_entry F key A) = .ok (next, ()) →
      Mutates (.managed old) (.managed next)
  | settle_managed (M : managed_capacity.ManagedOwner) (F : managed_capacity.Files)
      (old next : Envelope managed_capacity.Body) (key : Str)
      (callback_bytes complete_bytes : ByteArray) (recorded_at : Str) :
      managed_capacity.change M F old
        (managed_capacity.settle_entry F key callback_bytes complete_bytes recorded_at) =
          .ok (next, ()) →
      Mutates (.managed old) (.managed next)
  | mark_unknown_managed (M : managed_capacity.ManagedOwner) (F : managed_capacity.Files)
      (old next : Envelope managed_capacity.Body) (key reason recorded_at : Str) :
      managed_capacity.change M F old (managed_capacity.unknown_entry key reason recorded_at) =
        .ok (next, ()) →
      Mutates (.managed old) (.managed next)
  /-- A service pool starts over whatever is in the state file. -/
  | attach (P : service_attempt.ServicePool) (old : Content) (bytes : ByteArray)
      (next : Envelope service_attempt.Body) : P.predecessor.value.DistinctKeys →
      raw old.value = .ok bytes → service_attempt.attach P bytes = .ok next →
      Mutates old (.service next)
  | admit_request (P : service_attempt.ServicePool) (F : managed_capacity.Files)
      (old next : Envelope service_attempt.Body)
      (request_bytes preview_bytes approval_bytes : ByteArray) (recorded_at : Str)
      (fn : service_attempt.Body → Checked service_attempt.Body) :
      service_attempt.admit_request P F request_bytes preview_bytes approval_bytes recorded_at =
        .ok fn →
      service_attempt.change P old fn = .ok next → Mutates (.service old) (.service next)
  | consume (P : service_attempt.ServicePool) (F : managed_capacity.Files)
      (old next : Envelope service_attempt.Body) (key : Str) (S : service_attempt.Start) :
      service_attempt.change P old (service_attempt.consume_entry P F key S) = .ok next →
      Mutates (.service old) (.service next)
  | mark_unknown (P : service_attempt.ServicePool) (old next : Envelope service_attempt.Body)
      (key reason recorded_at : Str) :
      service_attempt.change P old (service_attempt.unknown_entry key reason recorded_at) = .ok next →
      Mutates (.service old) (.service next)
  | settle_service (P : service_attempt.ServicePool) (F : managed_capacity.Files)
      (old next : Envelope service_attempt.Body) (key : Str) (R : service_attempt.Observed) :
      service_attempt.change P old (service_attempt.settle_entry P F key R) = .ok next →
      Mutates (.service old) (.service next)

/-! ## Bytes of records -/

/-- The digest that a record names as its own. -/
def digestIn (v : Value) : Option Value := v.get? "sha256"

/-- The revision of the body of a record. -/
def revisionIn (v : Value) : Option Value := (v.get? "body").bind fun b => b.get? "revision"

theorem digestIn_normalize {v : Value} (h : v.DistinctKeys) :
    digestIn v.normalize = (digestIn v).map Value.normalize := Value.get?_normalize h _

theorem revisionIn_normalize {v : Value} (h : v.DistinctKeys) :
    revisionIn v.normalize = (revisionIn v).map Value.normalize := by
  unfold revisionIn
  rw [Value.get?_normalize h]
  cases hb : v.get? "body" with
  | none => rfl
  | some b => exact Value.get?_normalize (Value.DistinctKeys.get? h hb) _

theorem digestIn_value (c : Content) : digestIn c.value = some (.str c.sha256) := by
  cases c <;> rfl

theorem revisionIn_value (c : Content) : revisionIn c.value = some (.int c.revision) := by
  cases c <;> rfl

/-- Two records with the same bytes have the same digest and the same revision. -/
theorem same_record {a b : Content} (ha : a.value.DistinctKeys) (hb : b.value.DistinctKeys)
    {bytes : ByteArray} (h : raw a.value = .ok bytes) (h' : raw b.value = .ok bytes) :
    a.sha256 = b.sha256 ∧ a.revision = b.revision := by
  have hsame := normalize_eq_of_raw ha hb h h'
  constructor
  · have hdigest := digestIn_normalize ha
    rw [hsame, digestIn_normalize hb, digestIn_value, digestIn_value] at hdigest
    simpa using hdigest.symm
  · have hrevision := revisionIn_normalize ha
    rw [hsame, revisionIn_normalize hb, revisionIn_value, revisionIn_value] at hrevision
    simpa using hrevision.symm

/-! ## Each mutation makes the next record -/

theorem follows_common {α : Type} {O : Owner} {old next : Envelope common_capacity.Body}
    {fn : common_capacity.Body → Checked (common_capacity.Body × α)} {result : α}
    (h : common_capacity.change O old fn = .ok (next, result))
    (hkeeps : ∀ b, fn old.body = .ok (b, result) → b.revision = old.body.revision) :
    next.body.previous = some old.sha256 ∧ next.body.revision = old.body.revision + 1 := by
  obtain ⟨b, hb, hnext⟩ := common_capacity.change_body h
  rw [hnext]
  exact ⟨rfl, by simp [hkeeps b hb]⟩

theorem follows_managed {α : Type} {M : managed_capacity.ManagedOwner} {F : managed_capacity.Files}
    {old next : Envelope managed_capacity.Body}
    {fn : managed_capacity.Body → Checked (managed_capacity.Body × α)} {result : α}
    (h : managed_capacity.change M F old fn = .ok (next, result))
    (hkeeps : ∀ b, fn old.body = .ok (b, result) → b.revision = old.body.revision) :
    some next.body.previous = some old.sha256 ∧ next.body.revision = old.body.revision + 1 := by
  obtain ⟨-, -, b, hb, hnext⟩ := managed_capacity.change_eq_ok h
  rw [hnext]
  exact ⟨rfl, by simp [hkeeps b hb]⟩

theorem follows_service {P : service_attempt.ServicePool} {old next : Envelope service_attempt.Body}
    {fn : service_attempt.Body → Checked service_attempt.Body}
    (h : service_attempt.change P old fn = .ok next)
    (hkeeps : ∀ b, fn old.body = .ok b → b.revision = old.body.revision) :
    some next.body.previous = some old.sha256 ∧ next.body.revision = old.body.revision + 1 := by
  obtain ⟨-, -, b, hb, hnext⟩ := service_attempt.change_eq_ok h
  rw [hnext]
  exact ⟨rfl, by simp [hkeeps b hb]⟩

/-- The body after `bind_dispatch` has the revision of the body before it. -/
theorem bind_entry_revision {O : Owner} {ticket : Envelope Ticket}
    {reservation binding_record : Envelope Value} {b b' : common_capacity.Body} {d : Dispatch}
    (h : bind_entry O ticket reservation binding_record b = .ok (b', d)) :
    b'.revision = b.revision := by
  unfold bind_entry at h
  simp only [bind_eq_ok, exists_unit, pure_eq_ok] at h
  obtain ⟨_, -, -, _, -, _, -, _, -, _, -, _, -, -, _, -, _, -, _, -, _, -, -, _, -, -, h⟩ := h
  obtain ⟨rfl, -⟩ := Prod.mk.inj h
  rfl

theorem settle_entry_revision {O : Owner} {ticket : Envelope Ticket} {result : Result}
    {b b' : common_capacity.Body} {s : Envelope Settlement}
    (h : common_capacity.settle_entry O ticket result b = .ok (b', s)) :
    b'.revision = b.revision := by
  unfold common_capacity.settle_entry at h
  simp only [bind_eq_ok, exists_unit] at h
  obtain ⟨_, -, -, h⟩ := h
  split at h
  · cases h
  · simp only [bind_eq_ok, pure_eq_ok] at h
    obtain ⟨_, -, _, -, h⟩ := h
    obtain ⟨rfl, -⟩ := Prod.mk.inj h
    rfl

/-- The first record of an epoch names the legacy record that it embeds. -/
theorem follows_grant {M : managed_capacity.ManagedOwner} {F : managed_capacity.Files}
    {old : Envelope common_capacity.Body} {next : Envelope managed_capacity.Body}
    {grant_request_bytes : ByteArray} {recorded_at : Str}
    (hold : (Encoded.value old).DistinctKeys) (hlegacy : (Encoded.value M.legacy).DistinctKeys)
    (h : managed_capacity.apply_grant M F old grant_request_bytes recorded_at = .ok next) :
    some next.body.previous = some old.sha256 ∧ next.body.revision = old.body.revision + 1 := by
  unfold managed_capacity.apply_grant at h
  simp only [bind_eq_ok, exists_unit, needOr_eq_ok] at h
  obtain ⟨_, -, -, -, ⟨revision, used⟩, hview, bytes, hbytes, rfl, -, hpublish⟩ := h
  obtain ⟨hbody, -⟩ := managed_capacity.publish_eq_ok hpublish
  unfold managed_capacity.legacy_view at hview
  simp only [bind_eq_ok, exists_unit, need_eq_ok] at hview
  obtain ⟨_, hraw, rfl, hverify⟩ := hview
  unfold verify_capacity_snapshot at hverify
  simp only [bind_eq_ok, exists_unit, pure_eq_ok, Prod.mk.injEq] at hverify
  obtain ⟨-, -, hrevision, -⟩ := hverify
  -- the state file holds the bytes of the legacy record
  obtain ⟨hsha, hrev⟩ : M.legacy.sha256 = old.sha256 ∧ M.legacy.body.revision = old.body.revision :=
    same_record (a := .common M.legacy) (b := .common old) hlegacy hold hraw hbytes
  rw [hbody]
  exact ⟨congrArg some hsha, by rw [← hrevision, hrev]⟩

/-- The first record of a service pool names the record whose bytes it succeeds. -/
theorem follows_attach {P : service_attempt.ServicePool} {old : Content} {bytes : ByteArray}
    {next : Envelope service_attempt.Body} (hold : old.value.DistinctKeys)
    (hpredecessor : P.predecessor.value.DistinctKeys) (hbytes : raw old.value = .ok bytes)
    (h : service_attempt.attach P bytes = .ok next) :
    some next.body.previous = some old.sha256 ∧ next.body.revision = old.revision + 1 := by
  unfold service_attempt.attach at h
  simp only [bind_eq_ok, exists_unit, needOr_eq_ok] at h
  obtain ⟨rfl, hpublish⟩ := h
  obtain ⟨hbody, -⟩ := service_attempt.publish_eq_ok hpublish
  have hsame : P.predecessor.sha256 = old.sha256 ∧ P.predecessor.revision = old.revision := by
    have hwritten := P.written
    generalize P.predecessor = p at hpredecessor hwritten ⊢
    cases p with
    | common owner record =>
      exact same_record (a := .common record) hpredecessor hold hwritten hbytes
    | managed owner record =>
      exact same_record (a := .managed record) hpredecessor hold hwritten hbytes
  rw [hbody]
  exact ⟨congrArg some hsame.1, by rw [hsame.2]⟩

theorem Mutates.follows {old new : Record} (h : Mutates old.content new.content) :
    place.Follows old new := by
  obtain ⟨old, hold⟩ := old
  obtain ⟨new, _⟩ := new
  dsimp only at h
  cases h with
  | reserve O old next ledger ledger_root request_bytes present ticket h =>
    unfold common_capacity.reserve at h
    simp only [bind_eq_ok] at h
    obtain ⟨_, -, _, -, h⟩ := h
    refine follows_common h fun b hb => ?_
    obtain ⟨-, -, -, -, rfl⟩ := reserve_entry_eq_ok hb
    rfl
  | bind_dispatch O old next ticket reservation binding_record dispatch h =>
    exact follows_common h fun _ => bind_entry_revision
  | settle O old next ticket result settlement h =>
    exact follows_common h fun _ => settle_entry_revision
  | apply_grant M F old next grant_request_bytes recorded_at hlegacy h =>
    exact follows_grant hold hlegacy h
  | prepare_managed M F old next R recorded_at key h =>
    unfold managed_capacity.prepare_managed at h
    simp only [bind_eq_ok, exists_unit, pure_eq_ok] at h
    obtain ⟨-, _, -, _, -, ⟨_, _⟩, hchange, h⟩ := h
    obtain ⟨rfl, rfl⟩ := Prod.mk.inj h
    refine follows_managed hchange fun b hb => ?_
    unfold managed_capacity.hold_entry at hb
    simp only [bind_eq_ok, exists_unit, pure_eq_ok] at hb
    obtain ⟨-, _, -, _, -, -, hb⟩ := hb
    obtain ⟨rfl, -⟩ := Prod.mk.inj hb
    rfl
  | before_callback M F old next key A h =>
    refine follows_managed h fun b hb => ?_
    obtain ⟨_, _, -, -, -, -, rfl⟩ := managed_capacity.consume_entry_eq_ok hb
    rfl
  | settle_managed M F old next key callback_bytes complete_bytes recorded_at h =>
    refine follows_managed h fun b hb => ?_
    obtain ⟨_, _, _, -, -, -, -, -, -, rfl⟩ := managed_capacity.settle_entry_eq_ok hb
    rfl
  | mark_unknown_managed M F old next key reason recorded_at h =>
    refine follows_managed h fun b hb => ?_
    obtain ⟨_, _, _, -, -, -, -, rfl⟩ := managed_capacity.unknown_entry_eq_ok hb
    rfl
  | attach P old bytes next hpredecessor hbytes h =>
    exact follows_attach hold hpredecessor hbytes h
  | admit_request P F old next request_bytes preview_bytes approval_bytes recorded_at fn hfn h =>
    refine follows_service h fun b hb => ?_
    unfold service_attempt.admit_request at hfn
    simp only [bind_eq_ok, exists_unit, pure_eq_ok] at hfn
    obtain ⟨-, _, -, -, rfl⟩ := hfn
    unfold service_attempt.admit_entry at hb
    simp only [bind_eq_ok, exists_unit, pure_eq_ok] at hb
    obtain ⟨_, -, -, rfl⟩ := hb
    rfl
  | consume P F old next key S h =>
    refine follows_service h fun b hb => ?_
    obtain ⟨_, _, _, -, -, -, -, rfl⟩ := service_attempt.consume_entry_eq_ok hb
    rfl
  | mark_unknown P old next key reason recorded_at h =>
    refine follows_service h fun b hb => ?_
    obtain ⟨_, _, _, -, -, -, rfl⟩ := service_attempt.unknown_entry_eq_ok hb
    rfl
  | settle_service P F old next key R h =>
    refine follows_service h fun b hb => ?_
    obtain ⟨_, _, _, -, -, -, rfl⟩ := service_attempt.settle_entry_eq_ok hb
    rfl

end vfy.pool

namespace vfy.publication

open journal

/-! ## Consistency -/

/-- What is so at every moment of the journal, whatever its writers do. -/
structure Consistent {ρ ι : Type} [DecidableEq ι] (place : Place ρ) (Next : ρ → ρ → Prop) (created : ρ)
    (events : List (Event ι ρ)) (s : System ι ρ) : Prop where
  /-- The state file is one complete record, the last of a single chain, whose
  revision counts what was published. -/
  whole : ∃ last, s.disk.state = .whole last ∧ Chains created (published events) last ∧
    place.revision last = place.revision created + (published events).length
  /-- Each record names the one it replaced, and is one revision later. -/
  linked : ∀ p ∈ published events, place.Follows p.1 p.2
  /-- A snapshot is the record that was published last. -/
  snapshots : ∀ before after i record, events = before ++ .snapshot i record :: after →
    Chains created (published before) record
  /-- A mutation that returned has just published its record, once. -/
  returns : ∀ before after i new, events = before ++ .returned i new :: after →
    ∃ earlier old, before = earlier ++ [.published i old new]
  /-- A step leaves the old record, or puts a whole new one in its place. -/
  steps : ∀ more s', Step Next s more s' → s'.disk.state = s.disk.state ∨
    ∃ i old new, more = [.published i old new] ∧ place.Follows old new ∧
      s.disk.state = .whole old ∧ s'.disk.state = .whole new
  /-- While there is a pending file no call succeeds: all that can happen is
  that its own writer, which holds the lock, moves it over the state. -/
  pending : s.disk.pending.isSome → ∀ more s', Step Next s more s' →
    (more = [] ∧ s'.disk.state = s.disk.state ∧ s'.disk.pending.isSome) ∨
      ∃ i old new, more = [.published i old new] ∧ s.lock = some i ∧
        s.disk.pending = some (.whole new)
  /-- A pending file that was left behind stops everything, for good. -/
  quarantined : s.disk.pending.isSome → s.lock = none → ∀ more s', Run Next s more s' →
    more = [] ∧ s' = s

variable {ρ ι : Type} [DecidableEq ι] {place : Place ρ} {Next : ρ → ρ → Prop} {created : ρ}
  {events : List (Event ι ρ)} {s : System ι ρ}

/-- The revision at the end of a chain counts its links. -/
theorem revision_of_chains {pairs : List (ρ × ρ)} {first last : ρ} (h : Chains first pairs last)
    (hlinked : ∀ p ∈ pairs, place.Follows p.1 p.2) :
    place.revision last = place.revision first + pairs.length := by
  induction pairs generalizing first with
  | nil =>
    obtain rfl : last = first := h
    rfl
  | cons p pairs ih =>
    obtain ⟨old, new⟩ := p
    obtain ⟨rfl, h⟩ := h
    have hnew : place.revision new = place.revision old + 1 := (hlinked _ List.mem_cons_self).2
    rw [ih h fun q hq => hlinked q (List.mem_cons_of_mem _ hq), hnew, List.length_cons]
    omega

/-- A journal whose mutations make the next record is consistent. -/
theorem consistent_run (hnext : ∀ old new, Next old new → place.Follows old new)
    (h : Run Next (initial created) events s) : Consistent place Next created events s := by
  have hgood := good_run h
  have hlinked : ∀ p ∈ published events, place.Follows p.1 p.2 :=
    fun p hp => hnext _ _ (hgood.history.next p hp)
  refine ⟨?_, hlinked, hgood.history.snapshots, hgood.history.returns, ?_, ?_, ?_⟩
  · obtain ⟨last, hstate, hchain⟩ := hgood.last
    exact ⟨last, hstate, hchain, revision_of_chains hchain hlinked⟩
  · intro more s' hstep
    rcases state_step hgood hstep with hsame | ⟨i, old, new, hmore, hmade, hold, hnew⟩
    · exact .inl hsame
    · exact .inr ⟨i, old, new, hmore, hnext old new hmade, hold, hnew⟩
  · intro hpending more s' hstep
    exact pending_step hgood hpending hstep
  · intro hpending hlock more s' hrun
    exact quarantined hgood hpending hlock hrun

/-- Whatever the writers of a child ledger and of a pool root do, and wherever
they stop, their journal is consistent. -/
theorem publication_is_crash_consistent (ι : Type) [DecidableEq ι] :
    (∀ created events (s : System ι (child_ledger.Envelope child_ledger.Body)),
      Run child_ledger.Mutates (initial created) events s →
        Consistent child_ledger.place child_ledger.Mutates created events s) ∧
    ∀ created events (s : System ι pool.Record),
      Run (fun old new => pool.Mutates old.content new.content) (initial created) events s →
        Consistent pool.place (fun old new => pool.Mutates old.content new.content) created events s := by
  constructor
  · intro created events s h
    exact consistent_run (fun _ _ => child_ledger.Mutates.follows) h
  · intro created events s h
    exact consistent_run (fun _ _ => pool.Mutates.follows) h

/-- One writer publishes its record. Another one makes the next record of it,
creates the pending file and stops. -/
theorem two_writers {a b c : ρ} (hb : Next a b) (hc : Next b c) : ∃ s : System Bool ρ,
    Run Next (initial a) [.published false a b, .returned false b] s ∧
    s.disk.state = .whole b ∧ s.disk.pending.isSome ∧ s.lock = none := by
  have h₀ : Run Next (initial a : System Bool ρ) [] (initial a) := .start
  have h₁ := Run.step h₀ (.enter _ false rfl rfl rfl)
  have h₂ := Run.step h₁ (.read _ false a (by simp [System.at]) rfl)
  have h₃ := Run.step h₂ (.make _ false a b (by simp [System.at]) hb)
  have h₄ := Run.step h₃ (.create _ false a b (by simp [System.at]) rfl)
  have h₅ := Run.step h₄ (.write _ false a b (by simp [System.at]))
  have h₆ := Run.step h₅ (.replace _ false a b (.whole b) (by simp [System.at]) rfl)
  have h₇ := Run.step h₆ (.finish _ false a b (by simp [System.at]))
  have h₈ := Run.step h₇ (.enter _ true (by simp [System.release, System.at, initial]) rfl rfl)
  have h₉ := Run.step h₈ (.read _ true b (by simp [System.at]) rfl)
  have h₁₀ := Run.step h₉ (.make _ true b c (by simp [System.at]) hc)
  have h₁₁ := Run.step h₁₀ (.create _ true b c (by simp [System.at]) rfl)
  have h₁₂ := Run.step h₁₁ (.stop _ true rfl)
  exact ⟨_, h₁₂, rfl, rfl, rfl⟩

end vfy.publication

namespace vfy.common_capacity

open python keys outcomes child_ledger

/-! ## Two records of the small pool -/

/-- A record, of whatever body. -/
def asValue {β : Type} [Encoded β] (e : Envelope β) : Envelope Value where
  issuer_identity := e.issuer_identity
  producer_identity := e.producer_identity
  body := value e.body
  signature := e.signature
  sha256 := e.sha256

theorem envelope_asValue {β : Type} [Encoded β] {host : Host} {body : β} {key : List UInt8} {issuer : Str}
    {record : Envelope β} (h : envelope host body key issuer = .ok record) :
    envelope host (value body) key issuer = .ok (asValue record) := by
  obtain ⟨bytes, hbytes, h⟩ := bind_eq_ok.mp h
  obtain ⟨sha256, hdigest, h⟩ := bind_eq_ok.mp h
  obtain rfl := pure_eq_ok.mp h
  exact bind_eq_ok.mpr ⟨bytes, hbytes, bind_eq_ok.mpr ⟨sha256, hdigest, rfl⟩⟩

/-- What the small ledger signs is accepted by the pool. -/
theorem authenticate_child {β : Type} [Encoded β] {body : β} {record : Envelope β}
    (h : envelope smallHost body [] "i" = .ok record)
    (hauthority : getMethod (value body) "authority_granted" = .ok (some (.bool false))) :
    authenticate twoKeys record smallLedger.trust = .ok body := by
  have hsame : envelope twoKeys body [] "i" = envelope smallHost body [] "i" := rfl
  rw [← hsame] at h
  exact authenticate_envelope h rfl (eq_same (by simp [smallHost, Distinct])) (fun _ => rfl) hauthority

/-- Where no marker is there, `reserve` returns what is granted. -/
theorem reserve_of_grant {O : Owner} {old : Envelope Body} {ledger : Ledger} {ledger_root : Str}
    {request_bytes : ByteArray} {binding : Binding} {key : Str} {marker : ByteArray}
    {r : Envelope Body × Envelope Ticket}
    (hbound : bind_request O ledger ledger_root request_bytes = .ok binding)
    (hkey : digest (.dict binding.members) = .ok key) (hload : load O old = .ok ())
    (hmarker : common_capacity.marker O ledger_root = .ok marker)
    (hgrant : grant O old binding key = .ok r) :
    reserve O old ledger ledger_root request_bytes none = .ok r := by
  have hroot := bind_request_root hbound
  unfold reserve
  rw [hbound, ok_bind, hkey, ok_bind, change_eq_sign, hload, ok_bind, reserve_entry_eq, hroot, hmarker, ok_bind]
  exact hgrant

/-- What the ledger signs before the child is dispatched in the pool. -/
def bindingFields (reservation_sha256 ticket_sha256 : Str) : Value := .dict
  [("schema", .str "vfy.measured-dispatch-binding/1"), ("request_sha256", .str (sha (bytesOf smallRequest))),
   ("request_identity", .str (sha (bytesOf (.dict smallUnsigned)))),
   ("reservation_sha256", .str reservation_sha256), ("observer", .null), ("input_sha256", .str zeros),
   ("authority_granted", .bool false), ("automatic_retry", .bool false),
   ("common_reservation_sha256", .str ticket_sha256)]

theorem small_bindingFields (b b' : ByteArray) : Small (value (bindingFields (sha b) (sha b'))) (2 ^ 12) 1 := by
  refine ⟨?_, ?_, ?_⟩
  · simp [value, bindingFields, zeros, encodable_sha, Distinct]
  · simp [value, bindingFields, zeros, canon.textRoom, canon.textRoomMembers]
    decide
  · simp [value, bindingFields, Value.depth, Value.depthMembers]

section Bound

variable {slots : Nat} {ticket : Envelope Ticket} {record : Envelope Body}
  {e : Envelope (Event ReservationFields)}

/-- The entry of a held child is found by its ticket. -/
theorem entry_of_held {key : ByteArray} {previous : Str} (hticket : Ticketed (slots + 1) key ticket) :
    entry_of (smallPool (slots + 1)) (heldBody (slots + 1) 1 previous (heldEntry (slots + 1) key ticket none))
      ticket = .ok (heldEntry (slots + 1) key ticket none, 0) := by
  have hfound : (heldBody (slots + 1) 1 previous (heldEntry (slots + 1) key ticket none)).entries.zipIdx.filter
      (fun p => p.1.key = (ticketOf (smallBinding (slots + 1)) (sha key)).reservation_id) =
        [(heldEntry (slots + 1) key ticket none, 0)] := by
    simp [heldBody, heldEntry, ticketOf]
  have hsame : python.eq (value ticket) (value ticket) = true :=
    eq_same (small_owned (small_ticket key) hticket).canonical.distinctKeys
  refine bind_eq_ok.mpr ⟨_, authenticate_owned hticket (ticketOf_authority _), ?_⟩
  rw [hfound]
  exact seq_eq_ok.mpr ⟨need_eq_ok.mpr hsame, rfl⟩

/-- The reservation of the child in its ledger is bound to the ticket. -/
theorem bind_held (h : Held slots ticket record) (he : Recorded .reservation reservationFields e) :
    ∃ binding_record next dispatch, bind_dispatch (smallPool (slots + 1)) record ticket (asValue e)
      binding_record = .ok (next, dispatch) ∧ (value next).Canonical := by
  obtain ⟨key, previous, hticket, hissued⟩ := h.issued
  have hbody := envelope_eq_ok hissued.signed
  obtain ⟨_, b, hrecord⟩ := envelope_shape hissued.signed
  have hsha : record.sha256 = sha b := by rw [hrecord]
  obtain ⟨_, d, hshape⟩ := envelope_shape he
  have hreserved : e.sha256 = sha d := by rw [hshape]
  obtain ⟨_, d', hshape'⟩ := envelope_shape hticket
  have hticketed : ticket.sha256 = sha d' := by rw [hshape']
  have hfields := small_bindingFields d d'
  rw [← hreserved, ← hticketed] at hfields
  obtain ⟨binding_record, hbinding, -⟩ := signed_small hfields.canonical
  have hreservation : authenticate twoKeys (asValue e) smallLedger.trust =
      .ok (value (smallEvent .reservation reservationFields)) :=
    authenticate_child (envelope_asValue he) rfl
  have hauthenticate : authenticate twoKeys binding_record smallLedger.trust =
      .ok (bindingFields e.sha256 ticket.sha256) := authenticate_child hbinding rfl
  have hselects : selects (smallPool (slots + 1)) (heldEntry (slots + 1) key ticket none) := by
    show python.eq (trustValue smallLedger.trust) (trustValue smallLedger.trust) = true
    decide +kernel
  have hnull : python.eq .null .null = true := eq_same .null
  have hself : ∀ s, isStr (.str s) s = true := by simp
  have hbind : bind_entry (smallPool (slots + 1)) ticket (asValue e) binding_record record.body =
      .ok (record.body.setEntry 0 (heldEntry (slots + 1) key ticket (some ⟨asValue e, binding_record⟩)),
        ⟨asValue e, binding_record⟩) := by
    rw [hbody]
    refine bind_eq_ok.mpr ⟨_, entry_of_held hticket, seq_eq_ok.mpr ⟨need_eq_ok.mpr ⟨rfl, hselects⟩, ?_⟩⟩
    refine bind_eq_ok.mpr ⟨_, hreservation, bind_eq_ok.mpr ⟨_, hauthenticate, ?_⟩⟩
    refine bind_eq_ok.mpr ⟨.str (sha (bytesOf smallStart)), item_of_get rfl, ?_⟩
    refine bind_eq_ok.mpr ⟨.str "c", item_of_get rfl, ?_⟩
    refine bind_eq_ok.mpr ⟨.str (sha (bytesOf smallBudget)), item_of_get rfl, ?_⟩
    refine seq_eq_ok.mpr ⟨need_eq_ok.mpr ⟨hself _, hself _, hself _⟩, ?_⟩
    refine bind_eq_ok.mpr ⟨.str e.sha256, item_of_get rfl, ?_⟩
    refine bind_eq_ok.mpr ⟨.str (sha (bytesOf smallRequest)), item_of_get rfl, ?_⟩
    refine bind_eq_ok.mpr ⟨.str (sha (bytesOf (.dict smallUnsigned))), item_of_get rfl, ?_⟩
    refine bind_eq_ok.mpr ⟨.null, item_of_get rfl, ?_⟩
    refine seq_eq_ok.mpr ⟨need_eq_ok.mpr ⟨hself _, hself _, hself _, hnull⟩, ?_⟩
    refine bind_eq_ok.mpr ⟨.str ticket.sha256, item_of_get rfl, ?_⟩
    exact seq_eq_ok.mpr ⟨need_eq_ok.mpr (hself _), rfl⟩
  have hdispatch : Small (Dispatch.value ⟨asValue e, binding_record⟩) (2 ^ 16) 5 := by
    have hevent : Small (value e) (2 ^ 15) 4 := small_event_record (small_reserved (by simp)) he
    have hsmall : Small (value binding_record) (2 ^ 14) 4 :=
      (small_record hfields hbinding).mono (by decide) (by decide)
    have hall := (hevent.member "reservation" (by decide)).append (hsmall.member "binding" (by decide))
      (by simp)
    exact hall.mono (by decide) le_rfl
  have hentry : Small (heldEntry (slots + 1) key ticket (some ⟨asValue e, binding_record⟩)).value
      (2 ^ 18) 6 :=
    (@small_entry _ _ _ hticket (some ⟨asValue e, binding_record⟩) _ hdispatch).mono (by decide) le_rfl
  obtain ⟨next, hnext⟩ := @issued_heldBody (slots + 1) _ 2 b (by decide) hentry
  obtain ⟨data, hdata, hsize⟩ := hnext.fits
  refine ⟨binding_record, next, ⟨asValue e, binding_record⟩, ?_, hnext.canonical⟩
  unfold bind_dispatch
  simp only [change, bind_eq_ok, exists_unit, need_eq_ok, pure_eq_ok]
  refine ⟨h.loaded, _, hbind, next, ?_, data, hdata, hsize, rfl⟩
  rw [hbody, hsha]
  exact hnext.signed

end Bound

end vfy.common_capacity

namespace vfy.publication

open journal

/-- The reservation of the child of the small ledger, and then its dispatch. -/
theorem small_ledger_mutates : ∃ created r₁ r₂, child_ledger.create child_ledger.smallLedger = .ok created ∧
    child_ledger.Mutates created r₁ ∧ child_ledger.Mutates r₁ r₂ := by
  obtain ⟨created, hcreated⟩ := child_ledger.create_smallLedger
  obtain ⟨e, r₁, he, hreserve, h₁⟩ := child_ledger.reserve_course (child_ledger.stage_created hcreated)
  obtain ⟨d, r₂, hd, hdispatch, h₂⟩ := child_ledger.dispatch_course he h₁
  exact ⟨created, r₁, r₂, hcreated, ⟨_, _, hreserve⟩, ⟨_, _, hdispatch⟩⟩

/-- The reservation of the child in the small pool, and then its dispatch. -/
theorem small_pool_mutates : ∃ created held bound : pool.Record,
    (∃ record, common_capacity.create (common_capacity.smallPool 1) = .ok record ∧
      created.content = .common record) ∧
    pool.Mutates created.content held.content ∧ pool.Mutates held.content bound.content := by
  obtain ⟨created, hcreated⟩ := @common_capacity.create_smallPool 1
  obtain ⟨key, hkey⟩ := @common_capacity.key_smallBinding 1
  obtain ⟨marker, hmarker⟩ := @common_capacity.marker_smallPool 1
  obtain ⟨held, ticket, hgrant, hheld⟩ := @common_capacity.grant_small 0 created hcreated key hkey
  have hreserve := common_capacity.reserve_of_grant common_capacity.bind_smallRequest hkey
    (common_capacity.load_smallPool hcreated) hmarker hgrant
  obtain ⟨ledger, hledger⟩ := child_ledger.create_smallLedger
  obtain ⟨e, _, he, -, -⟩ := child_ledger.reserve_course (child_ledger.stage_created hledger)
  obtain ⟨binding_record, bound, dispatch, hbind, hbound⟩ := common_capacity.bind_held hheld he
  obtain ⟨_, _, -, hissued⟩ := hheld.issued
  have hdistinct : (child_ledger.Encoded.value created).DistinctKeys := by
    obtain ⟨b, rfl⟩ := common_capacity.create_shape hcreated
    exact (common_capacity.canonical_emptyRecord b).distinctKeys
  exact ⟨⟨.common created, hdistinct⟩, ⟨.common held, hissued.canonical.distinctKeys⟩,
    ⟨.common bound, hbound.distinctKeys⟩, ⟨created, hcreated, rfl⟩,
    .reserve _ _ _ _ _ _ _ _ hreserve, .bind_dispatch _ _ _ _ _ _ _ hbind⟩

/-- Two writers of the small ledger, and two of the small pool: one publishes the
reservation, and the other one stops with the dispatch in the pending file. -/
theorem publication_is_crash_consistent_two_writers :
    (∃ created r₁, ∃ s : System Bool (child_ledger.Envelope child_ledger.Body),
      child_ledger.create child_ledger.smallLedger = .ok created ∧
      s.disk.state = .whole r₁ ∧ s.disk.pending.isSome ∧ s.lock = none ∧
      Consistent child_ledger.place child_ledger.Mutates created
        [.published false created r₁, .returned false r₁] s) ∧
    ∃ created held : pool.Record, ∃ s : System Bool pool.Record,
      (∃ record, common_capacity.create (common_capacity.smallPool 1) = .ok record ∧
        created.content = .common record) ∧
      s.disk.state = .whole held ∧ s.disk.pending.isSome ∧ s.lock = none ∧
      Consistent pool.place (fun old new => pool.Mutates old.content new.content) created
        [.published false created held, .returned false held] s := by
  obtain ⟨hledger, hpool⟩ := publication_is_crash_consistent Bool
  constructor
  · obtain ⟨created, r₁, r₂, hcreated, h₁, h₂⟩ := small_ledger_mutates
    obtain ⟨s, hrun, hstate, hpending, hlock⟩ := two_writers h₁ h₂
    exact ⟨created, r₁, s, hcreated, hstate, hpending, hlock, hledger created _ s hrun⟩
  · obtain ⟨created, held, bound, hcreated, h₁, h₂⟩ := small_pool_mutates
    obtain ⟨s, hrun, hstate, hpending, hlock⟩ := @two_writers pool.Record
      (fun old new => pool.Mutates old.content new.content) created held bound h₁ h₂
    exact ⟨created, held, s, hcreated, hstate, hpending, hlock, hpool created _ s hrun⟩

end vfy.publication
