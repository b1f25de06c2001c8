-- What a change of the shared pool does to its body: it takes one entry, or
-- moves one entry on.
import VerifyRun.Lib.Entries
import VerifyRun.CommonCapacity
import VerifyRun.ChildRecords

namespace vfy.common_capacity

open python keys outcomes child_ledger entries

theorem item_eq_ok {v w : Value} {k : Str} : item v k = .ok w ↔ v.get? k = some w := by
  rw [item, lift_eq_ok, getItem_eq_ok]

theorem item_of_get {v w : Value} {k : Str} (h : v.get? k = some w) : item v k = .ok w := item_eq_ok.mpr h

theorem change_eq_ok {α : Type} {O : Owner} {old next : Envelope Body}
    {fn : Body → Checked (Body × α)} {a : α} (h : change O old fn = .ok (next, a)) :
    load O old = .ok () ∧ ∃ b data, fn old.body = .ok (b, a) ∧
      envelope O.host { b with revision := b.revision + 1, previous := some old.sha256 } O.key
        O.issuer = .ok next ∧ raw (value next) = .ok data ∧ data.size ≤ MAX_BYTES := by
  unfold change at h
  simp only [bind_eq_ok, exists_unit, need_eq_ok, pure_eq_ok] at h
  obtain ⟨hload, ⟨b, _⟩, hfn, _, hnext, data, hdata, hsize, h⟩ := h
  obtain ⟨rfl, rfl⟩ := Prod.mk.inj h
  exact ⟨hload, b, data, hfn, hnext, hdata, hsize⟩

/-- A published record has the body after the change, one revision later. -/
theorem change_body {α : Type} {O : Owner} {old next : Envelope Body}
    {fn : Body → Checked (Body × α)} {a : α} (h : change O old fn = .ok (next, a)) :
    ∃ b, fn old.body = .ok (b, a) ∧
      next.body = { b with revision := b.revision + 1, previous := some old.sha256 } := by
  obtain ⟨-, b, _, hfn, hnext, -, -⟩ := change_eq_ok h
  exact ⟨b, hfn, envelope_eq_ok hnext⟩

/-- What `reserve` adds: a hold of a child that no entry has, in what is left. -/
theorem reserve_entry_eq_ok {O : Owner} {binding : Binding} {key : Str} {present : Option ByteArray}
    {b b' : Body} {ticket : Envelope Ticket}
    (h : reserve_entry O binding key present b = .ok (b', ticket)) :
    (∀ e ∈ b.entries, ¬ sameChild e binding) ∧
      (usage b).dispatch_slots + 1 ≤ O.config.dispatch_slots ∧
      (usage b).retained_output_bytes + OUTPUT_HOLD ≤ O.config.retained_output_bytes ∧
      envelope O.host (ticketOf binding key) O.key O.issuer = .ok ticket ∧
      b' = { b with entries := b.entries ++ [{ key, binding, ticket, dispatch := none,
                                               settlement := none,
                                               retained_bytes := OUTPUT_HOLD }] } := by
  unfold reserve_entry at h
  simp only [bind_eq_ok, exists_unit, needOr_eq_ok, pure_eq_ok] at h
  obtain ⟨_, -, -, hfresh, ⟨hslots, hbytes⟩, ticket', hticket, h⟩ := h
  obtain ⟨rfl, rfl⟩ := Prod.mk.inj h
  exact ⟨hfresh, hslots, hbytes, hticket, rfl⟩

end vfy.common_capacity
