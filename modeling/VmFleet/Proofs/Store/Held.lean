import VmFleet.Proofs.Store.Agreement

/-!
# What a repository holds

Seen from outside, a repository is a list of records with distinct ids, wherever it keeps them. It
answers as memory with that list would, unless the call was due to fail; then nothing has changed.
-/

set_option autoImplicit false

namespace VmFleet.Store

variable {α : Type} [Tabled α]

def Repository.Holds (r : Repository α) (items : List α) : Prop :=
  match r with
  | .memory stored => stored = items ∧ (items.map Keyed.id).Nodup
  | .table sheet => Table.Represents sheet items

namespace Repository

theorem seeded_holds (b : Backend) : ((seeded b []).2 : Repository α).Holds [] := by
  cases b with
  | memory => exact ⟨rfl,List.nodup_nil⟩
  | table => exact Table.represents_empty

theorem holds_nodup (r : Repository α) (items : List α) (h : r.Holds items) :
    (items.map Keyed.id).Nodup := by
  cases r with
  | memory stored => exact h.2
  | table sheet => exact h.ids

variable [Faithful α]

theorem run_holds (r : Repository α) (items : List α) (h : r.Holds items) (c : Call α)
    (hc : Table.Alike c) :
    (r.run c).1 = (Memory.run items c).1 ∧ (r.run c).2.Holds (Memory.run items c).2 := by
  cases r with
  | memory stored =>
    obtain ⟨rfl, hids⟩ := h
    exact ⟨rfl,rfl,Memory.run_nodup stored c hids⟩
  | table sheet => exact Table.run_represented sheet items h c hc

theorem holds_records (r : Repository α) (items : List α) (h : r.Holds items) :
    r.records = .ok items := (run_holds r items h .getAll trivial).1

end Repository

theorem Metered.run_holds [Faithful α] (m : Metered α) (items : List α)
    (h : m.repository.Holds items) (c : Call α) (hc : Table.Alike c) :
    (∃ reason, (m.run c).1 = .error (.backend reason)) ∧ (m.run c).2.repository.Holds items ∨
      (m.run c).1 = (Memory.run items c).1 ∧
        (m.run c).2.repository.Holds (Memory.run items c).2 := by
  obtain ⟨repository, reads, writes, faults⟩ := m
  unfold Metered.run
  cases faults with
  | cons reason rest =>
    left
    cases c.isRead <;> exact ⟨⟨reason,rfl⟩,h⟩
  | nil =>
    right
    cases c.isRead <;> exact repository.run_holds items h c hc

/-- A call that is due to fail is counted and changes nothing. -/
theorem Metered.run_faulted (m : Metered α) (reason : String) (rest : List String)
    (hfaults : m.faults = reason :: rest) (c : Call α) :
    m.run c = (.error (.backend reason), ⟨m.repository, m.reads + if c.isRead then 1 else 0,
      m.writes + if c.isRead then 0 else 1, rest⟩) := by
  obtain ⟨repository, reads, writes, faults⟩ := m
  cases hfaults
  unfold Metered.run
  cases c.isRead <;> rfl

/-- A call that is not due to fail is counted and answered as memory answers it. -/
theorem Metered.run_faultless [Faithful α] (m : Metered α) (items : List α)
    (h : m.repository.Holds items) (hfaults : m.faults = []) (c : Call α) (hc : Table.Alike c) :
    ∃ repository, repository.Holds (Memory.run items c).2 ∧
      m.run c = ((Memory.run items c).1, ⟨repository, m.reads + if c.isRead then 1 else 0,
        m.writes + if c.isRead then 0 else 1, []⟩) := by
  obtain ⟨repository, reads, writes, faults⟩ := m
  cases hfaults
  obtain ⟨hanswer, hholds⟩ := repository.run_holds items h c hc
  refine ⟨_, hholds, ?_⟩
  unfold Metered.run
  cases c.isRead <;> exact Prod.ext hanswer rfl

end VmFleet.Store
