import VmFleet.Proofs.Store.Distinct
import VmFleet.Store.Repository

/-!
# Memory and table agree

A table that the program wrote itself stands for the list of records that memory would hold, row by
row and in the same order. Each call keeps the two in step and is answered alike. The one exception
is a batch of records whose key is not their id: memory checks it as a whole and the table one
record after the other.
-/

set_option autoImplicit false

namespace VmFleet.Store

/-- Records that read back as they were written, with id and key in their cells. -/
class Faithful (α : Type) [Tabled α] : Prop where
  ofRow_toRow (a : α) : Tabled.ofRow (toRow a) = .ok a
  idCell_toRow (a : α) : Table.idCell (toRow a) = some (.text (Keyed.id a))
  keyCell_toRow (a : α) : Table.keyCell α (toRow a) = some (.text (Keyed.key a))

instance : Faithful Account := ⟨accountOfRow_toRow,fun _ => rfl,fun _ => rfl⟩

instance : Faithful Machine := ⟨machineOfRow_toRow,fun _ => rfl,fun _ => rfl⟩

namespace Table

variable {α : Type} [Tabled α] [Faithful α]

theorem hasId_toRow (id : String) (a : α) : hasId id (toRow a) = decide (Keyed.id a = id) := by
  simp only [hasId, Faithful.idCell_toRow, Option.some.injEq, Cell.text.injEq]

theorem hasKey_toRow (key : String) (a : α) :
    hasKey α key (toRow a) = decide (Keyed.key a = key) := by
  simp only [hasKey, Faithful.keyCell_toRow, Option.some.injEq, Cell.text.injEq]

theorem read_toRow (a : α) : read (toRow a) = .ok a := by
  simp only [read, Faithful.ofRow_toRow, Except.mapError]

/-- The table holds these records, one row each, as the program itself writes them. -/
structure Represents (s : Sheet) (items : List α) : Prop where
  counted : s.isCounted = true
  keyed : s.keyUnique = true
  rows : s.rows = items.map toRow
  ids : (items.map Keyed.id).Nodup

omit [Faithful α] in
theorem represents_empty : Represents Sheet.empty ([] : List α) := ⟨rfl,rfl,rfl,List.nodup_nil⟩

/-! ## Reading -/

theorem getAll_represented (s : Sheet) (items : List α) (h : Represents s items) :
    getAll s = .ok items := by
  simp only [getAll, h.rows]
  clear h
  induction items with
  | nil => rfl
  | cons a items ih =>
    rw [List.map_cons, List.mapM_cons, read_toRow, ih]
    rfl

theorem get_represented (s : Sheet) (items : List α) (h : Represents s items) (id : String) :
    get s id = Memory.get items id := by
  simp only [get, Memory.get, h.rows, List.find?_map, Function.comp_def, hasId_toRow]
  cases items.find? fun e => decide (Keyed.id e = id) with
  | none => rfl
  | some a => exact read_toRow a

/-! ## Writing one record -/

theorem rows_overwrite (s : Sheet) (items : List α) (h : Represents s items) (item : α) :
    (s.entries.map (overwrite item)).map Entry.row =
      (items.map fun e => if Keyed.id e = Keyed.id item then item else e).map toRow := by
  have hrow : ∀ e : Entry, (overwrite item e).row =
      if hasId (Keyed.id item) e.row then toRow item else e.row := by
    intro e
    unfold overwrite
    split <;> rfl
  have hrows : s.entries.map Entry.row = items.map toRow := h.rows
  rw [List.map_map, show Entry.row ∘ overwrite item =
    (fun r => if hasId (Keyed.id item) r then toRow item else r) ∘ Entry.row from funext hrow,
    ← List.map_map, hrows, List.map_map, List.map_map]
  apply List.map_congr_left
  intro a ha
  by_cases hid : Keyed.id a = Keyed.id item <;> simp [hasId_toRow, hid]

theorem write_conflict (s : Sheet) (items : List α) (h : Represents s items) (item : α)
    (hc : Memory.conflicts items item = true) : write s item = none := by
  obtain ⟨e, he, hne⟩ := List.any_eq_true.mp hc
  obtain ⟨hid, hkey⟩ := of_decide_eq_true hne
  have hany : (s.rows.any fun r => !hasId (Keyed.id item) r && hasKey α (Keyed.key item) r) =
      true := by
    rw [h.rows, List.any_map]
    exact List.any_eq_true.mpr ⟨e,he,by simp [hasId_toRow, hasKey_toRow, hid, hkey]⟩
  rw [write, h.keyed, hany]
  rfl

theorem write_place (s : Sheet) (items : List α) (h : Represents s items) (item : α)
    (hc : Memory.conflicts items item = false) :
    ∃ t, write s item = some t ∧ Represents t (Memory.place item items) := by
  have hids := Memory.place_nodup item items h.ids
  have hfree : (s.rows.any fun r => !hasId (Keyed.id item) r && hasKey α (Keyed.key item) r) =
      false := by
    rw [h.rows, List.any_map, List.any_eq_false]
    intro e he
    have := (Memory.conflicts_eq_false_iff items item).mp hc e he
    simp only [Function.comp_apply, hasId_toRow, hasKey_toRow]
    grind
  have hany : s.rows.any (hasId (Keyed.id item)) = items.any fun e => Keyed.id e = Keyed.id item := by
    simp only [h.rows, List.any_map, Function.comp_def, hasId_toRow]
  rw [write, hfree, Bool.and_false, if_neg Bool.false_ne_true, hany]
  by_cases hid : items.any fun e => Keyed.id e = Keyed.id item
  · rw [if_pos hid]
    refine ⟨_, rfl, h.counted, h.keyed, ?_, hids⟩
    rw [Memory.place_eq_map item items h.ids (by simpa using hid)]
    exact rows_overwrite s items h item
  · rw [if_neg hid]
    refine ⟨_, rfl, h.counted, h.keyed, ?_, hids⟩
    rw [Sheet.rows_append s _ h.counted, h.rows,
      Memory.place_of_forall_ne item items (by simpa using hid), List.map_append]
    rfl

theorem put_represented (s : Sheet) (items : List α) (h : Represents s items) (item : α) :
    (put s item).1 = (Memory.put items item).1 ∧
      Represents (put s item).2 (Memory.put items item).2 := by
  rcases Memory.put_cases items item with ⟨hc, hp⟩ | ⟨hc, hp⟩
  · rw [hp, put, write_conflict s items h item hc]
    exact ⟨rfl,h⟩
  · obtain ⟨t, ht, hr⟩ := write_place s items h item hc
    rw [hp, put, ht]
    exact ⟨rfl,hr⟩

theorem add_represented (s : Sheet) (items : List α) (h : Represents s items) (item : α)
    (ensureUnique : Bool) :
    (add s item ensureUnique).1 = (Memory.add items item ensureUnique).1 ∧
      Represents (add s item ensureUnique).2 (Memory.add items item ensureUnique).2 := by
  have hfind : (s.rows.find? fun r => hasId (Keyed.id item) r || hasKey α (Keyed.key item) r) =
      (Memory.existing? items item).map toRow := by
    simp only [h.rows, List.find?_map, Function.comp_def, hasId_toRow, hasKey_toRow,
      Memory.existing?, Bool.decide_or]
  rw [add, hfind, Memory.add]
  cases he : Memory.existing? items item with
  | some e =>
    rw [Option.map_some]
    dsimp only
    rw [read_toRow]
    cases ensureUnique with
    | true => exact ⟨rfl,h⟩
    | false => exact ⟨rfl,h⟩
  | none =>
    rw [Option.map_none]
    have hc := Memory.conflicts_of_existing_eq_none items item he
    obtain ⟨t, ht, hr⟩ := write_place s items h item hc
    dsimp only
    rw [put, ht, Memory.append_eq_place items item he]
    exact ⟨rfl,hr⟩

theorem delete_represented (s : Sheet) (items : List α) (h : Represents s items) (id : String) :
    (delete α s id).1 = (Memory.delete items id).1 ∧
      Represents (delete α s id).2 (Memory.delete items id).2 := by
  have hany : s.rows.any (hasId id) = items.any fun e => Keyed.id e = id := by
    simp only [h.rows, List.any_map, Function.comp_def, hasId_toRow]
  have hids := Memory.run_nodup items (.delete id) h.ids
  simp only [Memory.run, Memory.delete_records] at hids
  by_cases hid : items.any fun e => Keyed.id e = id
  · have hlen : (items.filter fun e => Keyed.id e ≠ id).length ≠ items.length := by
      intro hl
      obtain ⟨e, he, hei⟩ := List.any_eq_true.mp hid
      have := List.length_filter_eq_length_iff.mp hl e he
      exact of_decide_eq_true this (of_decide_eq_true hei)
    rw [delete, hany, if_pos hid, Memory.delete, if_neg hlen]
    refine ⟨rfl, h.counted, h.keyed, ?_, hids⟩
    have hrows : s.entries.map Entry.row = items.map toRow := h.rows
    change (s.entries.filter ((fun r => !hasId id r) ∘ Entry.row)).map Entry.row = _
    rw [← List.filter_map, hrows, List.filter_map]
    congr 1
    apply List.filter_congr
    intro a ha
    simp [hasId_toRow]
  · have hlen : (items.filter fun e => Keyed.id e ≠ id).length = items.length := by
      rw [List.length_filter_eq_length_iff]
      intro e he
      exact decide_eq_true fun hei => hid (List.any_eq_true.mpr ⟨e,he,decide_eq_true hei⟩)
    rw [delete, hany, if_neg hid, Memory.delete, if_pos hlen]
    exact ⟨rfl,h⟩

/-! ## Writing a batch -/

theorem writeAll_placeAll (hkey : ∀ a : α, Keyed.key a = Keyed.id a) (new : List α) (s : Sheet)
    (items : List α) (h : Represents s items) :
    ∃ t, writeAll new s = .ok t ∧ Represents t (Memory.placeAll new items) := by
  induction new generalizing s items with
  | nil => exact ⟨s,rfl,h⟩
  | cons item rest ih =>
    obtain ⟨t, ht, hr⟩ := write_place s items h item (Memory.conflicts_of_key_eq_id hkey items item)
    obtain ⟨u, hu, hru⟩ := ih t _ hr
    refine ⟨u, ?_, hru⟩
    rw [writeAll, ht]
    exact hu

theorem putAll_represented (hkey : ∀ a : α, Keyed.key a = Keyed.id a) (s : Sheet) (items : List α)
    (h : Represents s items) (new : List α) :
    (putAll s new).1 = (Memory.putAll items new).1 ∧
      Represents (putAll s new).2 (Memory.putAll items new).2 := by
  obtain ⟨t, ht, hr⟩ := writeAll_placeAll hkey new s items h
  rcases Memory.putAll_cases items new with ⟨item, -, hc, -⟩ | ⟨-, hp⟩
  · rw [Memory.conflicts_of_key_eq_id hkey] at hc
    cases hc
  · rw [hp, putAll, ht]
    exact ⟨rfl,hr⟩

/-! ## Any call -/

/-- Calls that memory and table answer alike: all of them where the id is the key, and otherwise
all but batches. -/
def Alike : Call α → Prop
  | .putAll _ => ∀ a : α, Keyed.key a = Keyed.id a
  | _ => True

omit [Faithful α] in
theorem alike_of_key_eq_id (hkey : ∀ a : α, Keyed.key a = Keyed.id a) (c : Call α) : Alike c := by
  cases c with
  | putAll new => exact hkey
  | _ => trivial

omit [Faithful α] in
theorem alike_of_ne_putAll (c : Call α) (h : ∀ new, c ≠ .putAll new) : Alike c := by
  cases c with
  | putAll new => exact absurd rfl (h new)
  | _ => trivial

theorem run_represented (s : Sheet) (items : List α) (h : Represents s items) (c : Call α)
    (hc : Alike c) :
    (run s c).1 = (Memory.run items c).1 ∧ Represents (run s c).2 (Memory.run items c).2 := by
  cases c with
  | getAll => exact ⟨getAll_represented s items h,h⟩
  | get id => exact ⟨get_represented s items h id,h⟩
  | add item ensureUnique => exact add_represented s items h item ensureUnique
  | put item => exact put_represented s items h item
  | putAll new => exact putAll_represented hc s items h new
  | delete id => exact delete_represented s items h id

end Table

end VmFleet.Store
