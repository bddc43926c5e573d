import VmFleet.Store.Memory
import VmFleet.Store.Table

/-!
# Repositories

A repository keeps its records in memory or in a table. Around it, calls are counted, and calls to
come can be made to fail.
-/

set_option autoImplicit false

namespace VmFleet.Store

inductive Repository (α : Type) where
  | memory (items : List α)
  | table (sheet : Table.Sheet)

inductive Backend where
  | memory
  | table
  deriving DecidableEq, Repr

def Repository.run {α : Type} [Tabled α] : Repository α → (c : Call α) → c.Answer × Repository α
  | .memory items, c => let r := Memory.run items c; (r.1, .memory r.2)
  | .table sheet, c => let r := Table.run sheet c; (r.1, .table r.2)

def Repository.records {α : Type} [Tabled α] (r : Repository α) : Except StoreError (List α) :=
  (r.run .getAll).1

/-- A repository that holds the records. In memory they stand as they are; a table takes them one
after the other, and the errors are those of the records it refuses. -/
def Repository.seeded {α : Type} [Tabled α] (b : Backend) (items : List α) :
    List StoreError × Repository α :=
  match b with
  | .memory => ([], .memory items)
  | .table =>
    let r := items.foldl (fun (r : List StoreError × Table.Sheet) item =>
      match Table.put r.2 item with
      | (.error e, sheet) => (r.1 ++ [e], sheet)
      | (.ok _, sheet) => (r.1, sheet)) ([], .empty)
    (r.1, .table r.2)

/-- Inserts a row from outside; only tables have any. -/
def Repository.insertRow {α : Type} [Tabled α] (r : Repository α)
    (values : List (String × Table.Stored)) : Option (Repository α) :=
  match r with
  | .memory _ => none
  | .table sheet => (Table.insertRow α sheet values).map .table

/-- A repository with the number of its reads and writes and the reasons for which the next calls
fail. -/
structure Metered (α : Type) where
  repository : Repository α
  reads : Nat
  writes : Nat
  faults : List String

def Metered.run {α : Type} [Tabled α] (m : Metered α) (c : Call α) : c.Answer × Metered α :=
  let m := if c.isRead then { m with reads := m.reads + 1 } else { m with writes := m.writes + 1 }
  match m.faults with
  | reason :: faults => (.error (.backend reason), { m with faults })
  | [] =>
    let r := m.repository.run c
    (r.1, { m with repository := r.2 })

end VmFleet.Store
