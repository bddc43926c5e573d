import VmFleet.Store.Call

/-!
# Records as table rows

A row has one cell for each column of its table. Every column of a record holds text or bytes; only
text can be read back. The first column is the id, and one column holds the unique key.
-/

set_option autoImplicit false

namespace VmFleet.Store

inductive Cell where
  | text (s : String)
  | blob (s : String)
  deriving DecidableEq, Repr

def Cell.typeName : Cell → String
  | .text _ => "Text"
  | .blob _ => "Blob"

abbrev Row : Type := List Cell

/-- A cell that does not hold what its column is read as. -/
structure BadCell where
  index : Nat
  column : String
  found : String
  deriving DecidableEq, Repr

def BadCell.message (b : BadCell) : String :=
  s!"Invalid column type {b.found} at index: {b.index}, name: {b.column}"

class Tabled (α : Type) extends Keyed α where
  table : String
  columns : List String
  keyColumn : Nat
  values : α → List String
  ofRow : Row → Except BadCell α

def columnName (columns : List String) (i : Nat) : String := columns.getD i ""

def textAt (columns : List String) (row : Row) (i : Nat) : Except BadCell String :=
  match row[i]? with
  | some (.text s) => .ok s
  | some c => .error ⟨i, columnName columns i, c.typeName⟩
  | none => .error ⟨i, columnName columns i, "Null"⟩

def meaningAt {β : Type} (columns : List String) (i : Nat) (read : String → Option β) (s : String) :
    Except BadCell β :=
  match read s with
  | some b => .ok b
  | none => .error ⟨i, columnName columns i, "Text"⟩

def accountColumns : List String :=
  ["id", "username", "first_name", "last_name", "hashed_password", "salt", "role"]

def accountOfRow (row : Row) : Except BadCell Account := do
  let role ← textAt accountColumns row 6
  let id ← textAt accountColumns row 0
  let username ← textAt accountColumns row 1
  let firstName ← textAt accountColumns row 2
  let lastName ← textAt accountColumns row 3
  let hashedPassword ← textAt accountColumns row 4
  let salt ← textAt accountColumns row 5
  let role ← meaningAt accountColumns 6 Security.Role.ofId? role
  .ok ⟨id, username, firstName, lastName, hashedPassword, salt, role⟩

instance : Tabled Account where
  table := "user_account"
  columns := accountColumns
  keyColumn := 1
  values a := [a.id, a.username, a.firstName, a.lastName, a.hashedPassword, a.salt, a.role.id]
  ofRow := accountOfRow

def machineColumns : List String := ["id", "provider", "status", "owner_id"]

def machineOfRow (row : Row) : Except BadCell Machine := do
  let provider ← textAt machineColumns row 1
  let status ← textAt machineColumns row 2
  let id ← textAt machineColumns row 0
  let provider ← meaningAt machineColumns 1 Provider.ofText? provider
  let status ← meaningAt machineColumns 2 Status.ofText? status
  let ownerId ← textAt machineColumns row 3
  .ok ⟨id, provider, status, ownerId⟩

instance : Tabled Machine where
  table := "virtual_machine"
  columns := machineColumns
  keyColumn := 0
  values m := [m.id, m.provider.name, m.status.name, m.ownerId]
  ofRow := machineOfRow

def toRow {α : Type} [Tabled α] (item : α) : Row := (Tabled.values item).map .text

theorem accountOfRow_toRow (a : Account) : Tabled.ofRow (toRow a) = .ok a := by
  cases a with
  | mk id username firstName lastName hashedPassword salt role =>
    simp only [Tabled.ofRow, toRow, Tabled.values, accountOfRow, textAt, meaningAt,
      Security.Role.ofId?_id, bind, Except.bind, List.map, List.getElem?_cons_succ,
      List.getElem?_cons_zero]

theorem machineOfRow_toRow (m : Machine) : Tabled.ofRow (toRow m) = .ok m := by
  cases m with
  | mk id provider status ownerId =>
    simp only [Tabled.ofRow, toRow, Tabled.values, machineOfRow, textAt, meaningAt,
      Provider.ofText?_name, Status.ofText?_name, bind, Except.bind, List.map,
      List.getElem?_cons_succ, List.getElem?_cons_zero]

end VmFleet.Store
