import VmFleet.Sql.Function
import VmFleet.Sql.Statement
import VmFleet.Store.Call
import VmFleet.Store.RowNumber

/-!
# Records kept in a table

The rows stand in the order of their numbers. The table counts the numbers up, so that rows stand in
the order of their insertion unless some were inserted with a number from elsewhere; a row that is
written again keeps its number. The table itself refuses a second row with the same id or the same
key. A row that cannot be read spoils every call that has to read it.
-/

set_option autoImplicit false

namespace VmFleet.Store.Table

variable {α : Type} [Tabled α]

def idCell (row : Row) : Option Cell := row.head?

def keyCell (α : Type) [Tabled α] (row : Row) : Option Cell := row[Tabled.keyColumn α]?

def hasId (id : String) (row : Row) : Bool := idCell row = some (.text id)

def hasKey (α : Type) [Tabled α] (key : String) (row : Row) : Bool :=
  keyCell α row = some (.text key)

def read (row : Row) : Except StoreError α :=
  (Tabled.ofRow row).mapError fun b => .backend b.message

/-- The rows of a table with their numbers. It always refuses a second row with the same id. -/
structure Sheet where
  keyUnique : Bool
  /-- Whether every number was counted up by the table. Such numbers do not come to an end. -/
  isCounted : Bool
  entries : List Entry
  deriving DecidableEq, Repr

def Sheet.empty : Sheet := ⟨true, true, []⟩

def Sheet.rows (s : Sheet) : List Row := s.entries.map Entry.row

def Sheet.nextNumber (s : Sheet) : Int :=
  if s.isCounted then Entry.next s.entries else Entry.nextWithin s.entries

def Sheet.append (s : Sheet) (row : Row) : Sheet :=
  { s with entries := Entry.place ⟨s.nextNumber, row⟩ s.entries }

theorem Sheet.rows_append (s : Sheet) (row : Row) (h : s.isCounted = true) :
    (s.append row).rows = s.rows ++ [row] := by
  simp [append, rows, nextNumber, h, Entry.place_next]

/-- The record in the place of a row with its id; any other row stays as it is. -/
def overwrite (item : α) (e : Entry) : Entry :=
  if hasId (Keyed.id item) e.row then ⟨e.number, toRow item⟩ else e

/-- Updates the row with the id, or adds one; none if another row has the key. -/
def write (s : Sheet) (item : α) : Option Sheet :=
  if s.keyUnique && s.rows.any fun r =>
      !hasId (Keyed.id item) r && hasKey α (Keyed.key item) r then none
  else if s.rows.any (hasId (Keyed.id item)) then
    some { s with entries := s.entries.map (overwrite item) }
  else some (s.append (toRow item))

def getAll (s : Sheet) : Except StoreError (List α) := s.rows.mapM read

def get (s : Sheet) (id : String) : Except StoreError α :=
  match s.rows.find? (hasId id) with
  | some r => read r
  | none => .error (missing α id)

def put (s : Sheet) (item : α) : Except StoreError α × Sheet :=
  match write s item with
  | none => (.error (taken item), s)
  | some written => (.ok item, written)

def add (s : Sheet) (item : α) (ensureUnique : Bool) : Except StoreError α × Sheet :=
  match s.rows.find? fun r => hasId (Keyed.id item) r || hasKey α (Keyed.key item) r with
  | none => put s item
  | some r =>
    match read (α := α) r with
    | .error e => (.error e, s)
    | .ok e => if ensureUnique then (.error (taken item), s) else (.ok e, s)

/-- Writes one record after the other; the first that is refused is the error. -/
def writeAll : List α → Sheet → Except StoreError Sheet
  | [], s => .ok s
  | item :: items, s =>
    match write s item with
    | none => .error (taken item)
    | some written => writeAll items written

/-- The batch is written as a whole or not at all. -/
def putAll (s : Sheet) (items : List α) : Except StoreError (List α) × Sheet :=
  match writeAll items s with
  | .error e => (.error e, s)
  | .ok written => (.ok items, written)

def delete (α : Type) [Tabled α] (s : Sheet) (id : String) : Except StoreError Unit × Sheet :=
  if s.rows.any (hasId id) then
    (.ok (), { s with entries := s.entries.filter fun e => !hasId id e.row })
  else (.error (missing α id), s)

def run (s : Sheet) : (c : Call α) → c.Answer × Sheet
  | .getAll => (getAll (α := α) s, s)
  | .get id => (get (α := α) s id, s)
  | .add item ensureUnique => add (α := α) s item ensureUnique
  | .put item => put (α := α) s item
  | .putAll items => putAll (α := α) s items
  | .delete id => delete α s id

/-! ## Rows from elsewhere -/

/-- A value that another program stores in a column. -/
inductive Stored where
  | null
  | integer (n : Int)
  | text (s : String)
  | blob (s : String)
  deriving DecidableEq, Repr

/-- What a text column makes of it; a missing value has no place in one. -/
def Stored.toCell? : Stored → Option Cell
  | .null => none
  | .integer n => some (.text (toString n))
  | .text s => some (.text s)
  | .blob s => some (.blob s)

/-- Every table also has a column that no record is mapped to. -/
def createdColumn : String := "created"

def insertedColumns? (α : Type) [Tabled α] (names : List String) : Option (List String) :=
  let columns := ", ".intercalate names
  let values := ", ".intercalate (names.map fun _ => "?")
  match Sql.Statement.ofText? s!"INSERT INTO {Tabled.table α} ({columns}) VALUES ({values})" with
  | some (.insert _ columns) => some columns
  | _ => none

def isColumn (α : Type) [Tabled α] (name : String) : Bool :=
  (createdColumn :: Tabled.columns α).any (Sql.Scope.sameName name)

/-- The number that a stored value gives to a row; a missing one leaves it to the table. -/
def Stored.toNumber? (s : Sheet) : Stored → Option Int
  | .null => some s.nextNumber
  | .integer n => some n
  | .text t => Entry.ofText? t
  | .blob _ => none

/-- The value of a column; of several for one column the first counts. -/
def valueOf? (values : List (String × Stored)) (column : String) : Option Stored :=
  (values.find? fun v => Sql.Scope.sameName v.1 column).map (·.2)

/-- The number that is given with a row; of several the last counts. -/
def givenNumber? (values : List (String × Stored)) : Option Stored :=
  (values.reverse.find? fun v => Sql.Scope.isRowNumber v.1).map (·.2)

/-- Inserts a row by the names of its columns, of which some may stand for its number. Unknown
columns, missing values and ids, keys or numbers that are taken are refused. -/
def insertRow (α : Type) [Tabled α] (s : Sheet) (values : List (String × Stored)) :
    Option Sheet := do
  let columns ← insertedColumns? α (values.map (·.1))
  let values := columns.zip (values.map (·.2))
  if values.any fun v => !isColumn α v.1 && !Sql.Scope.isRowNumber v.1 then none
  let row ← (Tabled.columns α).mapM fun c => (valueOf? values c).bind Stored.toCell?
  let number ← ((givenNumber? values).getD .null).toNumber? s
  if Entry.hasNumber number s.entries then none
  if s.rows.any fun r => idCell r = idCell row || (s.keyUnique && keyCell α r = keyCell α row) then
    none
  some { s with
    isCounted := s.isCounted && (givenNumber? values).all (· = .null)
    entries := Entry.place ⟨number, row⟩ s.entries }

end VmFleet.Store.Table
