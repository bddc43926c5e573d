import VmFleet.Sql.Function
import VmFleet.Sql.Statement

/-!
# Databases as the engine sees them

A database holds tables with their columns and indices, and a version number of 32 bits that
programs may use as they like. Statements change it as a whole or not at all. Besides the indices
that are asked for, a table has one for every rule that makes columns unique.
-/

set_option autoImplicit false

namespace VmFleet.Schema

open Sql (Scope Term Expr Statement)
open Sql.Scope (sameName)

structure Column where
  name : String
  type : String
  notNull : Bool
  default : Option String
  /-- The place in the primary key counts from one, and zero is outside the key. -/
  keyPlace : Nat
  /-- The order that texts are compared in. -/
  collation : String
  /-- Whether the column has no value of its own; such columns are not reported. -/
  isComputed : Bool
  deriving DecidableEq, Repr

/-- An index that keeps columns unique, each compared in an order of its own. -/
structure UniqueIndex where
  columns : List (String × String)
  isKey : Bool
  onConflict : Sql.OnConflict
  deriving DecidableEq, Repr

structure Table where
  name : String
  columns : List Column
  indices : List String
  /-- The indices that come with rules, in the order of the rules. -/
  unique : List UniqueIndex
  /-- The column of whole numbers that is the key and numbers the rows. -/
  rowKey : Option String
  hasRowNumbers : Bool
  deriving DecidableEq, Repr

structure Database where
  userVersion : Int
  tables : List Table
  deriving DecidableEq, Repr

namespace Table

def column? (t : Table) (name : String) : Option Column :=
  t.columns.find? fun c => sameName c.name name

def updateColumn (t : Table) (name : String) (f : Column → Column) : Table :=
  { t with columns := t.columns.map fun c => if sameName c.name name then f c else c }

def scope (t : Table) (isWide isSteady : Bool) : Scope :=
  ⟨t.name, t.columns.map Column.name, t.hasRowNumbers, isWide, isSteady⟩

/-- The names of the indices that come with rules. The key of a table whose rows have no numbers is
the table itself. -/
def uniqueNames (t : Table) : List String :=
  (t.unique.zipIdx.filter fun u => t.hasRowNumbers || !u.1.isKey).map fun u =>
    s!"sqlite_autoindex_{t.name}_{u.2 + 1}"

def withIndex (t : Table) (name : String) : Table := { t with indices := t.indices ++ [name] }

def withoutIndex (t : Table) (name : String) : Table :=
  { t with indices := t.indices.filter fun i => !sameName i name }

/-! ## Declaring a table -/

def collations : List String := ["binary", "nocase", "rtrim"]

def isCollation (name : String) : Bool := collations.contains name.toLower

/-- An expression without the orders it is to be compared in, and the outermost of them. -/
def uncollate : Expr → Expr × Option String
  | .collate e collation => ((uncollate e).1, some collation)
  | e => (e, none)

/-- The column that a term of a key names, and the order it is compared in. -/
def keyColumn? (t : Table) (term : Term) : Option (Column × String) := do
  if term.placesNulls then none
  let (e, collation) := uncollate term.expr
  let column ← match e with
    | .string name => t.column? name
    | .name name _ => t.column? name
    | _ => none
  let collation := collation.getD column.collation
  if isCollation collation then some (column, collation.toLower) else none

/-- Adds an index that keeps columns unique, unless there is one like it already. Two rules for the
same columns may not contradict each other about what to do with a row that breaks them. -/
def addUnique (t : Table) (index : UniqueIndex) : Option Table :=
  match t.unique.find? fun u => u.columns = index.columns with
  | none => some { t with unique := t.unique ++ [index] }
  | some u =>
    if u.onConflict.isSome && index.onConflict.isSome && u.onConflict ≠ index.onConflict then none
    else some { t with unique := t.unique.map fun u =>
      if u.columns = index.columns then
        { u with isKey := u.isKey || index.isKey, onConflict := u.onConflict.or index.onConflict }
      else u }

def hasKey (t : Table) : Bool := t.rowKey.isSome || t.unique.any UniqueIndex.isKey

/-- Makes columns the primary key. A single column of whole numbers numbers the rows instead of
having an index, unless its order is turned around; only then may the numbers be counted up. -/
def setKey (t : Table) (columns : List (Column × String)) (isDescending isCounted : Bool)
    (onConflict : Sql.OnConflict) : Option Table :=
  if t.hasKey || columns.any fun c => c.1.isComputed then none
  else
    let index := t.addUnique ⟨columns.map fun c => (c.1.name, c.2), true, onConflict⟩
    match columns with
    | [c] =>
      if c.1.type = "INTEGER" && !isDescending then
        if isCounted && !t.hasRowNumbers then none else some { t with rowKey := some c.1.name }
      else if isCounted then none
      else index
    | _ => if isCounted then none else index

/-- Changes the order that a column is compared in, also where it was made unique before. -/
def setCollation (t : Table) (name collation : String) : Table :=
  let t := t.updateColumn name fun c => { c with collation }
  { t with unique := t.unique.map fun u =>
      match u.columns with
      | first :: rest =>
        if sameName first.1 name then { u with columns := (first.1, collation) :: rest } else u
      | [] => u }

def isKeyColumn (t : Table) (name : String) : Bool :=
  t.rowKey = some name || t.unique.any fun u => u.isKey && u.columns.any fun c => c.1 = name

def addRule (name : String) (t : Table) (rule : Sql.ColumnRule) : Option Table := do
  let column ← t.column? name
  match rule with
  | .primaryKey isDescending isCounted onConflict =>
    t.setKey [(column, column.collation)] isDescending isCounted onConflict
  | .notNull => some (t.updateColumn name fun c => { c with notNull := true })
  | .unique onConflict => t.addUnique ⟨[(column.name, column.collation)], false, onConflict⟩
  | .default text value =>
    if value.isConstant && !column.isComputed then
      some (t.updateColumn name fun c => { c with default := some text })
    else none
  | .collate collation =>
    if isCollation collation then some (t.setCollation name collation.toLower) else none
  | .references fields => if fields.getD 1 = 1 then some t else none
  | .computed _ =>
    if column.isComputed || column.default.isSome || t.isKeyColumn column.name then none
    else some (t.updateColumn name fun c => { c with isComputed := true })
  | .check _ => some t
  | .other => some t

def maxColumns : Nat := 2000

def addColumn (t : Table) (c : Sql.ColumnDef) : Option Table :=
  if (t.column? c.name).isSome || maxColumns ≤ t.columns.length then none
  else c.rules.foldlM (addRule c.name)
    { t with columns := t.columns ++ [⟨c.name, c.type, false, none, 0, "binary", false⟩] }

def addTableRule (t : Table) (rule : Sql.TableRule) : Option Table :=
  match rule with
  | .primaryKey terms isCounted onConflict =>
    (terms.mapM t.keyColumn?).bind fun columns => t.setKey columns false isCounted onConflict
  | .unique terms onConflict =>
    (terms.mapM t.keyColumn?).bind fun columns =>
      t.addUnique ⟨columns.map fun c => (c.1.name, c.2), false, onConflict⟩
  | .foreignKey columns fields =>
    if columns.all (fun name => (t.column? name).isSome) &&
        fields.getD columns.length = columns.length then some t
    else none
  | .check _ => some t
  | .other => some t

def checksOf (d : Sql.TableDef) : List Expr :=
  (d.columns.flatMap fun c => c.rules.filterMap fun
    | .check e => some e
    | _ => none) ++
  d.rules.filterMap fun
    | .check e => some e
    | _ => none

def computationsOf (d : Sql.TableDef) : List Expr :=
  d.columns.flatMap fun c => c.rules.filterMap fun
    | .computed e => some e
    | _ => none

/-- Rows without numbers are found by the key, so there has to be one. -/
def settleRowNumbers (t : Table) : Option Table :=
  if t.hasRowNumbers then some t
  else if !t.hasKey then none
  else
    let unique := match t.rowKey.bind t.column? with
      | some c => t.unique ++ [⟨[(c.name, c.collation)], true, none⟩]
      | none => t.unique.map fun u =>
        if u.isKey then { u with columns := u.columns.eraseDups } else u
    let t := { t with unique, rowKey := none }
    some { t with columns := t.columns.map fun c =>
      if t.isKeyColumn c.name then { c with notNull := true } else c }

/-- In a strict table every type is one that the engine knows, and no part of a key is missing. -/
def settleStrictness (t : Table) (isStrict : Bool) : Option Table :=
  if !isStrict then some t
  else if t.columns.all fun c => Sql.TypeName.known.contains c.type then
    some { t with columns := t.columns.map fun c =>
      if t.rowKey ≠ some c.name && t.isKeyColumn c.name then { c with notNull := true } else c }
  else none

def placeInKey (t : Table) (name : String) : Nat :=
  if t.rowKey = some name then 1
  else
    let key := ((t.unique.find? UniqueIndex.isKey).map UniqueIndex.columns).getD []
    match key.findIdx? fun c => c.1 = name with
    | some i => i + 1
    | none => 0

def settleKey (t : Table) : Table :=
  { t with columns := t.columns.map fun c => { c with keyPlace := t.placeInKey c.name } }

/-- The table that a definition makes; none if the definition contradicts itself. -/
def ofDef? (d : Sql.TableDef) : Option Table := do
  let t ← d.columns.foldlM addColumn ⟨d.path.name, [], [], [], none, d.hasRowNumbers⟩
  let t ← d.rules.foldlM addTableRule t
  let t ← t.settleStrictness d.isStrict
  let t ← t.settleRowNumbers
  if (checksOf d).all ((t.scope true false).resolves) &&
      (computationsOf d).all ((t.scope false true).resolves) &&
      !t.columns.all Column.isComputed then some t.settleKey
  else none

def canIndex (t : Table) (term : Term) : Bool :=
  let (e, collation) := uncollate term.expr
  let e := match e with
    | .string name => Expr.name name .other
    | e => e
  !term.placesNulls && (collation.all isCollation : Bool) &&
    (match e with
      | .row _ => false
      | e => (t.scope false true).resolves e)

end Table

namespace Database

def empty : Database := ⟨0, []⟩

def table? (d : Database) (name : String) : Option Table :=
  d.tables.find? fun t => sameName t.name name

def hasIndex (d : Database) (name : String) : Bool :=
  d.tables.any fun t => t.indices.any (sameName name)

def hasUniqueIndex (d : Database) (name : String) : Bool :=
  d.tables.any fun t => t.uniqueNames.any (sameName name)

def isReserved (name : String) : Bool := name.toLower.startsWith "sqlite_"

inductive Place where
  | main
  /-- Things here are gone when the connection is closed. -/
  | temporary
  | nowhere
  deriving DecidableEq, Repr

def placeOf (path : Sql.Path) : Place :=
  match path.schema.map String.toLower with
  | none => .main
  | some "main" => .main
  | some "temp" => .temporary
  | some _ => .nowhere

/-- Tables and indices share their names. -/
def createTable (d : Database) (t : Sql.TableDef) : Option Database :=
  let name := t.path.name
  if isReserved name then none
  else match placeOf t.path with
    | .nowhere => none
    | .temporary => (Table.ofDef? t).map fun _ => d
    | .main =>
      if (d.table? name).isSome then (if t.ifMissing then some d else none)
      else if d.hasIndex name then none
      else (Table.ofDef? t).map fun table => { d with tables := d.tables ++ [table] }

def addIndex (d : Database) (t : Table) (name : String) : Database :=
  { d with tables := d.tables.map fun u => if u.name = t.name then u.withIndex name else u }

def createIndex (d : Database) (i : Sql.IndexDef) : Option Database := do
  let name := i.path.name
  let t ← d.table? i.table
  if placeOf i.path ≠ .main || isReserved name || (d.table? name).isSome then none
  else if d.hasIndex name then (if i.ifMissing then some d else none)
  else if i.terms.all t.canIndex && (i.condition.all ((t.scope true true).resolves) : Bool) then
    some (d.addIndex t name)
  else none

/-- An index that comes with a rule stays as long as its table. -/
def dropIndex (d : Database) (path : Sql.Path) (ifThere : Bool) : Option Database :=
  if placeOf path = .main && d.hasUniqueIndex path.name then none
  else if placeOf path = .main && d.hasIndex path.name then
    some { d with tables := d.tables.map fun t => t.withoutIndex path.name }
  else if ifThere then some d
  else none

/-- The tables in which the engine keeps what it knows about all others. -/
def catalogs : List String :=
  ["sqlite_master", "sqlite_schema", "sqlite_temp_master", "sqlite_temp_schema"]

def isCatalog (name : String) : Bool := catalogs.contains name.toLower

/-- A table goes with its indices. -/
def dropTable (d : Database) (path : Sql.Path) (ifThere : Bool) : Option Database :=
  if isCatalog path.name then none
  else if placeOf path = .main && (d.table? path.name).isSome then
    some { d with tables := d.tables.filter fun t => !sameName t.name path.name }
  else if ifThere then some d
  else none

/-- What a statement makes of the database; none if it is refused. -/
def execute (d : Database) : Statement → Option Database
  | .createTable t => d.createTable t
  | .createIndex i => d.createIndex i
  | .dropTable path ifThere => d.dropTable path ifThere
  | .dropIndex path ifThere => d.dropIndex path ifThere
  | .describeTable _ => some d
  | .insert _ _ => none

def run (d : Database) (text : String) : Option Database :=
  (Statement.ofText? text).bind d.execute

/-- A number that does not fit counts as zero. -/
def setVersion (d : Database) (n : Int) : Database :=
  { d with userVersion := if -0x80000000 ≤ n ∧ n < 0x80000000 then n else 0 }

def catalogColumns : List Column :=
  let types := [("type", "TEXT"), ("name", "TEXT"), ("tbl_name", "TEXT"), ("rootpage", "INT"),
    ("sql", "TEXT")]
  types.map fun c => ⟨c.1, c.2, false, none, 0, "binary", false⟩

/-- The columns that are reported of a table; none when there is no such table. -/
def columnsOf (d : Database) (name : String) : List Column :=
  if isCatalog name then catalogColumns
  else match d.table? name with
    | some t => t.columns.filter fun c => !c.isComputed
    | none => []

/-- The answer to a text that asks for the columns of a table; none if it does not. -/
def describe (d : Database) (text : String) : Option (List Column) :=
  match Statement.ofText? text with
  | some (.describeTable name) => some (d.columnsOf name)
  | _ => none

/-- Whether the table has the index. Here case matters. -/
def tableHasIndex (d : Database) (table name : String) : Bool :=
  d.tables.any fun t => t.name = table && (t.indices.contains name || t.uniqueNames.contains name)

end Database
end VmFleet.Schema
