import VmFleet.Schema.Database
import VmFleet.Text.Quoted

/-!
# Versioned schemas

A schema names the tables that a version of the program needs. It can create them in a database, by
statements that its names and defaults are put into as they are, and check a database against them.
Opening a file creates the latest schema where there is none, and otherwise checks the schema that
the file has and migrates it forward. Statements take effect one by one: what ran before a failure
stays.
-/

set_option autoImplicit false

namespace VmFleet.Schema

inductive ColumnType where
  | text
  | integer
  deriving DecidableEq, Repr

def ColumnType.name : ColumnType → String
  | .text => "TEXT"
  | .integer => "INTEGER"

def ColumnType.ofName? : String → Option ColumnType
  | "TEXT" => some .text
  | "INTEGER" => some .integer
  | _ => none

/-- A column in the statement that creates its table, with any text for its type. -/
structure ColumnDecl where
  name : String
  type : String
  primaryKey : Bool
  notNull : Bool
  unique : Bool
  default : Option String
  deriving DecidableEq, Repr

/-- A table that a statement creates; the primary key may be named after the columns. -/
structure TableDecl where
  name : String
  columns : List ColumnDecl
  primaryKey : Option (List String)
  deriving DecidableEq, Repr

structure ColumnSpec where
  name : String
  type : ColumnType
  primaryKey : Bool
  notNull : Bool
  unique : Bool
  default : Option String
  deriving DecidableEq, Repr

structure TableSpec where
  name : String
  columns : List ColumnSpec
  indices : List (String × String)
  deriving DecidableEq, Repr

inductive SchemaError where
  /-- The engine refused a statement; `context` is what was being done, if that is known. -/
  | engine (context : String)
  | noVersions
  | tooOld (version : Int)
  | tooNew (version : Nat)
  | unreadableColumns (table : String)
  | columnCount (table : String) (found expected : Nat)
  | columnName (table expected found : String)
  | columnDefinition (table column : String)
  | columnDefault (table column : String) (expected found : Option String)
  | missingIndex (table index : String)
  | migration (reason : String)
  /-- The last schema's version is no position in the list of schemas. -/
  | noSuchVersion (version : Nat)
  /-- With the offset the version is beyond what a word of 64 bits holds. -/
  | versionOverflow (version : Nat)
  deriving DecidableEq, Repr

/-- The offset of stored versions, so that other programs' databases are not mistaken for ours. -/
def baseVersion : Nat := 77000

def optionText : Option String → String
  | none => "None"
  | some s => s!"Some({Text.Quoted.quote s})"

def SchemaError.message : SchemaError → String
  | .engine context => context
  | .noVersions => "No schema versions defined"
  | .tooOld v => s!"Database version {v} is too old, does not contain base db version {baseVersion}"
  | .tooNew v => s!"Database version {v} is too new"
  | .unreadableColumns t =>
    s!"Failed to read columns of table {t}: Invalid column type Text at index: 2, name: type"
  | .columnCount t found expected => s!"Table {t} has {found} columns, expected {expected}"
  | .columnName t expected found =>
    s!"Table {t} column name mismatch: expected {expected}, got {found}"
  | .columnDefinition t c => s!"Table {t} column {c} definition mismatch"
  | .columnDefault t c expected found =>
    s!"Table {t} column {c} default value mismatch: " ++
      s!"expected {optionText expected}, got {optionText found}"
  | .missingIndex t i => s!"Table {t} is missing index '{i}'"
  | .migration reason => reason
  | .noSuchVersion v => s!"there is no schema at position {v}"
  | .versionOverflow v => s!"version {v} is too large to be stored"

/-- Statements that run against a database and may stop at an error. -/
abbrev Action (α : Type) : Type := ExceptT SchemaError (StateM Database) α

def Action.on {α : Type} (a : Action α) (d : Database) : Except SchemaError α × Database :=
  (a.run).run d

def statement (change : Database → Option Database) : Action Unit := do
  match change (← get) with
  | some d => set d
  | none => throw (.engine "")

def execute (text : String) : Action Unit := statement fun d => d.run text

/-! ## Creating -/

def ColumnDecl.text (c : ColumnDecl) : String :=
  c.name ++ " " ++ c.type ++ (if c.primaryKey then " PRIMARY KEY" else "") ++
    (if c.notNull then " NOT NULL" else "") ++ (if c.unique then " UNIQUE" else "") ++
    match c.default with
    | some value => " DEFAULT " ++ value
    | none => ""

def TableDecl.text (t : TableDecl) : String :=
  let key := match t.primaryKey with
    | some names => ["PRIMARY KEY (" ++ ", ".intercalate names ++ ")"]
    | none => []
  "CREATE TABLE " ++ t.name ++ " (" ++
    ", ".intercalate (t.columns.map ColumnDecl.text ++ key) ++ ");"

def indexText (table name column : String) : String :=
  s!"CREATE INDEX {name} ON {table}({column});"

def ColumnSpec.decl (c : ColumnSpec) : ColumnDecl :=
  ⟨c.name, c.type.name, c.primaryKey, c.notNull, c.unique, c.default⟩

def TableSpec.decl (t : TableSpec) : TableDecl := ⟨t.name, t.columns.map ColumnSpec.decl, none⟩

def createIndices (table : String) : List (String × String) → Action Unit
  | [] => pure ()
  | (name, column) :: rest => do
    execute (indexText table name column)
    createIndices table rest

def declare (t : TableDecl) (indices : List (String × String)) : Action Unit := do
  execute t.text
  createIndices t.name indices

def TableSpec.create (t : TableSpec) : Action Unit := declare t.decl t.indices

def createTables : List TableSpec → Action Unit
  | [] => pure ()
  | t :: ts => do
    t.create
    createTables ts

def dropIndex (name : String) : Action Unit := execute s!"DROP INDEX {name};"

def dropTable (name : String) : Action Unit := execute s!"DROP TABLE {name};"

/-! ## Checking -/

/-- The text without one pair of parentheses around it. -/
def strip (s : String) : String :=
  match s.toList with
  | '(' :: cs => if cs.getLast? = some ')' then String.ofList cs.dropLast else s
  | _ => s

def check (condition : Bool) (e : SchemaError) : Except SchemaError Unit :=
  if condition then .ok () else .error e

def checkColumn (table : String) (found : Column) (expected : ColumnSpec) :
    Except SchemaError Unit := do
  check (found.name = expected.name) (.columnName table expected.name found.name)
  check (ColumnType.ofName? found.type = some expected.type && found.notNull = expected.notNull &&
    (found.keyPlace = 1 : Bool) = expected.primaryKey) (.columnDefinition table expected.name)
  check (found.default.map strip = expected.default.map strip)
    (.columnDefault table expected.name expected.default found.default)

def checkColumns (table : String) : List Column → List ColumnSpec → Except SchemaError Unit
  | f :: fs, e :: es => do
    checkColumn table f e
    checkColumns table fs es
  | _, _ => .ok ()

def checkIndices (d : Database) (table : String) : List (String × String) → Except SchemaError Unit
  | [] => .ok ()
  | (name, _) :: rest => do
    check (d.tableHasIndex table name) (.missingIndex table name)
    checkIndices d table rest

/-- Compares the table with what the database reports about it. Whether a column is unique is not
reported. -/
def TableSpec.validate (t : TableSpec) (d : Database) : Except SchemaError Unit := do
  let columns ← match d.describe ("PRAGMA table_info(" ++ t.name ++ ");") with
    | some columns => .ok columns
    | none => .error (.engine "")
  check (columns.all fun c => (ColumnType.ofName? c.type).isSome) (.unreadableColumns t.name)
  check (columns.length = t.columns.length)
    (.columnCount t.name columns.length t.columns.length)
  checkColumns t.name columns t.columns
  checkIndices d t.name t.indices

def validateTables : List TableSpec → Database → Except SchemaError Unit
  | [], _ => .ok ()
  | t :: ts, d => do
    t.validate d
    validateTables ts d

/-! ## Versions -/

structure VersionedSchema where
  version : Nat
  tables : List TableSpec
  migration : Option (Action Unit)

def setUserVersion (version : Nat) : Action Unit :=
  if baseVersion + version < 0x10000000000000000 then
    statement fun d => some (d.setVersion (baseVersion + version : Nat))
  else throw (.versionOverflow version)

def VersionedSchema.create (s : VersionedSchema) : Action Unit := do
  createTables s.tables
  setUserVersion s.version

def VersionedSchema.validate (s : VersionedSchema) : Action Unit := do
  match validateTables s.tables (← get) with
  | .ok _ => pure ()
  | .error e => throw e

/-- Runs the migrations in order and says which version was reached. -/
def migrate : Nat → List VersionedSchema → Action Nat
  | current, [] => pure current
  | _, s :: rest => do
    match s.migration with
    | some m => m
    | none => pure ()
    migrate s.version rest

def storedVersion (count : Nat) : Action Nat := do
  let v := (← get).userVersion - baseVersion
  if v < 0 then throw (.tooOld v)
  if count ≤ v.toNat then throw (.tooNew v.toNat)
  pure v.toNat

def schemaAt (schemas : List VersionedSchema) (version : Nat) : Action VersionedSchema :=
  match schemas[version]? with
  | some s => pure s
  | none => throw (.noSuchVersion version)

/-- Checks the schema that the database has and brings it to the latest one. -/
def upgrade (schemas : List VersionedSchema) : Action Unit := do
  let version ← storedVersion schemas.length
  (← schemaAt schemas version).validate
  let reached ← migrate version (schemas.drop (version + 1))
  if reached = version then pure ()
  else do
    setUserVersion reached
    (← schemaAt schemas reached).validate

end VmFleet.Schema
