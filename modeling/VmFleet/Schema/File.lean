import VmFleet.Schema.Versioned

/-!
# Database files

What can be at the path of a database, and what opening it makes of that.
-/

set_option autoImplicit false

namespace VmFleet.Schema

inductive DatabaseFile where
  | missing
  | directory
  /-- A file that is no database; the first statement fails. -/
  | garbage
  | database (d : Database)
  deriving DecidableEq, Repr

/-- A file with the text: one of less than two bytes is an empty database. -/
def DatabaseFile.ofText (text : String) : DatabaseFile :=
  if text.utf8ByteSize < 2 then .database .empty else .garbage

/-- Runs an action of at least one statement; a missing file is created first. -/
def DatabaseFile.run {α : Type} (a : Action α) : DatabaseFile → Except SchemaError α × DatabaseFile
  | .missing => let r := a.on .empty; (r.1, .database r.2)
  | .directory => (.error (.engine ""), .directory)
  | .garbage => (.error (.engine ""), .garbage)
  | .database d => let r := a.on d; (r.1, .database r.2)

/-- Validation of no tables at all needs no statement. -/
def DatabaseFile.validate (f : DatabaseFile) (s : VersionedSchema) :
    Except SchemaError Unit × DatabaseFile :=
  match f, s.tables with
  | .garbage, [] => (.ok (), .garbage)
  | f, _ => f.run s.validate

def DatabaseFile.openAt (f : DatabaseFile) (path : String) (schemas : List VersionedSchema) :
    Except SchemaError Unit × DatabaseFile :=
  match schemas.getLast? with
  | none => (.error .noVersions, f)
  | some latest =>
    match f with
    | .directory => (.error (.engine s!"Failed to open database {path}"), f)
    | .garbage => (.error (.engine "Failed to read database version"), f)
    | .missing => DatabaseFile.run (do latest.create; upgrade schemas) .missing
    | .database d => DatabaseFile.run (upgrade schemas) (.database d)

/-- The same at a path that no file can be created at. -/
def openNowhere (path : String) (schemas : List VersionedSchema) : SchemaError :=
  if schemas.isEmpty then .noVersions else .engine s!"Failed to create database {path}"

/-! ## The tables of the store -/

def required (name : String) : ColumnSpec := ⟨name, .text, false, true, false, none⟩

def key (name : String) : ColumnSpec := ⟨name, .text, true, true, false, none⟩

def created : ColumnSpec :=
  ⟨"created", .integer, false, false, false, some "(cast(strftime('%s','now') as int))"⟩

def accountTable : TableSpec :=
  ⟨"user_account",
   [key "id", ⟨"username", .text, false, true, true, none⟩, required "first_name",
    required "last_name", required "hashed_password", required "salt", required "role", created],
   [("idx_user_account_username", "username")]⟩

def machineTable : TableSpec :=
  ⟨"virtual_machine",
   [key "id", required "provider", required "status", required "owner_id", created],
   [("idx_virtual_machine_owner", "owner_id")]⟩

def storeSchemas : List VersionedSchema :=
  [⟨0, [accountTable], none⟩, ⟨1, [accountTable, machineTable], some machineTable.create⟩]

end VmFleet.Schema
