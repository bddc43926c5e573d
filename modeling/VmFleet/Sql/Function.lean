import VmFleet.Sql.Expr

/-!
# Functions of the engine

The functions that an expression of a table or an index may call, with the numbers of arguments that
they take. A steady function has the same value whenever it is called with the same arguments.
Functions that sum up many rows are not among them.
-/

set_option autoImplicit false

namespace VmFleet.Sql

structure Function where
  name : String
  least : Nat
  /-- The largest number of arguments, if there is one. -/
  most : Option Nat
  isSteady : Bool
  deriving DecidableEq, Repr

namespace Function

def steady (least : Nat) (most : Option Nat) (names : List String) : List Function :=
  names.map fun name => ⟨name, least, most, true⟩

def changing (least : Nat) (most : Option Nat) (names : List String) : List Function :=
  names.map fun name => ⟨name, least, most, false⟩

def all : List Function :=
  steady 0 (some 0) ["fts5_source_id"] ++
  steady 1 (some 1)
    ["abs", "hex", "json", "json_array_length", "json_error_position", "json_pretty", "json_quote",
     "json_type", "json_valid", "jsonb", "length", "likely", "lower", "ltrim", "octet_length",
     "quote", "round", "rtrim", "sign", "soundex", "subtype", "trim", "typeof", "unhex", "unicode",
     "unlikely", "upper", "zeroblob"] ++
  steady 2 (some 2)
    ["->", "->>", "glob", "ifnull", "instr", "json_array_length", "json_patch", "json_pretty",
     "json_type", "json_valid", "jsonb_patch", "like", "likelihood", "ltrim", "nullif", "round",
     "rtrim", "sqlite_log", "substr", "substring", "timediff", "trim", "unhex"] ++
  steady 3 (some 3) ["like", "replace", "substr", "substring"] ++
  steady 0 none
    ["char", "date", "datetime", "format", "json_array", "json_extract", "json_insert",
     "json_object", "json_remove", "json_replace", "json_set", "jsonb_array", "jsonb_extract",
     "jsonb_insert", "jsonb_object", "jsonb_remove", "jsonb_replace", "jsonb_set", "julianday",
     "printf", "strftime", "time", "unixepoch"] ++
  steady 1 none ["concat"] ++
  steady 2 none ["coalesce", "concat_ws", "if", "iif", "max", "min"] ++
  changing 0 (some 0)
    ["changes", "current_date", "current_time", "current_timestamp", "last_insert_rowid", "random",
     "sqlite_source_id", "sqlite_version", "total_changes"] ++
  changing 1 (some 1)
    ["fts3_tokenizer", "fts5", "load_extension", "matchinfo", "offsets", "optimize", "randomblob",
     "rtreedepth", "sqlite_compileoption_get", "sqlite_compileoption_used"] ++
  changing 2 (some 2) ["fts3_tokenizer", "load_extension", "match", "matchinfo", "rtreenode"] ++
  changing 0 none ["rtreecheck", "snippet"]

def takes (f : Function) (count : Nat) : Bool :=
  f.least ≤ count && match f.most with
    | some most => count ≤ most
    | none => true

def find? (name : String) (count : Nat) : Option Function :=
  all.find? fun f => f.name = name.toLower && f.takes count

end Function

structure Scope where
  table : String
  columns : List String
  hasRowNumbers : Bool
  /-- Whether columns may be named with their table, and rows by their numbers. -/
  isWide : Bool
  /-- Whether every function has to be steady. -/
  isSteady : Bool

namespace Scope

/-- Names that differ only in case are the same. -/
def sameName (a b : String) : Bool := a.toLower = b.toLower

def rowNumberNames : List String := ["rowid", "oid", "_rowid_"]

def isRowNumber (name : String) : Bool := rowNumberNames.contains name.toLower

def hasColumn (s : Scope) (name : String) : Bool :=
  s.columns.any (sameName name) || (s.isWide && s.hasRowNumbers && isRowNumber name)

def hasPath (s : Scope) (path : List String) : Bool :=
  s.isWide && match path.reverse with
    | column :: table :: _ => sameName table s.table && s.hasColumn column
    | _ => false

def width : Expr → Nat
  | .row parts => parts.length
  | .collate e _ => width e
  | _ => 1

mutual

def resolves (s : Scope) : Expr → Bool
  | .literal | .zero | .string _ | .raise => true
  | .name text quote =>
    s.hasColumn text || quote = .double || (quote = .none && Expr.isTruth text)
  | .qualified path => s.hasPath path
  | .call function args isPlain =>
    isPlain && resolvesAll s args && match Function.find? function args.length with
      | some f => f.isSteady || !s.isSteady
      | none => false
  | .collate e _ => resolves s e
  | .row parts => resolvesAll s parts
  | .comparison parts =>
    resolvesAll s parts && match parts with
      | first :: rest => rest.all fun e => width e = width first
      | [] => true
  | .compound parts => resolvesAll s parts

def resolvesAll (s : Scope) : List Expr → Bool
  | [] => true
  | e :: es => resolves s e && resolvesAll s es

end

end Scope
end VmFleet.Sql
