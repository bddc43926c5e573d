import VmFleet.Sql.Expr
import VmFleet.Sql.TypeName

/-!
# Statements

The statements that make and drop tables and indices, that ask for the columns of a table and that
name the columns of a new row, as they are read from their text. What comes after the first
semicolon is left alone.
-/

set_option autoImplicit false

namespace VmFleet.Sql

/-- What to do when a row breaks a rule, if the rule says so. -/
abbrev OnConflict : Type := Option String

inductive ColumnRule where
  | primaryKey (isDescending isCounted : Bool) (onConflict : OnConflict)
  | notNull
  | unique (onConflict : OnConflict)
  /-- The default as it is reported, and what it says. -/
  | default (text : String) (value : Expr)
  | check (e : Expr)
  | collate (collation : String)
  /-- A reference to so many columns of another table, if it says how many. -/
  | references (fields : Option Nat)
  | computed (e : Expr)
  /-- A rule that nothing depends on here. -/
  | other

structure ColumnDef where
  name : String
  type : String
  rules : List ColumnRule

inductive TableRule where
  | primaryKey (terms : List Term) (isCounted : Bool) (onConflict : OnConflict)
  | unique (terms : List Term) (onConflict : OnConflict)
  | check (e : Expr)
  | foreignKey (columns : List String) (fields : Option Nat)
  | other

structure Path where
  schema : Option String
  name : String
  deriving DecidableEq, Repr

structure TableDef where
  path : Path
  /-- Whether a table that is there already is fine. -/
  ifMissing : Bool
  columns : List ColumnDef
  rules : List TableRule
  hasRowNumbers : Bool
  isStrict : Bool

structure IndexDef where
  path : Path
  ifMissing : Bool
  table : String
  terms : List Term
  condition : Option Expr

inductive Statement where
  | createTable (t : TableDef)
  | createIndex (i : IndexDef)
  /-- With `ifThere`, a thing that is not there is fine. -/
  | dropTable (path : Path) (ifThere : Bool)
  | dropIndex (path : Path) (ifThere : Bool)
  | describeTable (name : String)
  /-- A row by the names of its columns. -/
  | insert (table : String) (columns : List String)

namespace Statement

open VmFleet.Sql.Expr (after? skip startsWith)

def afterAll? : List String → List Tree → Option (List Tree)
  | [], ts => some ts
  | key :: keys, ts => (after? key ts).bind (afterAll? keys)

/-- Whether the words come next, and what is left. -/
def optional (keys : List String) (ts : List Tree) : Bool × List Tree :=
  match afterAll? keys ts with
  | some rest => (true, rest)
  | none => (false, ts)

def name? : List Tree → Option (String × List Tree)
  | .leaf t :: rest => if t.isName then some (t.name, rest) else none
  | _ => none

def path? (ts : List Tree) : Option (Path × List Tree) := do
  let (first, rest) ← name? ts
  match after? "." rest with
  | some rest => (name? rest).map fun (second, rest) => (⟨some first, second⟩, rest)
  | none => some (⟨none, first⟩, rest)

def group? : List Tree → Option (List Tree × List Char × List Tree)
  | .group _ inner last :: rest => some (inner, last, rest)
  | _ => none

def names? (inner : List Tree) : Option (List String) :=
  (Tree.parts inner).mapM fun part =>
    match name? part with
    | some (name, []) => some name
    | _ => none

/-! ## Rules of columns and tables -/

def conflictWords : List String := ["ROLLBACK", "ABORT", "FAIL", "IGNORE", "REPLACE"]

def onConflict? (ts : List Tree) : Option (OnConflict × List Tree) :=
  match after? "ON" ts with
  | none => some (none, ts)
  | some rest => do
    match ← after? "CONFLICT" rest with
    | t :: rest => if conflictWords.contains t.key then some (some t.key, rest) else none
    | [] => none

def action? (ts : List Tree) : Option (List Tree) :=
  match ts with
  | t :: u :: rest =>
    if t.key = "SET" && (u.key = "NULL" || u.key = "DEFAULT") then some rest
    else if t.key = "NO" && u.key = "ACTION" then some rest
    else if t.key = "CASCADE" || t.key = "RESTRICT" then some (u :: rest)
    else none
  | [t] => if t.key = "CASCADE" || t.key = "RESTRICT" then some [] else none
  | [] => none

def actions? : Nat → List Tree → Option (List Tree)
  | 0, ts => some ts
  | n + 1, ts =>
    match after? "MATCH" ts with
    | some rest => (name? rest).bind fun found => actions? n found.2
    | none =>
      match after? "ON" ts with
      | some (t :: rest) =>
        if ["INSERT", "DELETE", "UPDATE"].contains t.key then (action? rest).bind (actions? n)
        else none
      | some [] => none
      | none => some ts

/-- The number of columns that a reference names, if it names any, and what is left. -/
def reference? (ts : List Tree) : Option (Option Nat × List Tree) := do
  let (_, rest) ← name? ts
  match rest with
  | .group _ inner _ :: rest => do
    let names ← names? inner
    let rest ← actions? rest.length rest
    some (some names.length, rest)
  | rest => (actions? rest.length rest).map fun rest => (none, rest)

def deferral? (ts : List Tree) : Option (List Tree) := do
  let rest ← after? "DEFERRABLE" ts
  match after? "INITIALLY" rest with
  | some rest => if startsWith ["DEFERRED", "IMMEDIATE"] rest then some (rest.drop 1) else none
  | none => some rest

def isDefaultName (t : Token) : Bool :=
  t.isName && t.kind ≠ .string && !Token.joinWords.contains t.key

def text (cs : List Char) : String := String.ofList (trimBlanks cs)

/-- A default: an expression in parentheses, a literal that may have a sign, or a name. -/
def default? (ts : List Tree) : Option (ColumnRule × List Tree) :=
  match ts with
  | .group _ inner last :: rest =>
    (Expr.ofTrees? inner).map fun e => (.default (text (Tree.textAll inner ++ last)) e, rest)
  | .leaf s :: rest =>
    if s.key = "+" || s.key = "-" then
      match rest with
      | .leaf t :: rest =>
        (Expr.literal? t).map fun e => (.default (text (s.text ++ t.gap ++ t.text)) e, rest)
      | _ => none
    else match Expr.literal? s with
      | some e => some (.default (text s.text) e, rest)
      | none =>
        if isDefaultName s then some (.default (text s.text) .literal, rest) else none
  | [] => none

/-- A computed column; it may say whether its values are kept. -/
def computed? (ts : List Tree) : Option (ColumnRule × List Tree) := do
  let (inner, _, rest) ← group? ts
  let e ← Expr.ofTrees? inner
  match rest with
  | .leaf t :: after =>
    if t.isTypeName && t.kind ≠ .string then
      if t.key = "VIRTUAL" || t.key = "STORED" then some (.computed e, after) else none
    else some (.computed e, rest)
  | rest => some (.computed e, rest)

def columnRule? (ts : List Tree) : Option (ColumnRule × List Tree) :=
  match ts with
  | [] => none
  | t :: rest =>
    match t.key with
    | "CONSTRAINT" => (name? rest).map fun found => (.other, found.2)
    | "NULL" => (onConflict? rest).map fun found => (.other, found.2)
    | "NOT" =>
      match after? "NULL" rest with
      | some rest => (onConflict? rest).map fun found => (.notNull, found.2)
      | none => (deferral? rest).map fun rest => (.other, rest)
    | "PRIMARY" => do
      let rest ← after? "KEY" rest
      let isDescending := startsWith ["DESC"] rest
      let rest := if startsWith ["ASC", "DESC"] rest then rest.drop 1 else rest
      let (onConflict, rest) ← onConflict? rest
      let (isCounted, rest) := optional ["AUTOINCREMENT"] rest
      some (.primaryKey isDescending isCounted onConflict, rest)
    | "UNIQUE" => (onConflict? rest).map fun (onConflict, rest) => (.unique onConflict, rest)
    | "DEFAULT" => default? rest
    | "CHECK" => do
      let (inner, _, rest) ← group? rest
      let e ← Expr.ofTrees? inner
      some (.check e, rest)
    | "COLLATE" =>
      match rest with
      | .leaf c :: rest => if c.isTypeName then some (.collate c.name, rest) else none
      | _ => none
    | "REFERENCES" => (reference? rest).map fun (fields, rest) => (.references fields, rest)
    | "DEFERRABLE" => (deferral? ts).map fun rest => (.other, rest)
    | "GENERATED" => (afterAll? ["ALWAYS", "AS"] rest).bind computed?
    | "AS" => computed? rest
    | _ => none

def rules? {α : Type} (rule? : List Tree → Option (α × List Tree)) :
    Nat → List Tree → Option (List α)
  | _, [] => some []
  | 0, _ => none
  | n + 1, ts => do
    let (rule, rest) ← rule? ts
    let rules ← rules? rule? n rest
    some (rule :: rules)

def columnDef? (ts : List Tree) : Option ColumnDef := do
  let (name, rest) ← name? ts
  let (type, rest) ← Expr.typeTrees? rest
  let rules ← rules? columnRule? rest.length rest
  some ⟨name, TypeName.reported (Tree.span type), rules⟩

/-- The terms of a key; the last one may ask for numbers that are counted up. -/
def keyTerms? (inner : List Tree) : Option (List Term × Bool) :=
  match inner.getLast? with
  | some t =>
    if t.key = "AUTOINCREMENT" then (Expr.termsOf? inner.dropLast).map fun terms => (terms, true)
    else (Expr.termsOf? inner).map fun terms => (terms, false)
  | none => none

def tableRule? (ts : List Tree) : Option (TableRule × List Tree) :=
  match ts with
  | [] => none
  | t :: rest =>
    match t.key with
    | "CONSTRAINT" => (name? rest).map fun found => (.other, found.2)
    | "PRIMARY" => do
      let (inner, _, rest) ← (after? "KEY" rest).bind group?
      let (terms, isCounted) ← keyTerms? inner
      let (onConflict, rest) ← onConflict? rest
      some (.primaryKey terms isCounted onConflict, rest)
    | "UNIQUE" => do
      let (inner, _, rest) ← group? rest
      let terms ← Expr.termsOf? inner
      let (onConflict, rest) ← onConflict? rest
      some (.unique terms onConflict, rest)
    | "CHECK" => do
      let (inner, _, rest) ← group? rest
      let e ← Expr.ofTrees? inner
      let (_, rest) ← onConflict? rest
      some (.check e, rest)
    | "FOREIGN" => do
      let (inner, _, rest) ← (after? "KEY" rest).bind group?
      let columns ← names? inner
      let (fields, rest) ← (after? "REFERENCES" rest).bind reference?
      let rest := (deferral? (skip "NOT" rest)).getD rest
      some (.foreignKey columns fields, rest)
    | _ => none

def tableRuleWords : List String := ["CONSTRAINT", "PRIMARY", "UNIQUE", "CHECK", "FOREIGN"]

/-- The columns of a table and then its rules, from the parts of its list. -/
def body? : List (List Tree) → Option (List ColumnDef × List TableRule)
  | [] => some ([], [])
  | p :: ps =>
    if startsWith tableRuleWords p then
      (rest (p :: ps)).map fun rules => ([], rules)
    else do
      let column ← columnDef? p
      let (columns, rules) ← body? ps
      some (column :: columns, rules)
where
  rest : List (List Tree) → Option (List TableRule)
    | [] => some []
    | p :: ps => do
      if p.isEmpty then none
      let rules ← rules? tableRule? p.length p
      let more ← rest ps
      some (rules ++ more)

inductive TableOption where
  | withoutRowNumbers
  | strict

def tableOption? (ts : List Tree) : Option TableOption :=
  match ts with
  | [t, u] => if t.key = "WITHOUT" && u.key = "ROWID" then some .withoutRowNumbers else none
  | [t] => if t.key = "STRICT" then some .strict else none
  | _ => none

def tableOptions? (ts : List Tree) : Option (List TableOption) :=
  if ts.isEmpty then some [] else (Tree.parts ts).mapM tableOption?

/-! ## Whole statements -/

def createTable? (ts : List Tree) : Option Statement := do
  let (ifMissing, rest) := optional ["IF", "NOT", "EXISTS"] ts
  if !ifMissing && startsWith ["IF"] ts then none
  let (path, rest) ← path? rest
  let (inner, _, rest) ← group? rest
  let parts := Tree.parts inner
  if startsWith tableRuleWords inner then none
  let (columns, rules) ← body? parts
  let options ← tableOptions? rest
  some (.createTable ⟨path, ifMissing, columns, rules,
    !options.any (fun o => o matches .withoutRowNumbers),
    options.any (fun o => o matches .strict)⟩)

def createIndex? (ts : List Tree) : Option Statement := do
  let (ifMissing, rest) := optional ["IF", "NOT", "EXISTS"] ts
  if !ifMissing && startsWith ["IF"] ts then none
  let (path, rest) ← path? rest
  let (table, rest) ← (after? "ON" rest).bind name?
  let (inner, _, rest) ← group? rest
  let terms ← Expr.termsOf? inner
  match after? "WHERE" rest with
  | some rest =>
    (Expr.ofTrees? rest).map fun e => .createIndex ⟨path, ifMissing, table, terms, some e⟩
  | none =>
    if rest.isEmpty then some (.createIndex ⟨path, ifMissing, table, terms, none⟩) else none

def drop? (make : Path → Bool → Statement) (ts : List Tree) : Option Statement := do
  let (ifThere, rest) := optional ["IF", "EXISTS"] ts
  if !ifThere && startsWith ["IF"] ts then none
  let (path, rest) ← path? rest
  if rest.isEmpty then some (make path ifThere) else none

/-- What stands for the name of a table when its columns are asked for. -/
def argument? (inner : List Tree) : Option String :=
  match inner with
  | [.leaf t] =>
    if t.isName then some t.name
    else if t.kind = .number || ["ON", "DELETE", "DEFAULT"].contains t.key then
      some (String.ofList t.text)
    else none
  | [s, .leaf t] =>
    if t.kind ≠ .number then none
    else if s.key = "+" then some (String.ofList t.text)
    else if s.key = "-" then some (String.ofList ('-' :: t.text))
    else none
  | _ => none

def insert? (ts : List Tree) : Option Statement := do
  let (table, rest) ← name? ts
  let (inner, _, rest) ← group? rest
  let columns ← names? inner
  let (values, _, rest) ← (after? "VALUES" rest).bind group?
  if rest.isEmpty && (Tree.parts values).length = columns.length then some (.insert table columns)
  else none

def ofText? (text : String) : Option Statement := do
  let ts ← Tree.ofText? text
  match ts with
  | t :: u :: rest =>
    match t.key, u.key with
    | "CREATE", "TABLE" => createTable? rest
    | "CREATE", "INDEX" => createIndex? rest
    | "DROP", "TABLE" => drop? .dropTable rest
    | "DROP", "INDEX" => drop? .dropIndex rest
    | "INSERT", "INTO" => insert? rest
    | "PRAGMA", "TABLE_INFO" =>
      match rest with
      | [.group _ inner _] => (argument? inner).map .describeTable
      | _ => none
    | _, _ => none
  | _ => none

end Statement
end VmFleet.Sql
