import VmFleet.Toml.Number
import VmFleet.Toml.Text

/-!
# Configuration documents

A document is a sequence of lines: headers that open a table, headers that add a table to an array
of tables, and assignments to a path inside the table opened last. A table comes into being in one
of three ways, and this decides what may still be added to it.
-/

set_option autoImplicit false

namespace VmFleet.Toml

/-- How a table came into being: by a header of its own or by braces, by a header of one of its
descendants, or by a dotted path on the left of an assignment. -/
inductive Origin where
  | written
  | implied
  | dotted
  deriving DecidableEq, Repr

/-- A document under construction. The tables of an array are kept newest first. -/
inductive Draft where
  | value (v : Value)
  | table (origin : Origin) (entries : List (String × Draft))
  | tables (newestFirst : List (List (String × Draft)))

abbrev Entries : Type := List (String × Draft)

def setEntry (name : String) (d : Draft) : Entries → Entries
  | [] => [(name, d)]
  | e :: es => if e.1 = name then (name, d) :: es else e :: setEntry name d es

/-- Assigns a value. Each step of the path makes a table, or enters one that was not written out;
the last table on the path must be of this kind of assignments. -/
def assign (name : String) (v : Value) : List String → Entries → Option Entries
  | [], es =>
    match es.lookup name with
    | some _ => none
    | none => some (es ++ [(name, .value v)])
  | step :: path, es =>
    match es.lookup step with
    | none => do
      let inner ← assign name v path []
      some (es ++ [(step, .table .dotted inner)])
    | some (.table origin inner) =>
      if origin = .written ∨ (path = [] ∧ origin ≠ .dotted) then none
      else do
        let inner ← assign name v path inner
        some (setEntry step (.table origin inner) es)
    | some (.tables (newest :: older)) =>
      if path = [] then none
      else do
        let newest ← assign name v path newest
        some (setEntry step (.tables (newest :: older)) es)
    | some _ => none

/-- Changes the table that a header's path leads to. Steps that lead nowhere yet make a table; an
array of tables is entered at its newest one. -/
def within (change : Entries → Option Entries) : List String → Entries → Option Entries
  | [], es => change es
  | step :: path, es =>
    match es.lookup step with
    | none => do
      let inner ← within change path []
      some (es ++ [(step, .table .implied inner)])
    | some (.table origin inner) => do
      let inner ← within change path inner
      some (setEntry step (.table origin inner) es)
    | some (.tables (newest :: older)) => do
      let newest ← within change path newest
      some (setEntry step (.tables (newest :: older)) es)
    | some _ => none

/-- Opens a table: a new one, or one that only headers of its descendants have made so far. -/
def openTable (name : String) (es : Entries) : Option Entries :=
  match es.lookup name with
  | none => some (es ++ [(name, .table .written [])])
  | some (.table .implied inner) => some (setEntry name (.table .written inner) es)
  | some _ => none

def openElement (name : String) (es : Entries) : Option Entries :=
  match es.lookup name with
  | none => some (es ++ [(name, .tables [[]])])
  | some (.tables elements) => some (setEntry name (.tables ([] :: elements)) es)
  | some _ => none

mutual

def Draft.toValue : Draft → Value
  | .value v => v
  | .table _ es => .table (entriesToValues es)
  | .tables elements => .arr (elementsToValues elements [])

def entriesToValues : List (String × Draft) → List (String × Value)
  | [] => []
  | (name, d) :: es => (name, d.toValue) :: entriesToValues es

/-- Turns the tables round, oldest first. -/
def elementsToValues : List (List (String × Draft)) → List Value → List Value
  | [], acc => acc
  | es :: older, acc => elementsToValues older (.table (entriesToValues es) :: acc)

end

/-! ## Keys and values -/

/-- How deep arrays and braces may nest, and how many parts a path may have. -/
def maxDepth : Nat := 79

def isBareKeyChar (c : Char) : Bool := c.isAlphanum || c = '-' || c = '_'

def simpleKey : Reader String
  | [] => none
  | c :: cs =>
    if c = '"' || c = '\'' then lineText (c :: cs)
    else
      match span isBareKeyChar (c :: cs) with
      | ([], _) => none
      | (word, rest) => some (String.ofList word, rest)

def paddedKey : Reader String := fun cs =>
  (simpleKey (skipSpace cs)).map fun p => (p.1, skipSpace p.2)

def keyPath : Reader (List String × String) := fun cs =>
  match separated '.' paddedKey cs.length cs with
  | (keys, rest) =>
    match keys.getLast? with
    | some last => if keys.length ≤ maxDepth then some ((keys.dropLast, last), rest) else none
    | none => none

def arrayItems (value : Reader Value) : Reader Value := fun cs =>
  let item : Reader Value := fun cs =>
    (value (skipBetween cs)).map fun p => (p.1, skipBetween p.2)
  let (items, rest) := separated ',' item cs.length cs
  let rest := match items, rest with
    | _ :: _, ',' :: rest => rest
    | _, rest => rest
  match skipBetween rest with
  | ']' :: rest => some (.arr items, rest)
  | _ => none

def assignment (value : Reader Value) : Reader ((List String × String) × Value) := fun cs => do
  let (path, rest) ← keyPath cs
  match rest with
  | '=' :: rest => do
    let (v, rest) ← value (skipSpace rest)
    some ((path, v), skipSpace rest)
  | _ => none

def ofAssignments (as : List ((List String × String) × Value)) : Option Entries :=
  as.foldlM (fun es a => assign a.1.2 a.2 a.1.1 es) []

def braceItems (value : Reader Value) : Reader Value := fun cs => do
  let (items, rest) := separated ',' (assignment value) cs.length cs
  let es ← ofAssignments items
  match skipSpace rest with
  | '\x7d' :: rest => some (.table (entriesToValues es), rest)
  | _ => none

def scalar : Reader Value
  | [] => none
  | c :: cs =>
    if c = '"' || c = '\'' then (text (c :: cs)).map fun p => (.str p.1, p.2)
    else if c.isDigit || c = '+' || c = '-' then number (c :: cs)
    else
      ((literal "true" (c :: cs)).map fun p => (.bool true, p.2)).or
        (((literal "false" (c :: cs)).map fun p => (.bool false, p.2)).or (specialFloat (c :: cs)))

/-- A value in which arrays and braces nest at most so deep. -/
def value : Nat → Reader Value
  | 0, cs => scalar cs
  | depth + 1, cs =>
    match cs with
    | '[' :: rest => arrayItems (value depth) rest
    | '\x7b' :: rest => braceItems (value depth) rest
    | cs => scalar cs

/-! ## Lines -/

inductive Line where
  | header (path : List String) (name : String)
  | element (path : List String) (name : String)
  | assign (path : List String) (name : String) (v : Value)

/-- A header or an assignment, with everything up to the end of its line. -/
def line (cs : List Char) : Option (Line × List Char) := do
  let (l, rest) ← match cs with
    | '[' :: '[' :: rest => do
      let (path, rest) ← keyPath rest
      let (_, rest) ← literal "]]" rest
      some (Line.element path.1 path.2, rest)
    | '[' :: rest => do
      let (path, rest) ← keyPath rest
      let (_, rest) ← literal "]" rest
      some (Line.header path.1 path.2, rest)
    | cs => do
      let ((path, v), rest) ← assignment (value maxDepth) cs
      some (Line.assign path.1 path.2 v, rest)
  let rest ← lineEnd rest
  some (l, rest)

def lines : Nat → List Char → Option (List Line)
  | 0, cs => if cs.isEmpty then some [] else none
  | bound + 1, cs =>
    match skipSpace cs with
    | [] => some []
    | '#' :: rest => (lineEnd ('#' :: rest)).bind (lines bound)
    | c :: rest =>
      match newline (c :: rest) with
      | some rest => lines bound rest
      | none => do
        let (l, rest) ← line (c :: rest)
        let ls ← lines bound rest
        some (l :: ls)

structure Building where
  root : Entries
  current : List String

def Building.add (b : Building) : Line → Option Building
  | .header path name => do
    let root ← within (openTable name) path b.root
    some ⟨root, path ++ [name]⟩
  | .element path name => do
    let root ← within (openElement name) path b.root
    some ⟨root, path ++ [name]⟩
  | .assign path name v => do
    let root ← within (assign name v path) b.current b.root
    some ⟨root, b.current⟩

def Building.addAll (b : Building) : List Line → Option Building
  | [] => some b
  | l :: ls => (b.add l).bind fun b => b.addAll ls

/-- Reads a document; a byte order mark at its beginning is passed over. -/
def parse (s : String) : Option Value :=
  let cs := match s.toList with
    | '\ufeff' :: cs => cs
    | cs => cs
  ((lines (cs.length + 1) cs).bind (Building.addAll ⟨[], []⟩)).map fun b =>
    .table (entriesToValues b.root)

end VmFleet.Toml
