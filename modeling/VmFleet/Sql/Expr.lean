import VmFleet.Sql.Tree

/-!
# Expressions

What an expression refers to: columns and functions. Its value is of no concern here, so operators
keep only their operands. Two simplifications are made while reading, since they drop what they
replace: a conjunction with a literal zero is zero, and nothing is in an empty list.
-/

set_option autoImplicit false

namespace VmFleet.Sql

inductive Quote where
  | none
  /-- In double quotes: stands for a text if it names nothing. -/
  | double
  /-- In backticks or brackets. -/
  | other
  deriving DecidableEq, Repr

inductive Expr where
  | literal
  /-- The literal zero, or what is known to be false. -/
  | zero
  | string (text : String)
  | name (text : String) (quote : Quote)
  /-- A column by the name of its table, maybe with the schema in front. -/
  | qualified (path : List String)
  | raise
  /-- A call; one with an order for its arguments is not plain. -/
  | call (function : String) (args : List Expr) (isPlain : Bool)
  | collate (e : Expr) (collation : String)
  | row (parts : List Expr)
  /-- Operands that are compared with one another. -/
  | comparison (parts : List Expr)
  | compound (parts : List Expr)

/-- A term of a list of columns, as keys and indices have them. -/
structure Term where
  expr : Expr
  isDescending : Bool
  /-- Whether it says where missing values go. -/
  placesNulls : Bool

namespace Expr

/-- How strongly the operators that take two operands bind. -/
def levelOf? (key : String) : Option Nat :=
  match key with
  | "OR" => some 1
  | "AND" => some 2
  | "=" | "==" | "<>" | "!=" => some 4
  | "<" | "<=" | ">" | ">=" => some 5
  | "&" | "|" | "<<" | ">>" => some 7
  | "+" | "-" => some 8
  | "*" | "/" | "%" => some 9
  | "||" | "->" | "->>" => some 10
  | _ => none

def lowest : Nat := 1

/-- The level of a negation, in front of its operand or behind it. -/
def negation : Nat := 3

def comparing : Nat := 4

def collating : Nat := 11

def sign : Nat := 12

def both (a b : Expr) : Expr :=
  match a, b with
  | .zero, _ => .zero
  | _, .zero => .zero
  | _, _ => .compound [a, b]

def binary (key : String) (level : Nat) (a b : Expr) : Expr :=
  if key = "AND" then both a b
  else if level = 4 || level = 5 then .comparison [a, b]
  else if key = "->" || key = "->>" then .call key [a, b] true
  else .compound [a, b]

def after? (key : String) : List Tree → Option (List Tree)
  | t :: rest => if t.key = key then some rest else none
  | [] => none

def skip (key : String) (ts : List Tree) : List Tree := (after? key ts).getD ts

def startsWith (keys : List String) : List Tree → Bool
  | t :: _ => keys.contains t.key
  | [] => false

def matchingWords : List String := ["LIKE", "GLOB", "REGEXP", "MATCH"]

/-! ## Numbers and types -/

/-- Every separator stands between two digits. -/
def separates (p : Char → Bool) : List Char → Bool
  | a :: b :: rest =>
    (b ≠ '_' || (p a && match rest with
      | c :: _ => p c
      | [] => false)) && separates p (b :: rest)
  | _ => true

/-- Whether the separators of a number stand where they may. -/
def isGrouped (cs : List Char) : Bool :=
  match cs with
  | '0' :: 'x' :: _ => separates isHexDigit cs
  | '0' :: 'X' :: _ => separates isHexDigit cs
  | _ => separates Char.isDigit cs

def isZero (cs : List Char) : Bool :=
  match cs with
  | '0' :: x :: rest => if x = 'x' || x = 'X' then rest.all (· = '0') else cs.all (· = '0')
  | _ => cs.all (· = '0')

def isNumber (t : Tree) : Bool :=
  match t with
  | .leaf t => t.kind = .number
  | .group _ _ _ => false

/-- A number with at most one sign before it. -/
def isSigned : List Tree → Bool
  | [t] => isNumber t
  | [s, t] => (s.key = "+" || s.key = "-") && isNumber t
  | _ => false

def isTypeTree : Tree → Bool
  | .leaf t => t.isTypeName
  | .group _ _ _ => false

/-- The trees of a type, and the rest: names, and maybe one or two numbers in parentheses. -/
def typeTrees? (ts : List Tree) : Option (List Tree × List Tree) :=
  let names := ts.takeWhile isTypeTree
  match names, ts.dropWhile isTypeTree with
  | [], rest => some ([], rest)
  | names, .group gap inner last :: rest =>
    let sizes := Tree.parts inner
    if sizes.length ≤ 2 && sizes.all isSigned then some (names ++ [.group gap inner last], rest)
    else none
  | names, rest => some (names, rest)

/-! ## Reading -/

def literal? (t : Token) : Option Expr :=
  match t.kind with
  | .string => some (.string t.name)
  | .number => some (if isZero t.text then .zero else .literal)
  | .groupedNumber => if isGrouped t.text then some .literal else none
  | .blob => some .literal
  | .word =>
    if t.key = "NULL" then some .literal
    else if ["CURRENT_DATE", "CURRENT_TIME", "CURRENT_TIMESTAMP"].contains t.key then
      some (.call t.name [] true)
    else none
  | _ => none

def quoteOf (t : Token) : Quote :=
  match t.kind, t.text with
  | .quotedName, '"' :: _ => .double
  | .quotedName, _ => .other
  | _, _ => .none

/-- Words that an operand may start with but that name nothing there. -/
def operandWords : List String :=
  ["CAST", "RAISE", "CURRENT_DATE", "CURRENT_TIME", "CURRENT_TIMESTAMP"]

def isOperandName (t : Token) : Bool :=
  t.isName && t.kind ≠ .string && !operandWords.contains t.key

def path? (t : Token) (rest : List Tree) : Option (Expr × List Tree) :=
  match rest with
  | .leaf d :: .leaf u :: .leaf e :: .leaf v :: rest =>
    if d.key = "." && u.isName then
      if e.key = "." && v.isName then some (.qualified [t.name, u.name, v.name], rest)
      else some (.qualified [t.name, u.name], .leaf e :: .leaf v :: rest)
    else none
  | .leaf d :: .leaf u :: rest =>
    if d.key = "." && u.isName then some (.qualified [t.name, u.name], rest) else none
  | _ => none

def term (e : Expr) (ts : List Tree) : Term × List Tree :=
  let rest := if startsWith ["ASC", "DESC"] ts then ts.drop 1 else ts
  let descending := startsWith ["DESC"] ts
  match after? "NULLS" rest with
  | some after =>
    if startsWith ["FIRST", "LAST"] after then (⟨e, descending, true⟩, after.drop 1)
    else (⟨e, descending, false⟩, rest)
  | none => (⟨e, descending, false⟩, rest)

mutual

/-- Reads an operand and the operators after it that bind at least as strongly as `level`. -/
def read : Nat → Nat → List Tree → Option (Expr × List Tree)
  | 0, _, _ => none
  | n + 1, level, ts => do
    let (e, rest) ← readOperand n ts
    readOperators n level e rest

def readOperand : Nat → List Tree → Option (Expr × List Tree)
  | 0, _ => none
  | _, [] => none
  | n + 1, .group _ inner _ :: rest => do
    if startsWith ["SELECT", "VALUES", "WITH"] inner then none
    match ← readParts n (Tree.parts inner) with
    | [e] => some (e, rest)
    | es => some (.row es, rest)
  | n + 1, .leaf t :: rest =>
    match t.key with
    | "-" | "+" | "~" => (read n sign rest).map fun (e, rest) => (.compound [e], rest)
    | "NOT" => (read n negation rest).map fun (e, rest) => (.compound [e], rest)
    | "CASE" => readCase n rest
    | "CAST" =>
      match rest with
      | .group _ inner _ :: rest => do
        let (e, after) ← read n lowest inner
        let (_, after) ← (after? "AS" after).bind typeTrees?
        if after.isEmpty then some (.compound [e], rest) else none
      | _ => none
    | "RAISE" =>
      match rest with
      | .group _ inner _ :: rest =>
        match Tree.parts inner with
        | [[t]] => if t.key = "IGNORE" then some (.raise, rest) else none
        | [[t], message] =>
          if ["ROLLBACK", "ABORT", "FAIL"].contains t.key then
            (readWhole n message).map fun e => (.compound [.raise, e], rest)
          else none
        | _ => none
      | _ => none
    | _ =>
      match if t.isName then path? t rest else none with
      | some found => some found
      | none =>
        match literal? t with
        | some e => some (e, rest)
        | none =>
          if isOperandName t then
            match rest with
            | .group _ inner _ :: rest => (readCall n t.name inner).map fun e => (e, rest)
            | rest => some (.name t.name (quoteOf t), rest)
          else none

def readWhole : Nat → List Tree → Option Expr
  | 0, _ => none
  | n + 1, ts => do
    let (e, rest) ← read n lowest ts
    if rest.isEmpty then some e else none

def readParts : Nat → List (List Tree) → Option (List Expr)
  | _, [] => some []
  | 0, _ => none
  | n + 1, p :: ps => do
    let e ← readWhole n p
    let es ← readParts n ps
    some (e :: es)

def readCall : Nat → String → List Tree → Option Expr
  | 0, _, _ => none
  | n + 1, function, inner =>
    match inner with
    | [] => some (.call function [] true)
    | [.leaf t] =>
      if t.key = "*" || t.key = "DISTINCT" || t.key = "ALL" then some (.call function [] true)
      else (readArguments n [inner]).map fun (args, isPlain) => .call function args isPlain
    | inner =>
      (readArguments n (Tree.parts (if startsWith ["DISTINCT", "ALL"] inner then inner.drop 1
        else inner))).map fun (args, isPlain) => .call function args isPlain

/-- The arguments of a call; an order may follow the last one. -/
def readArguments : Nat → List (List Tree) → Option (List Expr × Bool)
  | _, [] => some ([], true)
  | 0, _ => none
  | n + 1, p :: ps => do
    let (e, rest) ← read n lowest p
    match rest with
    | [] =>
      let (es, isPlain) ← readArguments n ps
      some (e :: es, isPlain)
    | rest =>
      let order ← (after? "ORDER" rest).bind (after? "BY")
      let terms ← readTerms n (order :: ps)
      some (e :: terms.map Term.expr, false)

def readTerms : Nat → List (List Tree) → Option (List Term)
  | _, [] => some []
  | 0, _ => none
  | n + 1, p :: ps => do
    let (e, rest) ← read n lowest p
    let (t, rest) := term e rest
    if !rest.isEmpty then none
    let ts ← readTerms n ps
    some (t :: ts)

def readCase : Nat → List Tree → Option (Expr × List Tree)
  | 0, _ => none
  | n + 1, ts =>
    if startsWith ["WHEN"] ts then readBranches n [] ts
    else do
      let (e, rest) ← read n lowest ts
      if startsWith ["WHEN"] rest then readBranches n [e] rest else none

def readBranches : Nat → List Expr → List Tree → Option (Expr × List Tree)
  | 0, _, _ => none
  | n + 1, es, ts =>
    match after? "WHEN" ts with
    | some rest => do
      let (condition, rest) ← read n lowest rest
      let rest ← after? "THEN" rest
      let (value, rest) ← read n lowest rest
      readBranches n (es ++ [condition, value]) rest
    | none =>
      match after? "ELSE" ts with
      | some rest => do
        let (value, rest) ← read n lowest rest
        let rest ← after? "END" rest
        some (.compound (es ++ [value]), rest)
      | none => (after? "END" ts).map fun rest => (.compound es, rest)

def readOperators : Nat → Nat → Expr → List Tree → Option (Expr × List Tree)
  | 0, _, _, _ => none
  | _, _, left, [] => some (left, [])
  | n + 1, level, left, t :: rest =>
    match levelOf? t.key with
    | some l =>
      if level ≤ l then do
        let (right, rest) ← read n (l + 1) rest
        readOperators n level (binary t.key l left right) rest
      else some (left, t :: rest)
    | none =>
      match t.key with
      | "COLLATE" =>
        if level ≤ collating then
          match rest with
          | .leaf c :: rest =>
            if c.isTypeName then readOperators n level (.collate left c.name) rest else none
          | _ => none
        else some (left, t :: rest)
      | "ISNULL" | "NOTNULL" =>
        if level ≤ comparing then readOperators n level (.compound [left]) rest
        else some (left, t :: rest)
      | "IS" =>
        if level ≤ comparing then do
          let rest := skip "NOT" rest
          let rest ← match after? "DISTINCT" rest with
            | some after => after? "FROM" after
            | none => some rest
          let (right, rest) ← read n (comparing + 1) rest
          readOperators n level (.comparison [left, right]) rest
        else some (left, t :: rest)
      | "NOT" =>
        if level ≤ negation then
          match after? "NULL" rest with
          | some rest => readOperators n level (.compound [left]) rest
          | none => readRelation n level true left rest
        else some (left, t :: rest)
      | "LIKE" | "GLOB" | "REGEXP" | "MATCH" | "BETWEEN" | "IN" =>
        if level ≤ comparing then readRelation n level false left (t :: rest)
        else some (left, t :: rest)
      | _ => some (left, t :: rest)

/-- A match, a range or a list of values after its left operand, and the operators after that. -/
def readRelation : Nat → Nat → Bool → Expr → List Tree → Option (Expr × List Tree)
  | 0, _, _, _, _ => none
  | _, _, _, _, [] => none
  | n + 1, level, isNegated, left, t :: rest =>
    if t.key = "BETWEEN" then do
      let (low, rest) ← read n negation rest
      let (low, rest) ← readAlternatives n low rest
      let rest ← after? "AND" rest
      let (high, rest) ← read n (comparing + 1) rest
      readOperators n level (.comparison [left, low, high]) rest
    else if t.key = "IN" then
      match rest with
      | .group _ inner _ :: rest => do
        if startsWith ["SELECT", "VALUES", "WITH"] inner then none
        if inner.isEmpty then readOperators n level (if isNegated then .literal else .zero) rest
        else
          let es ← readParts n (Tree.parts inner)
          match left with
          | .row _ => none
          | left => readOperators n level (.compound (left :: es)) rest
      | _ => none
    else if matchingWords.contains t.key then do
      let (right, rest) ← read n (comparing + 1) rest
      match after? "ESCAPE" rest with
      | some rest => do
        let (character, rest) ← read n (comparing + 1) rest
        readOperators n level (.call t.key [right, left, character] true) rest
      | none => readOperators n level (.call t.key [right, left] true) rest
    else none

/-- The lower end of a range goes on after a disjunction. -/
def readAlternatives : Nat → Expr → List Tree → Option (Expr × List Tree)
  | 0, _, _ => none
  | n + 1, e, ts =>
    match after? "OR" ts with
    | some rest => do
      let (f, rest) ← read n 2 rest
      readAlternatives n (.compound [e, f]) rest
    | none => some (e, ts)

end

/-- A bound that no reading of the trees meets. -/
def boundOf (ts : List Tree) : Nat := 8 * Tree.sizeAll ts + 16

def ofTrees? (ts : List Tree) : Option Expr := readWhole (boundOf ts) ts

def termsOf? (ts : List Tree) : Option (List Term) := readTerms (boundOf ts) (Tree.parts ts)

/-! ## Constants -/

def isTruth (text : String) : Bool := text.toLower = "true" || text.toLower = "false"

mutual

/-- Whether the value depends on no column. Functions are not looked up. -/
def isConstant : Expr → Bool
  | .literal | .zero | .string _ => true
  | .name text quote => quote = .none && isTruth text
  | .qualified _ => false
  | .raise => false
  | .call _ args _ => areConstant args
  | .collate e _ => isConstant e
  | .row parts => areConstant parts
  | .comparison parts => areConstant parts
  | .compound parts => areConstant parts

def areConstant : List Expr → Bool
  | [] => true
  | e :: es => isConstant e && areConstant es

end

end Expr
end VmFleet.Sql
