/-!
# Tokens of statements

The text of a statement is cut into words, quoted names, literals and marks. Blanks and comments
stand between tokens; each token keeps what stands before it, so that the tokens of a text give the
text back. A zero character ends the text.
-/

set_option autoImplicit false

namespace VmFleet.Sql

inductive Kind where
  | word
  | quotedName
  | string
  | blob
  | number
  | groupedNumber
  | parameter
  | mark
  | invalid
  deriving DecidableEq, Repr

structure Token where
  gap : List Char
  kind : Kind
  text : List Char
  deriving DecidableEq, Repr

/-! ## Characters -/

def isBlank (c : Char) : Bool :=
  c = ' ' || c = '\t' || c = '\n' || c = '\x0b' || c = '\x0c' || c = '\r'

/-- Blanks may hold a vertical tab, but not start with one. -/
def startsBlank (c : Char) : Bool := isBlank c && c ≠ '\x0b'

def isHexDigit (c : Char) : Bool :=
  c.isDigit || ('a' ≤ c && c ≤ 'f') || ('A' ≤ c && c ≤ 'F')

/-- Every character beyond ASCII may stand in a name. -/
def isNameChar (c : Char) : Bool := c.isAlphanum || c = '_' || c = '$' || 0x80 ≤ c.toNat

def startsName (c : Char) : Bool := c.isAlpha || c = '_' || 0x80 ≤ c.toNat

/-! ## Blanks and comments -/

/-- A text cut in two: the longest start whose characters satisfy `p`, and the rest. -/
def cut (p : Char → Bool) (cs : List Char) : List Char × List Char :=
  (cs.takeWhile p, cs.dropWhile p)

/-- The characters up to the end of the comment; one that is not ended goes on to the end. -/
def comment : List Char → List Char × List Char
  | '*' :: '/' :: cs => (['*', '/'], cs)
  | c :: cs => let (inner, rest) := comment cs; (c :: inner, rest)
  | [] => ([], [])

def gap? : List Char → Option (List Char × List Char)
  | '-' :: '-' :: cs => let (inner, rest) := cut (· ≠ '\n') cs; some ('-' :: '-' :: inner, rest)
  | '/' :: '*' :: c :: cs =>
    let (inner, rest) := comment (c :: cs)
    some ('/' :: '*' :: inner, rest)
  | '\ufeff' :: cs => some (['\ufeff'], cs)
  | c :: cs => if startsBlank c then some (cut isBlank (c :: cs)) else none
  | [] => none

/-! ## Literals and quotes -/

/-- The characters up to the quote that closes; a doubled one belongs to the text. -/
def quoted (q : Char) : List Char → Option (List Char × List Char)
  | [] => none
  | [c] => if c = q then some ([c], []) else none
  | c :: d :: cs =>
    if c = q then
      if d = q then (quoted q cs).map fun (inner, rest) => (c :: d :: inner, rest)
      else some ([c], d :: cs)
    else (quoted q (d :: cs)).map fun (inner, rest) => (c :: inner, rest)

def quotedToken (kind : Kind) (q : Char) (cs : List Char) : Kind × List Char × List Char :=
  match quoted q cs with
  | some (inner, rest) => (kind, q :: inner, rest)
  | none => (.invalid, q :: cs, [])

def isDigitOrSeparator (c : Char) : Bool := c.isDigit || c = '_'

def fraction : List Char → List Char × List Char
  | '.' :: cs => let (digits, rest) := cut isDigitOrSeparator cs; ('.' :: digits, rest)
  | cs => ([], cs)

def exponent : List Char → List Char × List Char
  | e :: s :: d :: cs =>
    if e ≠ 'e' && e ≠ 'E' then ([], e :: s :: d :: cs)
    else if s.isDigit then
      let (digits, rest) := cut isDigitOrSeparator (s :: d :: cs)
      (e :: digits, rest)
    else if (s = '+' || s = '-') && d.isDigit then
      let (digits, rest) := cut isDigitOrSeparator (d :: cs)
      (e :: s :: digits, rest)
    else ([], e :: s :: d :: cs)
  | [e, d] => if (e = 'e' || e = 'E') && d.isDigit then ([e, d], []) else ([], [e, d])
  | cs => ([], cs)

def digits (cs : List Char) : List Char × List Char :=
  match cs with
  | '0' :: x :: d :: rest =>
    if (x = 'x' || x = 'X') && isHexDigit d then
      let (more, rest) := cut (fun c => isHexDigit c || c = '_') (d :: rest)
      ('0' :: x :: more, rest)
    else decimal cs
  | _ => decimal cs
where
  decimal (cs : List Char) : List Char × List Char :=
    let (whole, rest) := cut isDigitOrSeparator cs
    let (part, rest) := fraction rest
    let (power, rest) := exponent rest
    (whole ++ part ++ power, rest)

/-- A number; no name may follow it closely. -/
def numberToken (cs : List Char) : Kind × List Char × List Char :=
  let (number, rest) := digits cs
  let (more, after) := cut isNameChar rest
  if !more.isEmpty then (.invalid, number ++ more, after)
  else (if number.contains '_' then .groupedNumber else .number, number, rest)

/-- Bytes are written by pairs of hexadecimal digits. -/
def blobToken (x : Char) (cs : List Char) : Kind × List Char × List Char :=
  let (hex, rest) := cut isHexDigit cs
  match rest with
  | '\'' :: after =>
    (if hex.length % 2 = 0 then .blob else .invalid, x :: '\'' :: hex ++ ['\''], after)
  | _ => (.invalid, x :: '\'' :: hex, rest)

/-! ## Tokens -/

def token : List Char → Kind × List Char × List Char
  | [] => (.invalid, [], [])
  | '\'' :: cs => quotedToken .string '\'' cs
  | '"' :: cs => quotedToken .quotedName '"' cs
  | '`' :: cs => quotedToken .quotedName '`' cs
  | '[' :: cs =>
    match cut (· ≠ ']') cs with
    | (inner, ']' :: rest) => (.quotedName, '[' :: inner ++ [']'], rest)
    | (inner, rest) => (.invalid, '[' :: inner, rest)
  | 'x' :: '\'' :: cs => blobToken 'x' cs
  | 'X' :: '\'' :: cs => blobToken 'X' cs
  | '?' :: cs => let (number, rest) := cut Char.isDigit cs; (.parameter, '?' :: number, rest)
  | '-' :: '>' :: '>' :: cs => (.mark, ['-', '>', '>'], cs)
  | '-' :: '>' :: cs => (.mark, ['-', '>'], cs)
  | '=' :: '=' :: cs => (.mark, ['=', '='], cs)
  | '<' :: '=' :: cs => (.mark, ['<', '='], cs)
  | '<' :: '>' :: cs => (.mark, ['<', '>'], cs)
  | '<' :: '<' :: cs => (.mark, ['<', '<'], cs)
  | '>' :: '=' :: cs => (.mark, ['>', '='], cs)
  | '>' :: '>' :: cs => (.mark, ['>', '>'], cs)
  | '!' :: '=' :: cs => (.mark, ['!', '='], cs)
  | '|' :: '|' :: cs => (.mark, ['|', '|'], cs)
  | '.' :: d :: cs => if d.isDigit then numberToken ('.' :: d :: cs) else (.mark, ['.'], d :: cs)
  | c :: cs =>
    if c.isDigit then numberToken (c :: cs)
    else if startsName c then let (name, rest) := cut isNameChar (c :: cs); (.word, name, rest)
    else if c = '$' || c = '@' || c = ':' || c = '#' then
      let (name, rest) := cut isNameChar cs
      (if name.isEmpty then .invalid else .parameter, c :: name, rest)
    else if "()+-*/;%=<>|,&~.".toList.contains c then (.mark, [c], cs)
    else (.invalid, [c], cs)

/-- The tokens of a text after a gap, at most so many. -/
def scan : Nat → List Char → List Char → List Token
  | 0, _, _ => []
  | bound + 1, gap, cs =>
    match gap? cs with
    | some (more, rest) => scan bound (gap ++ more) rest
    | none =>
      if cs.isEmpty then []
      else
        let (kind, text, rest) := token cs
        ⟨gap, kind, text⟩ :: scan bound [] rest

def tokens (text : String) : List Token :=
  let cs := text.toList.takeWhile (· ≠ '\x00')
  scan cs.length [] cs

namespace Token

/-- What tells keywords and marks apart: case does not matter. Other tokens have none. -/
def key (t : Token) : String :=
  match t.kind with
  | .word => (String.ofList t.text).toUpper
  | .mark => String.ofList t.text
  | _ => ""

/-- What quotes stand for; text without quotes stands for itself. -/
def unquote (cs : List Char) : List Char :=
  match cs with
  | '[' :: rest => rest.takeWhile (· ≠ ']')
  | q :: rest => if q = '\'' || q = '"' || q = '`' then single q rest else cs
  | [] => []
where
  single (q : Char) : List Char → List Char
    | [] => []
    | [c] => if c = q then [] else [c]
    | c :: d :: cs =>
      if c = q then if d = q then q :: single q cs else []
      else c :: single q (d :: cs)

def name (t : Token) : String := String.ofList (unquote t.text)

/-- Words that are never names. -/
def reserved : List String :=
  ["ADD", "ALL", "ALTER", "AND", "AS", "AUTOINCREMENT", "BETWEEN", "CASE", "CHECK", "COLLATE",
   "COMMIT", "CONSTRAINT", "CREATE", "DEFAULT", "DEFERRABLE", "DELETE", "DISTINCT", "DROP", "ELSE",
   "ESCAPE", "EXCEPT", "EXISTS", "FOREIGN", "FROM", "GROUP", "HAVING", "IN", "INDEX", "INSERT",
   "INTERSECT", "INTO", "IS", "ISNULL", "JOIN", "LIMIT", "NOT", "NOTHING", "NOTNULL", "NULL", "ON",
   "OR", "ORDER", "PRIMARY", "REFERENCES", "RETURNING", "SELECT", "SET", "TABLE", "THEN", "TO",
   "TRANSACTION", "UNION", "UNIQUE", "UPDATE", "USING", "VALUES", "WHEN", "WHERE"]

/-- Words that are names of things, but not of types. -/
def joinWords : List String :=
  ["CROSS", "FULL", "INNER", "LEFT", "NATURAL", "OUTER", "RIGHT"]

def isName (t : Token) : Bool :=
  match t.kind with
  | .word => !reserved.contains t.key
  | .quotedName => true
  | .string => true
  | _ => false

def isTypeName (t : Token) : Bool :=
  t.isName && !joinWords.contains t.key && t.key ≠ "INDEXED"

end Token

def trimBlanks (cs : List Char) : List Char :=
  ((cs.dropWhile isBlank).reverse.dropWhile isBlank).reverse

end VmFleet.Sql
