import VmFleet.Toml.Reader

/-!
# Quoted text in configuration files

Four ways to write a text: between double quotes with escapes, between single quotes as it stands,
and both of these over several lines between three quotes. A line feed right after three opening
quotes does not belong to the text, and every line end inside it counts as one line feed.
-/

set_option autoImplicit false

namespace VmFleet.Toml

def hexDigit? (c : Char) : Option Nat :=
  if c.isDigit then some (c.toNat - 48)
  else if 'a' ≤ c ∧ c ≤ 'f' then some (c.toNat - 87)
  else if 'A' ≤ c ∧ c ≤ 'F' then some (c.toNat - 55)
  else none

/-- The character whose code point has exactly `n` hexadecimal digits; surrogates and numbers beyond
the last code point are none. -/
def codePoint (n : Nat) : Reader Char := fun cs => do
  let digits ← (cs.take n).mapM hexDigit?
  let code := digits.foldl (fun acc d => acc * 16 + d) 0
  if digits.length = n ∧ code.isValidChar then some (Char.ofNat code, cs.drop n) else none

def escaped : Reader Char
  | 'b' :: cs => some ('\x08', cs)
  | 'f' :: cs => some ('\x0c', cs)
  | 'n' :: cs => some ('\n', cs)
  | 'r' :: cs => some ('\r', cs)
  | 't' :: cs => some ('\t', cs)
  | '"' :: cs => some ('"', cs)
  | '\\' :: cs => some ('\\', cs)
  | 'u' :: cs => codePoint 4 cs
  | 'U' :: cs => codePoint 8 cs
  | _ => none

def push (c : Char) (r : Option (List Char × List Char)) : Option (List Char × List Char) :=
  r.map fun p => (c :: p.1, p.2)

/-- The rest of a text on one line, up to its closing double quote. -/
def basicBody : Nat → Reader (List Char)
  | 0, _ => none
  | bound + 1, cs =>
    match cs with
    | '"' :: rest => some ([], rest)
    | '\\' :: rest => do
      let (c, rest) ← escaped rest
      push c (basicBody bound rest)
    | c :: rest => if isVisible c then push c (basicBody bound rest) else none
    | [] => none

/-- The rest of a text on one line, up to its closing single quote. -/
def literalBody : Reader (List Char)
  | '\'' :: rest => some ([], rest)
  | c :: rest => if isVisible c then push c (literalBody rest) else none
  | [] => none

def skipBlankLines : List Char → List Char
  | '\n' :: cs => skipBlankLines cs
  | '\r' :: '\n' :: cs => skipBlankLines cs
  | c :: cs => if isSpace c then skipBlankLines cs else c :: cs
  | [] => []

/-- A backslash at the end of a line, with the white space and the lines that follow it. -/
def lineContinuation (cs : List Char) : Option (List Char) :=
  (newline (skipSpace cs)).map skipBlankLines

/-- A run of quotes inside a text of several lines. One or two of them belong to the text; three end
it, and of four or five the first ones still belong to it. -/
inductive QuoteRun where
  | inside (count : Nat)
  | closing (count : Nat)

def quoteRun (quote : Char) (cs : List Char) : QuoteRun :=
  let n := (cs.takeWhile (· = quote)).length
  if n < 3 then .inside n else .closing (min n 5)

/-- The rest of a text over several lines, up to its three closing quotes. -/
def linesBody (quote : Char) (escapes : Bool) : Nat → Reader (List Char)
  | 0, _ => none
  | bound + 1, cs =>
    match cs with
    | [] => none
    | c :: rest =>
      if c = quote then
        match quoteRun quote cs with
        | .closing n => some (List.replicate (n - 3) quote, cs.drop n)
        | .inside n =>
          (linesBody quote escapes bound (cs.drop n)).map fun p =>
            (List.replicate n quote ++ p.1, p.2)
      else if c = '\\' ∧ escapes then
        match lineContinuation rest with
        | some rest => linesBody quote escapes bound rest
        | none => do
          let (c, rest) ← escaped rest
          push c (linesBody quote escapes bound rest)
      else match newline cs with
        | some rest => push '\n' (linesBody quote escapes bound rest)
        | none => if isVisible c then push c (linesBody quote escapes bound rest) else none

/-- Drops the line end right after three opening quotes. -/
def afterOpening (cs : List Char) : List Char := (newline cs).getD cs

def lineText : Reader String
  | '"' :: cs => (basicBody (cs.length + 1) cs).map fun p => (String.ofList p.1, p.2)
  | '\'' :: cs => (literalBody cs).map fun p => (String.ofList p.1, p.2)
  | _ => none

def text : Reader String
  | '"' :: '"' :: '"' :: cs =>
    let cs := afterOpening cs
    (linesBody '"' true (cs.length + 1) cs).map fun p => (String.ofList p.1, p.2)
  | '\'' :: '\'' :: '\'' :: cs =>
    let cs := afterOpening cs
    (linesBody '\'' false (cs.length + 1) cs).map fun p => (String.ofList p.1, p.2)
  | cs => lineText cs

end VmFleet.Toml
