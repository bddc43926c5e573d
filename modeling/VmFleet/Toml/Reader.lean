/-!
# Readers

A reader takes something off the front of a text and gives back what is left. Repetition is bounded
by the length of the text: every round takes at least one character, so the bound is never met.
-/

set_option autoImplicit false

namespace VmFleet.Toml

abbrev Reader (α : Type) : Type := List Char → Option (α × List Char)

def span (p : Char → Bool) (cs : List Char) : List Char × List Char :=
  (cs.takeWhile p, cs.dropWhile p)

def isSpace (c : Char) : Bool := c = ' ' || c = '\t'

def skipSpace (cs : List Char) : List Char := cs.dropWhile isSpace

def afterWord (word cs : List Char) : Option (List Char) :=
  if word.isPrefixOf cs then some (cs.drop word.length) else none

def literal (word : String) : Reader Unit := fun cs =>
  (afterWord word.toList cs).map fun rest => ((), rest)

/-- A line feed, with or without a carriage return before it. -/
def newline : List Char → Option (List Char)
  | '\n' :: cs => some cs
  | '\r' :: '\n' :: cs => some cs
  | _ => none

/-- Whether a character may stand in a comment or between quotes: a tab, or anything that is not a
control character. -/
def isVisible (c : Char) : Bool := c = '\t' || (0x20 ≤ c.toNat && c.toNat ≠ 0x7F)

def skipComment : List Char → List Char
  | '#' :: cs => cs.dropWhile isVisible
  | cs => cs

/-- Spaces, an optional comment, and the end of the line or of the text. -/
def lineEnd (cs : List Char) : Option (List Char) :=
  match skipComment (skipSpace cs) with
  | [] => some []
  | cs => newline cs

/-- Skips white space, line ends and comments. -/
def skipLines : Nat → List Char → List Char
  | 0, cs => cs
  | bound + 1, cs =>
    match cs with
    | '#' :: rest => skipLines bound (rest.dropWhile isVisible)
    | c :: rest =>
      if isSpace c then skipLines bound rest
      else match newline (c :: rest) with
        | some rest => skipLines bound rest
        | none => c :: rest
    | [] => []

def skipBetween (cs : List Char) : List Char := skipLines cs.length cs

/-- The items read by `item`, each but the last followed by `separator`; none at all is fine. A
separator that no item follows is left in the text. -/
def separated {α : Type} (separator : Char) (item : Reader α) : Nat → List Char → List α × List Char
  | 0, cs => ([], cs)
  | bound + 1, cs =>
    match item cs with
    | none => ([], cs)
    | some (a, rest) =>
      match rest with
      | c :: after =>
        if c = separator then
          match separated separator item bound after with
          | ([], _) => ([a], rest)
          | (as, rest) => (a :: as, rest)
        else ([a], rest)
      | [] => ([a], rest)

end VmFleet.Toml
