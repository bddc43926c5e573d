import VmFleet.Sql.Token

/-!
# Names of types

A declared type is reported as it was written, but for three rules: words that announce a computed
column are not part of it, quotes around it are taken off, and the types that the engine knows have
the engine's own spelling.
-/

set_option autoImplicit false

namespace VmFleet.Sql.TypeName

/-- The types that the engine reports by its own spelling. -/
def known : List String := ["ANY", "BLOB", "INT", "INTEGER", "REAL", "TEXT"]

def trimEnd (cs : List Char) : List Char := (cs.reverse.dropWhile isBlank).reverse

def byteCount (cs : List Char) : Nat := (String.ofList cs).utf8ByteSize

def before? (word : String) (cs : List Char) : Option (List Char) :=
  let start := cs.take (cs.length - word.length)
  if (String.ofList (cs.drop start.length)).toLower = word then some start else none

/-- The type without the words for a computed column; short types are left alone. -/
def withoutAnnouncement (cs : List Char) : List Char :=
  if byteCount cs < 16 then cs
  else match before? "always" cs with
    | none => cs
    | some start =>
      let start := trimEnd start
      match before? "generated" start with
      | none => start
      | some first => trimEnd first

def isQuote (c : Char) : Bool := c = '\'' || c = '"' || c = '`' || c = '['

/-- The text without its first and last character, if it starts with a quote and has no other. -/
def unwrap (cs : List Char) : List Char :=
  match cs with
  | q :: c :: rest =>
    let inner := (c :: rest).dropLast
    if isQuote q && !inner.any isQuote then inner else cs
  | _ => cs

/-- The type as it is reported. -/
def reported (written : List Char) : String :=
  let cs := withoutAnnouncement written
  let cs := if byteCount cs < 3 then cs else unwrap cs
  let name := String.ofList cs
  (known.find? fun t => t = name.toUpper).getD (String.ofList (Token.unquote cs))

end VmFleet.Sql.TypeName
