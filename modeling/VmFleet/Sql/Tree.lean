import VmFleet.Sql.Token

/-!
# Tokens grouped by parentheses

Parentheses always come in pairs. A tree is a token or what stands between two of them, so that the
parts of a list are found by the commas at its top level.
-/

set_option autoImplicit false

namespace VmFleet.Sql

inductive Tree where
  | leaf (t : Token)
  /-- What stands between parentheses, after a gap and with a gap at the end. -/
  | group (gap : List Char) (inner : List Tree) (last : List Char)

namespace Tree

/-- Groups tokens; `outer` holds what stands before each parenthesis that is still open, and `done`
what was read since, both from the end. -/
def build (outer : List (List Char × List Tree)) (done : List Tree) :
    List Token → Option (List Tree)
  | [] => if outer.isEmpty then some done.reverse else none
  | t :: ts =>
    if t.key = "(" then build ((t.gap, done) :: outer) [] ts
    else if t.key = ")" then
      match outer with
      | [] => none
      | (gap, before) :: outer => build outer (.group gap done.reverse t.gap :: before) ts
    else build outer (.leaf t :: done) ts

def ofText? (text : String) : Option (List Tree) :=
  build [] [] ((tokens text).takeWhile fun t => t.key ≠ ";")

/-- What tells keywords, marks and groups apart. -/
def key : Tree → String
  | .leaf t => t.key
  | .group _ _ _ => "("

def gap : Tree → List Char
  | .leaf t => t.gap
  | .group gap _ _ => gap

mutual

/-- The text of a tree, without the gap before it. -/
def text : Tree → List Char
  | .leaf t => t.text
  | .group _ inner last => ['('] ++ textAll inner ++ last ++ [')']

def textAll : List Tree → List Char
  | [] => []
  | t :: ts => t.gap ++ t.text ++ textAll ts

end

def span : List Tree → List Char
  | [] => []
  | t :: ts => t.text ++ textAll ts

def parts (ts : List Tree) : List (List Tree) :=
  match ts with
  | [] => [[]]
  | t :: rest =>
    if t.key = "," then [] :: parts rest
    else match parts rest with
      | [] => [[t]]
      | first :: others => (t :: first) :: others

mutual

def size : Tree → Nat
  | .leaf _ => 1
  | .group _ inner _ => 2 + sizeAll inner

def sizeAll : List Tree → Nat
  | [] => 0
  | t :: ts => t.size + sizeAll ts

end

end Tree
end VmFleet.Sql
