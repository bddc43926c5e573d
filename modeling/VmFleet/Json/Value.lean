/-!
# Structured values

The values that messages carry. Integers are those of 64 bits, signed or not; every other number is
a floating-point number. The members of an object are kept in the byte order of their names, each
name once.
-/

set_option autoImplicit false

namespace VmFleet

inductive Json where
  | null
  | bool (b : Bool)
  | int (n : Int)
  | real (x : Float)
  | str (s : String)
  | arr (items : List Json)
  | obj (members : List (String × Json))

namespace Json

instance : Inhabited Json := ⟨.null⟩

/-- An integer literal; one that has no 64-bit form becomes a floating-point number. -/
def ofInteger (n : Int) : Json :=
  if -0x8000000000000000 ≤ n ∧ n < 0x10000000000000000 then .int n else .real (Float.ofInt n)

/-- Adds a member at its place; a later member of the same name replaces the earlier one. -/
def insertMember (name : String) (value : Json) : List (String × Json) → List (String × Json)
  | [] => [(name, value)]
  | (n, v) :: rest =>
    if name < n then (name, value) :: (n, v) :: rest
    else if name = n then (name, value) :: rest
    else (n, v) :: insertMember name value rest

/-- The object with the given members, in any order. -/
def ofMembers (members : List (String × Json)) : Json :=
  .obj (members.foldl (fun acc m => insertMember m.1 m.2 acc) [])

def member? (name : String) : Json → Option Json
  | .obj ms => ms.lookup name
  | _ => none

end Json
end VmFleet
