/-!
# Configuration values

What a configuration file can hold. Numbers that are not integers and points in time are kept as
they were written, since no setting has such a type.
-/

set_option autoImplicit false

namespace VmFleet.Toml

inductive Value where
  | str (s : String)
  | int (n : Int)
  | float (literal : String)
  | bool (b : Bool)
  | time (literal : String)
  | arr (items : List Value)
  | table (entries : List (String × Value))

/-- The fields of a record. A record may be written as an array of its fields in the order of
`names`; what is missing stays absent, what is left over is passed over. A point in time has none of
the fields. -/
def Value.fields (names : List String) : Value → Option (List (String × Value))
  | .table entries => some entries
  | .arr items => some (names.zip items)
  | .time _ => some []
  | _ => none

def Value.text? : Value → Option String
  | .str s => some s
  | _ => none

def Value.bool? : Value → Option Bool
  | .bool b => some b
  | _ => none

def Value.nat? : Value → Option Nat
  | .int n => if 0 ≤ n then some n.toNat else none
  | _ => none

/-- An absent field is fine; one of the wrong type is not. -/
def field? {α : Type} (entries : List (String × Value)) (name : String) (read : Value → Option α) :
    Option (Option α) :=
  match entries.lookup name with
  | none => some none
  | some v => (read v).map some

end VmFleet.Toml
