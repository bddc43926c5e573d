import VmFleet.Json.Value
import VmFleet.Text.Quoted
import VmFleet.Text.Shortest

/-!
# Reading typed values

A record is read from an object or from an array of its fields in the order of their declaration.
The members of an object are looked at in their order, unknown ones are passed over, and the first
problem is the error; a field that is absent is noticed only after that. A choice is written as its
name or as an object with that name as its only member and null as its value.
-/

set_option autoImplicit false

namespace VmFleet.Json

/-- What a value is, as far as a message about it goes. -/
inductive Shape where
  | null
  | bool (b : Bool)
  | int (n : Int)
  | real (x : Float)
  | str (s : String)
  | sequence
  | map

def shape : Json → Shape
  | .null => .null
  | .bool b => .bool b
  | .int n => .int n
  | .real x => .real x
  | .str s => .str s
  | .arr _ => .sequence
  | .obj _ => .map

def Shape.text : Shape → String
  | .null => "null"
  | .bool b => s!"boolean `{b}`"
  | .int n => s!"integer `{n}`"
  | .real x => s!"floating point `{Text.Shortest.messageText x}`"
  | .str s => s!"string {Text.Quoted.quote s}"
  | .sequence => "sequence"
  | .map => "map"

inductive DecodeError where
  | invalidType (found : Shape) (expected : String)
  | invalidValue (found : Shape) (expected : String)
  | missingField (name : String)
  | tooShort (given : Nat) (expected : String)
  | tooLong (given : Nat)
  | unknownVariant (given : String) (names : List String)

def backquoted (s : String) : String := s!"`{s}`"

/-- Two names are joined by `or`, more are listed. -/
def expectedNames : List String → String
  | [a, b] => s!"{backquoted a} or {backquoted b}"
  | names => "one of " ++ ", ".intercalate (names.map backquoted)

def DecodeError.message : DecodeError → String
  | .invalidType found expected => s!"invalid type: {found.text}, expected {expected}"
  | .invalidValue found expected => s!"invalid value: {found.text}, expected {expected}"
  | .missingField name => s!"missing field {backquoted name}"
  | .tooShort given expected => s!"invalid length {given}, expected {expected}"
  | .tooLong given => s!"invalid length {given}, expected fewer elements in array"
  | .unknownVariant given names =>
    s!"unknown variant {backquoted given}, expected {expectedNames names}"

abbrev Decoder (α : Type) : Type := Json → Except DecodeError α

def text : Decoder String
  | .str s => .ok s
  | v => .error (.invalidType v.shape "a string")

def any : Decoder Json := .ok

def word16 : Decoder Nat
  | .int n =>
    if 0 ≤ n ∧ n < 65536 then .ok n.toNat else .error (.invalidValue (.int n) "u16")
  | v => .error (.invalidType v.shape "u16")

def variant {α : Type} (choices : List (String × α)) (name : String) : Except DecodeError α :=
  match choices.lookup name with
  | some a => .ok a
  | none => .error (.unknownVariant name (choices.map Prod.fst))

def choice {α : Type} (choices : List (String × α)) : Decoder α
  | .str s => variant choices s
  | .obj [(name, value)] => do
    let a ← variant choices name
    match value with
    | .null => .ok a
    | v => .error (.invalidType v.shape "unit")
  | .obj _ => .error (.invalidValue .map "map with a single key")
  | v => .error (.invalidType v.shape "string or map")

/-- The name of a record type in messages and its fields in declaration order, each with the check
that its value has the right type. -/
structure RecordShape where
  name : String
  fields : List (String × Decoder Unit)

def checking {α : Type} (d : Decoder α) : Decoder Unit := fun v => (d v).map fun _ => ()

/-- Looks at the members in order and stops at the first known one that does not decode. -/
def RecordShape.checkMembers (r : RecordShape) : List (String × Json) → Except DecodeError Unit
  | [] => .ok ()
  | (name, value) :: rest =>
    match r.fields.lookup name with
    | none => r.checkMembers rest
    | some d => do
      d value
      r.checkMembers rest

/-- Looks at the items in order; `fields` are the fields still to come. -/
def RecordShape.checkItems (r : RecordShape) (optional : String → Bool) (given : Nat) :
    List (String × Decoder Unit) → List Json → Except DecodeError Unit
  | [], [] => .ok ()
  | [], _ :: _ => .error (.tooLong given)
  | f :: fields, [] =>
    if optional f.1 then r.checkItems optional given fields []
    else .error (.tooShort given s!"struct {r.name} with {r.fields.length} elements")
  | f :: fields, v :: items => do
    f.2 v
    r.checkItems optional given fields items

/-- The members of a record, named, whichever way it was written. -/
def RecordShape.members (r : RecordShape) (optional : String → Bool) :
    Json → Except DecodeError (List (String × Json))
  | .obj ms => do
    r.checkMembers ms
    .ok ms
  | .arr items => do
    r.checkItems optional items.length r.fields items
    .ok ((r.fields.map Prod.fst).zip items)
  | v => .error (.invalidType v.shape s!"struct {r.name}")

def required {α : Type} (ms : List (String × Json)) (name : String) (d : Decoder α) :
    Except DecodeError α :=
  match ms.lookup name with
  | some v => d v
  | none => .error (.missingField name)

end VmFleet.Json
