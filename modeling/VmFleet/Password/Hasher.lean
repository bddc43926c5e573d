import VmFleet.Password.Phc

/-!
# Hashing and checking passwords

New hashes are made under one fixed scheme. A written hash is checked under the scheme that it
names; one that names an unknown scheme, or costs out of range, matches no password.
-/

set_option autoImplicit false

namespace VmFleet.Password

def standardScheme : Scheme := ⟨.hybrid, .v19, ⟨19456, 2, 1, 32⟩⟩

def saltBytes (salt : String) : Except HashError (List UInt8) :=
  match Text.Base64.decode .standard salt with
  | none => .error .encoding
  | some bytes => if bytes.length < 8 then .error (.salt .tooShort) else .ok bytes

def hash (plain salt : String) : Except HashError String := do
  checkSalt salt
  let bytes ← saltBytes salt
  let s := standardScheme
  .ok (Phc.render ⟨s.variant.name, some s.version.number,
    [("m", toString s.cost.memory), ("t", toString s.cost.passes), ("p", toString s.cost.lanes)],
    some salt, some (argon2 s plain.toUTF8.toList bytes [])⟩)

structure Choice where
  cost : Cost
  associated : List UInt8

def bytesWithin (limit : Nat) (s : String) : Option (List UInt8) :=
  (Text.Base64.decode .standard s).bind fun bytes =>
    if bytes.length ≤ limit then some bytes else none

def Choice.set (c : Choice) (p : String × String) : Option Choice :=
  match p.1 with
  | "m" => (decimal p.2).toOption.map fun n => { c with cost := { c.cost with memory := n } }
  | "t" => (decimal p.2).toOption.map fun n => { c with cost := { c.cost with passes := n } }
  | "p" => (decimal p.2).toOption.map fun n => { c with cost := { c.cost with lanes := n } }
  | "keyid" => (bytesWithin 8 p.2).map fun _ => c
  | "data" => (bytesWithin 32 p.2).map fun bytes => { c with associated := bytes }
  | _ => none

/-- The digest that the password has under the scheme, parameters and salt of a written hash. -/
def Phc.digestFor (p : Phc) (plain : String) : Option (List UInt8) := do
  let salt ← p.salt
  let digest ← p.digest
  let variant ← Variant.ofName? p.algorithm
  let version ← match p.version with
    | none => some Version.v19
    | some n => Version.ofNumber? n
  let c ← p.parameters.foldlM Choice.set
    ⟨{ standardScheme.cost with size := digest.length }, []⟩
  let bytes ← (saltBytes salt).toOption
  if c.cost.isValid then
    some (argon2 ⟨variant, version, c.cost⟩ plain.toUTF8.toList bytes c.associated)
  else none

def verify (plain written : String) : Except HashError Bool := do
  let p ← Phc.parse written
  .ok (p.digest.isSome && p.digestFor plain == p.digest)

end VmFleet.Password
