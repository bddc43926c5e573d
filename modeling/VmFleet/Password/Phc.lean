import VmFleet.Password.Argon2
import VmFleet.Text.Base64

/-!
# Written password hashes

A password hash is written as fields behind dollar signs: the algorithm, its version, its
parameters, the salt and the digest. All but the algorithm may be missing, from the end on or, for
version and parameters, in the middle.
-/

set_option autoImplicit false

namespace VmFleet.Password

inductive BadValue where
  | character (c : Char)
  | format
  | malformed
  | tooLong
  | tooShort
  deriving DecidableEq, Repr

def BadValue.message : BadValue → String
  | .character c => s!"contains invalid character: '{c}'"
  | .format => "value format is invalid"
  | .malformed => "value malformed"
  | .tooLong => "value to long"
  | .tooShort => "value to short"

inductive HashError where
  | missingField
  | trailingData
  | parameterName
  | parameterValue (cause : BadValue)
  | tooManyParameters
  | salt (cause : BadValue)
  | encoding
  | encodingLength
  | digestTooShort
  deriving DecidableEq, Repr

def HashError.message : HashError → String
  | .missingField => "password hash string missing field"
  | .trailingData => "password hash string contains trailing characters"
  | .parameterName => "invalid parameter name"
  | .parameterValue cause => s!"invalid parameter value: {cause.message}"
  | .tooManyParameters => "maximum number of parameters reached"
  | .salt cause => s!"salt invalid: {cause.message}"
  | .encoding => "invalid Base64 encoding"
  | .encodingLength => "invalid Base64 length"
  | .digestTooShort => "output size too short, expected at least 10 bytes"

/-- Names have up to 32 lower-case letters, digits and hyphens. -/
def isNameChar (c : Char) : Bool := c.isLower || c.isDigit || c = '-'

def checkName (s : String) : Except HashError Unit :=
  if s ≠ "" ∧ s.utf8ByteSize ≤ 32 ∧ s.toList.all isNameChar then .ok () else .error .parameterName

def isValueChar (c : Char) : Bool :=
  c.isAlphanum || c = '/' || c = '+' || c = '.' || c = '-'

/-- Values have up to 64 characters. -/
def checkValue (s : String) : Except BadValue Unit :=
  if 64 < s.utf8ByteSize then .error .tooLong
  else match s.toList.find? fun c => !isValueChar c with
    | some c => .error (.character c)
    | none => .ok ()

/-- A decimal of 32 bits without zeros in front. -/
def decimal (s : String) : Except BadValue Nat :=
  match s.toList with
  | [] => .error .malformed
  | c :: cs =>
    match (c :: cs).find? fun c => !c.isDigit with
    | some c => .error (.character c)
    | none =>
      let n := (c :: cs).foldl (fun acc c => acc * 10 + (c.toNat - 48)) 0
      if (c = '0' ∧ cs ≠ []) ∨ 0x100000000 ≤ n then .error .format else .ok n

/-- A salt is a value of 4 to 64 characters. -/
def checkSalt (s : String) : Except HashError Unit :=
  if s.utf8ByteSize < 4 then .error (.salt .tooShort)
  else match checkValue s with
    | .ok _ => .ok ()
    | .error cause => .error (.salt cause)

/-- Splits at every `separator`; there is always one piece. -/
def splitAt (separator : Char) : List Char → List (List Char)
  | [] => [[]]
  | c :: cs =>
    match splitAt separator cs with
    | [] => [[c]]
    | piece :: rest =>
      if c = separator then [] :: piece :: rest else (c :: piece) :: rest

def pieces (separator : Char) (s : String) : List String :=
  (splitAt separator s.toList).map String.ofList

def parameter (s : String) : Except HashError (String × String) :=
  match pieces '=' s with
  | [] => .error .parameterName
  | name :: rest => do
    checkName name
    match rest with
    | [] => .error (.parameterValue .malformed)
    | value :: more => do
      (checkValue value).mapError .parameterValue
      if more.isEmpty then .ok (name, value) else .error (.parameterValue .malformed)

def parameters (s : String) : Except HashError (List (String × String)) :=
  if 127 < s.utf8ByteSize then .error .tooManyParameters
  else (pieces ',' s).mapM parameter

/-- A digest has 10 to 64 bytes. -/
def digestOf (s : String) : Except HashError (List UInt8) :=
  if 64 < Text.Base64.decodedLength s.utf8ByteSize then .error .encodingLength
  else match Text.Base64.decode .standard s with
    | none => .error .encoding
    | some bytes => if bytes.length < 10 then .error .digestTooShort else .ok bytes

structure Phc where
  algorithm : String
  version : Option Nat
  parameters : List (String × String)
  salt : Option String
  digest : Option (List UInt8)
  deriving DecidableEq, Repr

def takeVersion : List String → Except HashError (Option Nat × List String)
  | field :: rest =>
    match field.toList with
    | 'v' :: '=' :: value =>
      if value.contains ',' then .ok (none, field :: rest)
      else do
        let value := String.ofList value
        (checkValue value).mapError .parameterValue
        let n ← (decimal value).mapError .parameterValue
        .ok (some n, rest)
    | _ => .ok (none, field :: rest)
  | [] => .ok (none, [])

def takeParameters : List String → Except HashError (List (String × String) × List String)
  | field :: rest =>
    if field.toList.contains '=' then do
      let ps ← parameters field
      .ok (ps, rest)
    else .ok ([], field :: rest)
  | [] => .ok ([], [])

def takeSalt : List String → Except HashError (Option String × List String)
  | [] => .ok (none, [])
  | field :: rest => do
    checkSalt field
    .ok (some field, rest)

def takeDigest : List String → Except HashError (Option (List UInt8) × List String)
  | [] => .ok (none, [])
  | field :: rest => do
    let bytes ← digestOf field
    .ok (some bytes, rest)

def Phc.parse (s : String) : Except HashError Phc :=
  match pieces '$' s with
  | "" :: algorithm :: fields => do
    checkName algorithm
    let (version, fields) ← takeVersion fields
    let (ps, fields) ← takeParameters fields
    let (salt, fields) ← takeSalt fields
    let (digest, fields) ← takeDigest fields
    if fields.isEmpty then .ok ⟨algorithm, version, ps, salt, digest⟩ else .error .trailingData
  | _ => .error .missingField

def Phc.render (p : Phc) : String :=
  let field (s : String) : String := "$" ++ s
  field p.algorithm ++
  (match p.version with
    | none => ""
    | some n => field s!"v={n}") ++
  (if p.parameters.isEmpty then ""
    else field (",".intercalate (p.parameters.map fun q => s!"{q.1}={q.2}"))) ++
  (match p.salt with
    | none => ""
    | some s => field s) ++
  (match p.digest with
    | none => ""
    | some bytes => field (Text.Base64.encode .standard bytes))

end VmFleet.Password
