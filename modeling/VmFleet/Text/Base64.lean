/-!
# Base 64 without padding

Three bytes make four characters, each of which stands for six bits. A shorter group at the end
makes one character more than it has bytes; the bits left over in its last character are zero.
Reading refuses every other form, so each sequence of bytes has one written form.
-/

set_option autoImplicit false

namespace VmFleet.Text.Base64

/-- The characters for the values 62 and 63; all others are the same everywhere. -/
structure Alphabet where
  c62 : Char
  c63 : Char

def Alphabet.standard : Alphabet := ⟨'+', '/'⟩

def Alphabet.addressSafe : Alphabet := ⟨'-', '_'⟩

def digit (a : Alphabet) (n : Nat) : Char :=
  if n < 26 then Char.ofNat (65 + n)
  else if n < 52 then Char.ofNat (97 + n - 26)
  else if n < 62 then Char.ofNat (48 + n - 52)
  else if n = 62 then a.c62 else a.c63

def value? (a : Alphabet) (c : Char) : Option Nat :=
  if 'A' ≤ c ∧ c ≤ 'Z' then some (c.toNat - 65)
  else if 'a' ≤ c ∧ c ≤ 'z' then some (c.toNat - 97 + 26)
  else if '0' ≤ c ∧ c ≤ '9' then some (c.toNat - 48 + 52)
  else if c = a.c62 then some 62
  else if c = a.c63 then some 63
  else none

def encodeBytes (a : Alphabet) : List UInt8 → List Char
  | [] => []
  | [x] => [digit a (x.toNat / 4), digit a (x.toNat % 4 * 16)]
  | [x, y] =>
    [digit a (x.toNat / 4), digit a (x.toNat % 4 * 16 + y.toNat / 16), digit a (y.toNat % 16 * 4)]
  | x :: y :: z :: rest =>
    digit a (x.toNat / 4) :: digit a (x.toNat % 4 * 16 + y.toNat / 16) ::
      digit a (y.toNat % 16 * 4 + z.toNat / 64) :: digit a (z.toNat % 64) :: encodeBytes a rest

def encode (a : Alphabet) (bytes : List UInt8) : String := String.ofList (encodeBytes a bytes)

def decodeValues : List Nat → Option (List UInt8)
  | [] => some []
  | [_] => none
  | [p, q] => if q % 16 = 0 then some [(p * 4 + q / 16).toUInt8] else none
  | [p, q, r] =>
    if r % 4 = 0 then some [(p * 4 + q / 16).toUInt8, (q % 16 * 16 + r / 4).toUInt8] else none
  | p :: q :: r :: s :: rest =>
    (decodeValues rest).map fun bytes =>
      (p * 4 + q / 16).toUInt8 :: (q % 16 * 16 + r / 4).toUInt8 :: (r % 4 * 64 + s).toUInt8 :: bytes

def decode (a : Alphabet) (text : String) : Option (List UInt8) :=
  (text.toList.mapM (value? a)).bind decodeValues

/-- How many bytes so many characters stand for. -/
def decodedLength (chars : Nat) : Nat := 3 * chars / 4

example : encode .standard [115, 97, 108, 116] = "c2FsdA" := by decide +kernel

example : decode .standard "c2FsdA" = some [115, 97, 108, 116] := by decide +kernel

end VmFleet.Text.Base64
