import VmFleet.Text.Unprinted

/-!
# Quoted text

Text between double quotes. A quote, a backslash and the common controls have escapes of their own;
any other character that cannot be seen is written by its code point in hexadecimal.
-/

set_option autoImplicit false

namespace VmFleet.Text.Quoted

def hexDigits (n : Nat) : List Char := Nat.toDigits 16 n

/-- A code point in braces. -/
def numbered (c : Char) : List Char :=
  ['\\', 'u', '\x7b'] ++ hexDigits c.toNat ++ ['\x7d']

def escape (c : Char) : List Char :=
  if c = '\x00' then ['\\', '0']
  else if c = '\t' then ['\\', 't']
  else if c = '\r' then ['\\', 'r']
  else if c = '\n' then ['\\', 'n']
  else if c = '"' then ['\\', '"']
  else if c = '\\' then ['\\', '\\']
  else if isUnprinted c then numbered c
  else [c]

def encode (s : List Char) : List Char := ['"'] ++ s.flatMap escape ++ ['"']

def quote (s : String) : String := String.ofList (encode s.toList)

/-- Paths are quoted like text, and a single quote is escaped too. -/
def quotePath (path : String) : String :=
  String.ofList (['"'] ++
    path.toList.flatMap (fun c => if c = '\'' then ['\\', '\''] else escape c) ++ ['"'])

example : quote "a\"b\\\n" = "\"a\\\"b\\\\\\n\"" := by decide +kernel

end VmFleet.Text.Quoted
