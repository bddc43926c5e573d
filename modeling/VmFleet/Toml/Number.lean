import VmFleet.Toml.Reader
import VmFleet.Toml.Value

/-!
# Numbers and points in time in configuration files

Digits may be grouped by single underscores between two of them. Integers have 64 bits with a sign.
A number with a point or an exponent must not be too large for a floating-point number. Dates and
times of day are checked against the calendar and the clock.
-/

set_option autoImplicit false

namespace VmFleet.Toml

/-- Digits in which every underscore stands between two digits; the digits alone. -/
def groupedTail (isDigit : Char → Bool) : List Char → Option (List Char × List Char)
  | '_' :: c :: cs =>
    if isDigit c then (groupedTail isDigit cs).map fun p => (c :: p.1, p.2) else none
  | '_' :: [] => none
  | c :: cs =>
    if isDigit c then (groupedTail isDigit cs).map fun p => (c :: p.1, p.2) else some ([], c :: cs)
  | [] => some ([], [])

def grouped (isDigit : Char → Bool) : Reader (List Char)
  | c :: cs =>
    if isDigit c then (groupedTail isDigit cs).map fun p => (c :: p.1, p.2) else none
  | [] => none

def digitValue (c : Char) : Nat :=
  if c.isDigit then c.toNat - 48 else if 97 ≤ c.toNat then c.toNat - 87 else c.toNat - 55

def valueOf (base : Nat) (digits : List Char) : Nat :=
  digits.foldl (fun acc c => acc * base + digitValue c) 0

def isHexDigit (c : Char) : Bool :=
  c.isDigit || ('a' ≤ c && c ≤ 'f') || ('A' ≤ c && c ≤ 'F')

def isOctDigit (c : Char) : Bool := '0' ≤ c && c ≤ '7'

def isBinDigit (c : Char) : Bool := c = '0' || c = '1'

def sign : List Char → Bool × List Char
  | '-' :: cs => (true, cs)
  | '+' :: cs => (false, cs)
  | cs => (false, cs)

/-- A zero alone, or digits that do not begin with a zero. -/
def decimalDigits : Reader (List Char)
  | '0' :: cs => some (['0'], cs)
  | cs => grouped Char.isDigit cs

def int64? (n : Int) : Option Value :=
  if -0x8000000000000000 ≤ n ∧ n < 0x8000000000000000 then some (.int n) else none

def based (base : Nat) (isDigit : Char → Bool) : Reader Value := fun cs => do
  let (digits, rest) ← grouped isDigit cs
  let v ← int64? (valueOf base digits)
  some (v, rest)

def integer : Reader Value
  | '0' :: 'x' :: cs => based 16 isHexDigit cs
  | '0' :: 'o' :: cs => based 8 isOctDigit cs
  | '0' :: 'b' :: cs => based 2 isBinDigit cs
  | cs => do
    let (negative, body) := sign cs
    let (digits, rest) ← decimalDigits body
    let n : Int := valueOf 10 digits
    let v ← int64? (if negative then -n else n)
    some (v, rest)

def exponent : Reader (Bool × List Char)
  | c :: cs =>
    if c = 'e' || c = 'E' then do
      let (negative, body) := sign cs
      let (digits, rest) ← grouped Char.isDigit body
      some ((negative, digits), rest)
    else none
  | [] => none

/-- Whether `digits * 10 ^ power` rounds to infinity: it is at least the midpoint between the
largest finite number and the next power of two. The size of the number decides except close to that
midpoint. -/
def overflows (digits : Nat) (power : Int) : Bool :=
  if digits = 0 then false
  else
    let size : Int := power + (Nat.toDigits 10 digits).length
    if size < 309 then false
    else if 309 < size then true
    else
      let midpoint : Nat := Nat.pow 2 1024 - Nat.pow 2 970
      if 0 ≤ power then midpoint ≤ digits * Nat.pow 10 power.toNat
      else midpoint * Nat.pow 10 (-power).toNat ≤ digits

/-- What was read off `cs` when `rest` is left. -/
def taken (cs rest : List Char) : String := String.ofList (cs.take (cs.length - rest.length))

def fraction : List Char → Option (Option (List Char) × List Char)
  | '.' :: cs => (grouped Char.isDigit cs).map fun p => (some p.1, p.2)
  | cs => some (none, cs)

def float : Reader Value := fun cs => do
  let (negative, body) := sign cs
  let (whole, rest) ← decimalDigits body
  let (places, rest) ← fraction rest
  let (power, rest) ←
    match exponent rest with
    | some (p, rest) => some (some p, rest)
    | none => some (none, rest)
  if places.isNone ∧ power.isNone then none
  let places := places.getD []
  let size : Int := match power with
    | none => 0
    | some (down, digits) =>
      let n : Int := valueOf 10 digits
      if down then -n else n
  if !negative && overflows (valueOf 10 (whole ++ places)) (size - places.length) then none
  some (.float (taken cs rest), rest)

/-- `inf` and `nan`, with or without a sign. -/
def specialFloat : Reader Value := fun cs => do
  let (_, body) := sign cs
  let (_, rest) ← (literal "inf" body).or (literal "nan" body)
  some (.float (taken cs rest), rest)

def digits (n : Nat) : Reader Nat := fun cs =>
  let word := cs.take n
  if word.length = n ∧ word.all Char.isDigit then some (valueOf 10 word, cs.drop n) else none

def digitsWithin (low high : Nat) : Reader Nat := fun cs => do
  let (n, rest) ← digits 2 cs
  if low ≤ n ∧ n ≤ high then some (n, rest) else none

def isLeap (year : Nat) : Bool := year % 4 = 0 && (year % 100 ≠ 0 || year % 400 = 0)

def daysIn (year month : Nat) : Nat :=
  if month = 2 then if isLeap year then 29 else 28
  else if month = 4 || month = 6 || month = 9 || month = 11 then 30
  else 31

def date : Reader Unit := fun cs => do
  let (year, cs) ← digits 4 cs
  let (_, cs) ← literal "-" cs
  let (month, cs) ← digitsWithin 1 12 cs
  let (_, cs) ← literal "-" cs
  let (day, cs) ← digitsWithin 1 31 cs
  if day ≤ daysIn year month then some ((), cs) else none

def secondFraction : List Char → List Char
  | '.' :: c :: cs => if c.isDigit then cs.dropWhile Char.isDigit else '.' :: c :: cs
  | cs => cs

/-- A time of day; the second may be a leap second. -/
def timeOfDay : Reader Unit := fun cs => do
  let (_, cs) ← digitsWithin 0 23 cs
  let (_, cs) ← literal ":" cs
  let (_, cs) ← digitsWithin 0 59 cs
  let (_, cs) ← literal ":" cs
  let (_, cs) ← digitsWithin 0 60 cs
  some ((), secondFraction cs)

/-- The distance to universal time. -/
def offset : Reader Unit
  | c :: cs =>
    if c = 'Z' || c = 'z' then some ((), cs)
    else if c = '+' || c = '-' then do
      let (_, cs) ← digitsWithin 0 23 cs
      let (_, cs) ← literal ":" cs
      let (_, cs) ← digitsWithin 0 59 cs
      some ((), cs)
    else none
  | [] => none

/-- A time of day after a date, and its offset, if there are any. -/
def timeAfterDate : List Char → List Char
  | c :: cs =>
    if c = 'T' || c = 't' || c = ' ' then
      match timeOfDay cs with
      | none => c :: cs
      | some (_, rest) =>
        match offset rest with
        | none => rest
        | some (_, rest) => rest
    else c :: cs
  | [] => []

def time : Reader Value := fun cs => do
  let rest ←
    match date cs with
    | some (_, rest) => some (timeAfterDate rest)
    | none => (timeOfDay cs).map Prod.snd
  some (.time (taken cs rest), rest)

def number : Reader Value := fun cs =>
  (time cs).or ((float cs).or ((specialFloat cs).or (integer cs)))

end VmFleet.Toml
