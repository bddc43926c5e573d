/-!
# The fewest digits that read back

A positive binary floating-point number `m * 2 ^ q` stands for every real between the midpoints to
its two neighbours. Of the decimals with the fewest digits in that interval the nearest one is
chosen. The search goes through the grids of one digit, two digits and so on, and looks at the two
points of the grid around the number.
-/

set_option autoImplicit false

namespace VmFleet.Text.Shortest

structure Decimal where
  digits : Nat
  exponent : Int
  deriving DecidableEq, Repr

/-- The parts of a finite binary number: `mantissa * 2 ^ exponent`; `narrow` says that the gap to
the next smaller number is only half the gap to the next larger one. -/
structure Binary where
  mantissa : Nat
  exponent : Int
  narrow : Bool
  deriving DecidableEq, Repr

/-- Sign, exponent and fraction fields of the 64 bits. -/
def Binary.ofBits (bits : UInt64) : Binary :=
  let fraction : Nat := bits.toNat % 0x10000000000000
  let field : Nat := bits.toNat / 0x10000000000000 % 2048
  if field = 0 then ⟨fraction, -1074, false⟩
  else ⟨0x10000000000000 + fraction, (field : Int) - 1075, fraction = 0 && 1 < field⟩

def isNegative (bits : UInt64) : Bool := 0x8000000000000000 ≤ bits.toNat

def scaled (n : Nat) (b : Nat) (e : Int) : Nat × Nat :=
  match e with
  | .ofNat k => (n * Nat.pow b k, 1)
  | .negSucc k => (n, Nat.pow b (k + 1))

/-- The least `k` with `num < den * 10 ^ k`, for numbers of at least one. -/
def integerDigits (num den : Nat) : Nat :=
  (Nat.toDigits 10 (num / den)).length

/-- How many zeros follow the point before the first digit, for numbers below one. -/
def leadingZeros (num den : Nat) : Nat → Nat
  | 0 => 0
  | fuel + 1 => if den ≤ num * 10 then 0 else leadingZeros (num * 10) den fuel + 1

/-- The power of ten just above the number. -/
def decade (num den : Nat) : Int :=
  if den ≤ num then integerDigits num den else - (leadingZeros num den 400 : Int)

/-- The fraction compared with a grid point: `c * 10 ^ e` is at least / at most `num / den`. -/
def gridAtLeast (c : Nat) (e : Int) (num den : Nat) : Bool :=
  let p := scaled c 10 e
  num * p.2 ≤ p.1 * den

def gridAtMost (c : Nat) (e : Int) (num den : Nat) : Bool :=
  let p := scaled c 10 e
  p.1 * den ≤ num * p.2

/-- The interval of reals that round to the number: four times its ends and itself, over one
denominator, and whether the ends belong to it. -/
structure Interval where
  low : Nat
  centre : Nat
  high : Nat
  den : Nat
  closed : Bool

def Binary.interval (b : Binary) : Interval :=
  let c := 4 * b.mantissa
  let below := if b.narrow then 1 else 2
  let p := scaled 1 2 (b.exponent - 2)
  ⟨(c - below) * p.1, c * p.1, (c + 2) * p.1, p.2, b.mantissa % 2 = 0⟩

def Interval.contains (i : Interval) (c : Nat) (e : Int) : Bool :=
  if i.closed then gridAtLeast c e i.low i.den && gridAtMost c e i.high i.den
  else !gridAtMost c e i.low i.den && !gridAtLeast c e i.high i.den

def Interval.floor (i : Interval) (e : Int) : Nat :=
  let p := scaled 1 10 e
  i.centre * p.2 / (i.den * p.1)

/-- Whether the point above the centre is nearer than the one below it. -/
def Interval.upperNearer (i : Interval) (c : Nat) (e : Int) : Bool :=
  let p := scaled 1 10 e
  let unit := i.den * p.1
  let rest := i.centre * p.2 - c * unit
  unit < 2 * rest || (unit = 2 * rest && c % 2 = 1)

def Interval.onGrid (i : Interval) (e : Int) : Option Nat :=
  let c := i.floor e
  match i.contains c e && 0 < c, i.contains (c + 1) e with
  | false, false => none
  | true, false => some c
  | false, true => some (c + 1)
  | true, true => some (if i.upperNearer c e then c + 1 else c)

/-- Tries `n` digits, `n + 1` digits and so on. -/
def Interval.search (i : Interval) (top : Int) (n : Nat) : Nat → Decimal
  | 0 => ⟨i.floor (top - n), top - n⟩
  | fuel + 1 =>
    match i.onGrid (top - n) with
    | some c => ⟨c, top - n⟩
    | none => i.search top (n + 1) fuel

def Decimal.trim (d : Decimal) : Nat → Decimal
  | 0 => d
  | fuel + 1 =>
    if d.digits ≠ 0 ∧ d.digits % 10 = 0 then Decimal.trim ⟨d.digits / 10, d.exponent + 1⟩ fuel
    else d

/-- The shortest decimal of a finite number's magnitude. -/
def ofBits (bits : UInt64) : Decimal :=
  let b := Binary.ofBits bits
  if b.mantissa = 0 then ⟨0, 0⟩
  else
    let i := b.interval
    (i.search (decade i.centre i.den) 1 17).trim 20

/-- Plain positional notation, without a point when the number is whole. -/
def Decimal.positional (d : Decimal) : String :=
  let ds := Nat.toDigits 10 d.digits
  match d.exponent with
  | .ofNat k => String.ofList (ds ++ List.replicate k '0')
  | .negSucc k =>
    let places := k + 1
    let padded := List.replicate (places + 1 - ds.length) '0' ++ ds
    String.ofList (padded.take (padded.length - places) ++ ['.'] ++
      padded.drop (padded.length - places))

/-- One digit, a point when more follow, and a signed exponent. -/
def Decimal.scientific (d : Decimal) : String :=
  let ds := Nat.toDigits 10 d.digits
  let e : Int := d.exponent + ds.length - 1
  let mantissa := match ds with
    | c :: r :: rs => String.ofList (c :: '.' :: r :: rs)
    | cs => String.ofList cs
  if e < 0 then s!"{mantissa}e-{e.natAbs}" else s!"{mantissa}e+{e.natAbs}"

def signed (bits : UInt64) (text : String) : String :=
  if isNegative bits then "-" ++ text else text

/-- Sums are written positionally, whatever their size. -/
def sumText (x : Float) : String := signed x.toBits (ofBits x.toBits).positional

/-- Numbers in messages keep a point, and leave positional notation below `10 ^ -5` and from
`10 ^ 16` on. -/
def messageText (x : Float) : String :=
  let d := ofBits x.toBits
  let size : Int := d.exponent + (Nat.toDigits 10 d.digits).length
  let text :=
    if d.digits = 0 then "0.0"
    else if -5 < size ∧ size ≤ 16 then
      if d.exponent < 0 then d.positional else d.positional ++ ".0"
    else d.scientific
  signed x.toBits text

end VmFleet.Text.Shortest
