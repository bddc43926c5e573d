import VmFleet.Sql.Token
import VmFleet.Store.Row
import VmFleet.Text.Shortest

/-!
# Numbered rows

Every row of a table has a number of its own, and the rows stand in the order of their numbers. A
new row gets the number after the largest one, so that it comes last. Numbers that are given from
elsewhere may be any that 64 bits hold, also as a text; after the largest of them there is no next
one, and a new row gets a free number below.
-/

set_option autoImplicit false

namespace VmFleet.Store

structure Entry where
  number : Int
  row : Row
  deriving DecidableEq, Repr

namespace Entry

/-- Puts a row between those with smaller and those with larger numbers. -/
def place (e : Entry) : List Entry → List Entry
  | [] => [e]
  | x :: xs => if e.number < x.number then e :: x :: xs else x :: place e xs

def largest? (entries : List Entry) : Option Int := (entries.map Entry.number).max?

def hasNumber (number : Int) (entries : List Entry) : Bool := entries.any fun e => e.number = number

/-- The number after the largest one; the first row has number one. -/
def next (entries : List Entry) : Int :=
  match largest? entries with
  | none => 1
  | some n => n + 1

def lastNumber : Int := 0x7fffffffffffffff

/-- The largest number in the lower half of the positive ones. -/
def halfNumber : Int := 0x4000000000000000

/-- The largest free number of the lower half. -/
def spare (entries : List Entry) : Int :=
  let candidates := (List.range (entries.length + 1)).map fun (i : Nat) => halfNumber - i
  (candidates.find? fun n => !hasNumber n entries).getD halfNumber

/-- The next number as long as there is one, and a free number from then on. -/
def nextWithin (entries : List Entry) : Int :=
  if next entries ≤ lastNumber then next entries else spare entries

theorem place_of_forall_le (e : Entry) (entries : List Entry)
    (h : ∀ x ∈ entries, x.number ≤ e.number) : place e entries = entries ++ [e] := by
  induction entries with
  | nil => rfl
  | cons x xs ih =>
    have hx : ¬ e.number < x.number := Int.not_lt.mpr (h x (by simp))
    have hxs : ∀ y ∈ xs, y.number ≤ e.number := fun y hy => h y (by simp [hy])
    simp [place, hx, ih hxs]

theorem le_largest {entries : List Entry} {n : Int} (h : largest? entries = some n) :
    ∀ x ∈ entries, x.number ≤ n := by
  intro x hx
  exact (List.max?_le_iff h).mp (Int.le_refl n) x.number (List.mem_map_of_mem hx)

/-- A row with the next number comes last. -/
theorem place_next (row : Row) (entries : List Entry) :
    place ⟨next entries, row⟩ entries = entries ++ [⟨next entries, row⟩] := by
  apply place_of_forall_le
  intro x hx
  unfold next
  split
  · next h => simp_all [largest?, List.max?_eq_none_iff]
  · next n h => have := le_largest h x hx; simp only; omega

/-! ## Numbers from texts -/

/-- A decimal number as it is written: its sign, its digits as one number and the power of ten that
they are multiplied with; a plain one has neither a point nor an exponent. -/
structure Written where
  isNegative : Bool
  digits : Nat
  power : Int
  isPlain : Bool
  deriving DecidableEq, Repr

def sign : List Char → Bool × List Char
  | '-' :: cs => (true, cs)
  | '+' :: cs => (false, cs)
  | cs => (false, cs)

def digitsValue (cs : List Char) : Nat := cs.foldl (fun n c => n * 10 + (c.toNat - 48)) 0

/-- The power of ten after the digits; nothing else may follow. -/
def power? : List Char → Option Int
  | [] => some 0
  | c :: cs =>
    let (isNegative, digits) := sign cs
    if (c = 'e' || c = 'E') && !digits.isEmpty && digits.all Char.isDigit then
      some (if isNegative then -(digitsValue digits : Int) else digitsValue digits)
    else none

def Written.ofChars? (cs : List Char) : Option Written := do
  let (isNegative, body) := sign cs
  let (whole, rest) := Sql.cut Char.isDigit body
  let (places, after) := match rest with
    | '.' :: rest => Sql.cut Char.isDigit rest
    | rest => ([], rest)
  if whole.isEmpty && places.isEmpty then none
  let power ← power? after
  some ⟨isNegative, digitsValue (whole ++ places), power - places.length, rest.isEmpty⟩

/-- The whole number that the binary number nearest to `digits * 10 ^ power` is, if it is one and
not far too large. -/
def nearestWhole? (digits : Nat) (power : Int) : Option Nat :=
  let size : Int := power + (Nat.toDigits 10 digits).length
  if digits = 0 || size < -330 then some 0
  else if 20 < size then none
  else
    let x := match power with
      | .ofNat k => Float.ofScientific digits false k
      | .negSucc k => Float.ofScientific digits true (k + 1)
    let b := Text.Shortest.Binary.ofBits x.toBits
    let (num, den) := Text.Shortest.scaled b.mantissa 2 b.exponent
    if num % den = 0 then some (num / den) else none

/-- The number of a row that a text says, maybe between blanks. -/
def ofText? (text : String) : Option Int := do
  let w ← Written.ofChars? (Sql.trimBlanks text.toList)
  let signed (n : Nat) : Int := if w.isNegative then -(n : Int) else n
  let exact := signed w.digits
  if w.isPlain && -lastNumber - 1 ≤ exact && exact ≤ lastNumber then some exact
  else
    let n ← nearestWhole? w.digits w.power
    if (n : Int) ≤ lastNumber then some (signed n) else none

end Entry
end VmFleet.Store
