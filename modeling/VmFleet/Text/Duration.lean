/-!
# Durations as text

A duration is written as its non-zero hours, minutes, seconds and milliseconds, largest first and
joined by a comma. A count of one takes the singular unit, and an empty list stands for
`0 milliseconds`.
-/

set_option autoImplicit false

namespace VmFleet.Text.Duration

/-- Whole milliseconds of a duration; parts of a millisecond are dropped, and the count is kept in
64 bits. -/
def wholeMillis (seconds nanos : Nat) : Nat :=
  (seconds * 1000 + nanos / 1000000) % 0x10000000000000000

/-- The counts of each unit, largest unit first. -/
def components (ms : Nat) : List (Nat × String) :=
  [(ms / 3600000, "hour"),
   (ms % 3600000 / 60000, "minute"),
   (ms % 60000 / 1000, "second"),
   (ms % 1000, "millisecond")]

def counted (count : Nat) (unit : String) : String :=
  if count = 1 then s!"{count} {unit}" else s!"{count} {unit}s"

def render (ms : Nat) : String :=
  match (components ms).filter (fun c => 0 < c.1) with
  | [] => counted 0 "millisecond"
  | parts => ", ".intercalate (parts.map fun c => counted c.1 c.2)

example : render 1250 = "1 second, 250 milliseconds" := by decide +kernel

end VmFleet.Text.Duration
