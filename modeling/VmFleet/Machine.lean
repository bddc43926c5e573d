import VmFleet.Text.Upper

/-!
# Virtual machines

The stored record of one machine: where it runs, how far it has come, and the account that owns it.
-/

set_option autoImplicit false

namespace VmFleet

inductive Provider where
  | aws
  | gcp
  deriving DecidableEq, Repr

def Provider.name : Provider → String
  | .aws => "AWS"
  | .gcp => "GCP"

/-- Reads a provider in any case. -/
def Provider.ofText? (s : String) : Option Provider :=
  if Text.upperEquals s "AWS" then some .aws
  else if Text.upperEquals s "GCP" then some .gcp
  else none

theorem Provider.ofText?_name (p : Provider) : Provider.ofText? p.name = some p := by
  cases p <;> decide +kernel

inductive Status where
  | initializing
  | up
  | down
  deriving DecidableEq, Repr

def Status.name : Status → String
  | .initializing => "INITIALIZING"
  | .up => "UP"
  | .down => "DOWN"

/-- Reads a status; case matters. -/
def Status.ofText? : String → Option Status
  | "INITIALIZING" => some .initializing
  | "UP" => some .up
  | "DOWN" => some .down
  | _ => none

theorem Status.ofText?_name (s : Status) : Status.ofText? s.name = some s := by cases s <;> rfl

structure Machine where
  id : String
  provider : Provider
  status : Status
  ownerId : String
  deriving DecidableEq, Repr

def Machine.withStatus (m : Machine) (s : Status) : Machine := { m with status := s }

/-- The machines that are not up, each already moved up. -/
def Machine.transitions (machines : List Machine) : List Machine :=
  (machines.filter fun m => m.status ≠ .up).map fun m => m.withStatus .up

end VmFleet
