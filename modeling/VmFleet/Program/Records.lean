import VmFleet.Program.Basic
import VmFleet.Store.Repository

/-!
# The records that programs act on

The stored accounts and machines, the counters, and the supply of bytes that were never given out
before. Effects on them are answered at once; the others need somebody else to act, or time to pass.
-/

set_option autoImplicit false

namespace VmFleet

open Store

structure Records where
  accounts : Metered Account
  machines : Metered Machine
  metrics : Metrics.Registry
  drawn : Nat

namespace Records

/-- The last `count` bytes of a number, highest first. -/
def bytesOf (count n : Nat) : List UInt8 :=
  (List.range count).reverse.map fun i => UInt8.ofNat (n >>> (8 * i))

def onAccounts (r : Records) (call : Call Account) : call.Answer × Records :=
  let a := r.accounts.run call
  (a.1, { r with accounts := a.2 })

def onMachines (r : Records) (call : Call Machine) : call.Answer × Records :=
  let a := r.machines.run call
  (a.1, { r with machines := a.2 })

def draw (r : Records) (count : Nat) : List UInt8 × Records :=
  (bytesOf count (r.drawn + 1), { r with drawn := r.drawn + 1 })

def record (r : Records) (event : Metrics.Event) : Records :=
  { r with metrics := r.metrics.record event }

end Records
end VmFleet
