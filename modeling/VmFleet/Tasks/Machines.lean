import VmFleet.Delegation.Request
import VmFleet.Json.Records
import VmFleet.Tasks.Accounts

/-!
# Tasks on machines

A new machine is stored at once and provisioned in the background: the worker is asked for it, and
the machine that it replies with is stored, provided that it is the one that was asked for.
-/

set_option autoImplicit false

namespace VmFleet.Tasks

open Security Store Delegation

def describes (reply asked : Machine) : Bool := reply.id = asked.id ∧ reply.ownerId = asked.ownerId

def mismatch (reply asked : Machine) : TransportError :=
  .malformedReply resourceCreate s!"reply describes {reply.id} instead of {asked.id}"

def provision (m : Machine) : Attempt Machine := do
  let reply ← ExceptT.lift (request resourceCreate (.ok m.encode) Machine.decode)
  let reply ← Attempt.ofExcept .transport reply
  if describes reply m then Attempt.machines (.put reply)
  else throw (.transport (mismatch reply m))

/-- The account that asks must still be there; the identities of the process always are. -/
def checkOwner (p : Principal) : Attempt Unit :=
  match p.kind with
  | .account => do
    let _ ← Attempt.accounts (.get p.id)
    return ()
  | .system _ => return ()

def createVm (p : Principal) (provider : Provider) : Attempt Machine := do
  Attempt.authorize p .createVm .noTarget
  checkOwner p
  let id ← freshId "VM:"
  let stored ← Attempt.machines (.add ⟨id, provider, .initializing, p.id⟩ true)
  Attempt.ask (.provision stored)
  return stored

/-- A role without any grant is turned away before the machine is looked up. -/
def getVm (p : Principal) (id : String) : Attempt Machine := do
  Attempt.authorize p .getVm .noTarget
  let m ← Attempt.machines (.get id)
  Attempt.authorize p .getVm (.of p m.ownerId)
  return m

/-- The machines among these that the principal may list. -/
def visible (p : Principal) (machines : List Machine) : List Machine :=
  machines.filter fun m => isAllowed p .getAllVms (.of p m.ownerId)

def getAllVms (p : Principal) : Attempt (List Machine) := do
  Attempt.authorize p .getAllVms .noTarget
  let all ← Attempt.machines .getAll
  return visible p all

def bulkUpdateVms (p : Principal) (machines : List Machine) : Attempt (List Machine) := do
  Attempt.authorize p .bulkUpdateVms .noTarget
  if machines.isEmpty then return []
  Attempt.machines (.putAll machines)

end VmFleet.Tasks
