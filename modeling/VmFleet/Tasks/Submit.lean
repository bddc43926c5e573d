import VmFleet.Tasks.Machines

/-!
# Running tasks

A task runs for a principal, and how it ended is counted under its operation. A caller who has only
shown an account id is looked up first; when that fails, no task has run.
-/

set_option autoImplicit false

namespace VmFleet.Tasks

open Security Store

def Task.execute : (t : Task) → Principal → Attempt t.Result
  | .createUser new ensureUnique, p => Tasks.createUser p new ensureUnique
  | .getUser id, p => Tasks.getUser p id
  | .getAllUsers, p => Tasks.getAllUsers p
  | .updateUser id firstName lastName, p => Tasks.updateUser p id firstName lastName
  | .deleteUser id, p => Tasks.deleteUser p id
  | .createVm provider, p => Tasks.createVm p provider
  | .getVm id, p => Tasks.getVm p id
  | .getAllVms, p => Tasks.getAllVms p
  | .bulkUpdateVms machines, p => Tasks.bulkUpdateVms p machines

def outcomeLabel {α : Type} : Except TaskError α → String
  | .ok _ => "ok"
  | .error e => e.label

def Task.submitTrusted (t : Task) (p : Principal) : Attempt t.Result :=
  ExceptT.mk do
    let result ← (t.execute p).run
    Program.ask (.record (.task t.operation.name (outcomeLabel result)))
    return result

def resolve (accountId : String) : Attempt Principal := do
  let a ← Attempt.accounts (.get accountId)
  return .ofAccount a

def Task.submit (t : Task) (accountId : String) : Attempt t.Result := do
  let p ← resolve accountId
  t.submitTrusted p

end VmFleet.Tasks
