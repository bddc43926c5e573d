import VmFleet.Program.Basic
import VmFleet.Tasks.Error

/-!
# Tasks

A task is one operation on the records, asked for by a principal. Every task asks the capability
table before it touches anything.
-/

set_option autoImplicit false

namespace VmFleet.Tasks

open Security Store

/-- Programs that may stop with a task error. -/
abbrev Attempt (α : Type) : Type := ExceptT TaskError Program α

namespace Attempt

variable {α : Type}

def run (a : Attempt α) : Program (Except TaskError α) := ExceptT.run a

def ofExcept {ε : Type} (f : ε → TaskError) (r : Except ε α) : Attempt α :=
  ExceptT.mk (.done (r.mapError f))

def ask (e : Effect) : Attempt e.Answer := ExceptT.lift (Program.ask e)

def accounts (call : Call Account) : Attempt call.Result := do
  ofExcept .ofStore (← ask (.accounts call))

def machines (call : Call Machine) : Attempt call.Result := do
  ofExcept .ofStore (← ask (.machines call))

def authorize (p : Principal) (o : Operation) (w : Ownership) : Attempt Unit :=
  ofExcept .unauthorized (Security.authorize p o w)

end Attempt

structure NewAccount where
  username : String
  password : String
  firstName : String
  lastName : String
  role : Role
  deriving DecidableEq, Repr

inductive Task where
  /-- Without `ensureUnique`, an account that has the username already is returned as it is. -/
  | createUser (new : NewAccount) (ensureUnique : Bool)
  | getUser (id : String)
  | getAllUsers
  /-- An empty name leaves the stored one. -/
  | updateUser (id firstName lastName : String)
  | deleteUser (id : String)
  | createVm (provider : Provider)
  | getVm (id : String)
  | getAllVms
  | bulkUpdateVms (machines : List Machine)
  deriving DecidableEq, Repr

def Task.operation : Task → Operation
  | .createUser _ _ => .createUser
  | .getUser _ => .getUser
  | .getAllUsers => .getAllUsers
  | .updateUser _ _ _ => .updateUser
  | .deleteUser _ => .deleteUser
  | .createVm _ => .createVm
  | .getVm _ => .getVm
  | .getAllVms => .getAllVms
  | .bulkUpdateVms _ => .bulkUpdateVms

abbrev Task.Result : Task → Type
  | .createUser _ _ => Account
  | .getUser _ => Account
  | .getAllUsers => List Account
  | .updateUser _ _ _ => Account
  | .deleteUser _ => Unit
  | .createVm _ => Machine
  | .getVm _ => Machine
  | .getAllVms => List Machine
  | .bulkUpdateVms _ => List Machine

end VmFleet.Tasks
