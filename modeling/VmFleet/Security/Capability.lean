import VmFleet.Security.Principal

/-!
# The capability table

Which role may do what, and to whom. A pair of operation and role that has no row is denied; a row
may further ask that the target is the principal's own or somebody else's.
-/

set_option autoImplicit false

namespace VmFleet.Security

inductive Operation where
  | createUser
  | getUser
  | getAllUsers
  | updateUser
  | deleteUser
  | createVm
  | getVm
  | getAllVms
  | bulkUpdateVms
  deriving DecidableEq, Repr

def Operation.name : Operation → String
  | .createUser => "user.create"
  | .getUser => "user.get"
  | .getAllUsers => "user.get_all"
  | .updateUser => "user.update"
  | .deleteUser => "user.delete"
  | .createVm => "vm.create"
  | .getVm => "vm.get"
  | .getAllVms => "vm.get_all"
  | .bulkUpdateVms => "vm.bulk_update"

def Operation.all : List Operation :=
  [.createUser, .getUser, .getAllUsers, .updateUser, .deleteUser, .createVm, .getVm, .getAllVms,
   .bulkUpdateVms]

def Operation.ofName? (s : String) : Option Operation := Operation.all.find? fun o => o.name = s

/-- How the target of an operation relates to the principal. Creation and listing have no single
target. -/
inductive Ownership where
  | noTarget
  | owned
  | notOwned
  deriving DecidableEq, Repr

def Ownership.of (p : Principal) (ownerId : String) : Ownership :=
  if p.id = ownerId then .owned else .notOwned

inductive Grant where
  | any
  | ownedOnly
  | othersOnly
  deriving DecidableEq, Repr

def Grant.admits : Grant → Ownership → Bool
  | _, .noTarget => true
  | .any, _ => true
  | .ownedOnly, o => o = .owned
  | .othersOnly, o => o = .notOwned

structure Capability where
  operation : Operation
  role : Role
  grant : Grant
  deriving DecidableEq, Repr

def capabilities : List Capability :=
  [⟨.createUser, .admin, .any⟩,
   ⟨.getUser, .admin, .any⟩,
   ⟨.getUser, .user, .ownedOnly⟩,
   ⟨.getAllUsers, .admin, .any⟩,
   ⟨.updateUser, .admin, .any⟩,
   ⟨.updateUser, .user, .ownedOnly⟩,
   ⟨.deleteUser, .admin, .othersOnly⟩,
   ⟨.createVm, .admin, .any⟩,
   ⟨.createVm, .user, .any⟩,
   ⟨.getVm, .admin, .any⟩,
   ⟨.getVm, .user, .ownedOnly⟩,
   ⟨.getAllVms, .admin, .any⟩,
   ⟨.getAllVms, .user, .ownedOnly⟩,
   ⟨.bulkUpdateVms, .admin, .any⟩]

def grantFor (o : Operation) (r : Role) : Option Grant :=
  (capabilities.find? fun c => c.operation = o ∧ c.role = r).map Capability.grant

def isAllowed (p : Principal) (o : Operation) (w : Ownership) : Bool :=
  match grantFor o p.role with
  | some g => g.admits w
  | none => false

structure Denial where
  principalId : String
  operation : Operation
  deriving DecidableEq, Repr

def Denial.message (d : Denial) : String :=
  s!"principal {d.principalId} is unauthorized to perform '{d.operation.name}'"

def authorize (p : Principal) (o : Operation) (w : Ownership) : Except Denial Unit :=
  if isAllowed p o w then .ok () else .error ⟨p.id, o⟩

theorem authorize_eq_ok_iff (p : Principal) (o : Operation) (w : Ownership) :
    authorize p o w = .ok () ↔ isAllowed p o w = true := by
  unfold authorize
  split <;> simp_all

theorem authorize_eq_error_iff (p : Principal) (o : Operation) (w : Ownership) (d : Denial) :
    authorize p o w = .error d ↔ isAllowed p o w = false ∧ d = ⟨p.id, o⟩ := by
  unfold authorize
  cases isAllowed p o w with
  | true => simp
  | false => simpa using eq_comm

end VmFleet.Security
