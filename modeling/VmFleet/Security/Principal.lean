import VmFleet.Account

/-!
# Principals

The identity that an operation is attributed to: a fixed identity of the process, or an account that
was looked up in the store.
-/

set_option autoImplicit false

namespace VmFleet.Security

inductive PrincipalKind where
  | account
  | system (identity : SystemIdentity)
  deriving DecidableEq, Repr

structure Principal where
  id : String
  role : Role
  kind : PrincipalKind
  deriving DecidableEq, Repr

def Principal.ofAccount (a : Account) : Principal := ⟨a.id, a.role, .account⟩

def Principal.ofSystem (s : SystemIdentity) : Principal := ⟨s.id, .admin, .system s⟩

def Principal.isAdmin (p : Principal) : Bool := p.role = .admin

def Principal.isSystem (p : Principal) : Bool :=
  match p.kind with
  | .account => false
  | .system _ => true

end VmFleet.Security
