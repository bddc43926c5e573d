/-!
# Roles and the identities of the process

An account is an administrator or an ordinary user. Besides the accounts there are three fixed
identities that belong to the process and are never stored; they act as administrators.
-/

set_option autoImplicit false

namespace VmFleet.Security

inductive Role where
  | admin
  | user
  deriving DecidableEq, Repr

def Role.id : Role → String
  | .admin => "ROLE:ADMIN"
  | .user => "ROLE:USER"

def Role.ofId? : String → Option Role
  | "ROLE:ADMIN" => some .admin
  | "ROLE:USER" => some .user
  | _ => none

theorem Role.ofId?_id (r : Role) : Role.ofId? r.id = some r := by cases r <;> rfl

/-- Start-up work, periodic jobs, and calls that come back from the cloud worker. -/
inductive SystemIdentity where
  | root
  | backgroundJob
  | cloudWorker
  deriving DecidableEq, Repr

def SystemIdentity.id : SystemIdentity → String
  | .root => "PRINCIPAL:SYSTEM:ROOT"
  | .backgroundJob => "PRINCIPAL:SYSTEM:BACKGROUND_JOB"
  | .cloudWorker => "PRINCIPAL:SYSTEM:CLOUD_WORKER"

end VmFleet.Security
