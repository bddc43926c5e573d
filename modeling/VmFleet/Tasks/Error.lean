import VmFleet.Delegation.Error
import VmFleet.Security.Capability
import VmFleet.Store.Error

/-!
# Task errors

What running a task can fail with. Being refused and not finding a record are causes of their own,
so that callers can tell them apart.
-/

set_option autoImplicit false

namespace VmFleet.Tasks

open Security Store Delegation

inductive TaskError where
  | unauthorized (denial : Denial)
  | notFound (kind id : String)
  | duplicate (kind key : String)
  | invalid (reason : String)
  | transport (error : TransportError)
  | store (reason : String)
  | fault (reason : String)
  deriving DecidableEq, Repr

def TaskError.message : TaskError → String
  | .unauthorized d => d.message
  | .notFound kind id => s!"{kind} {id} not found"
  | .duplicate kind key => s!"{kind} {key} already exists"
  | .invalid reason => s!"Invalid input: {reason}"
  | .transport e => s!"Delegation failed: {e.message}"
  | .store reason => s!"Store error: {reason}"
  | .fault reason => s!"Internal error: {reason}"

def TaskError.label : TaskError → String
  | .unauthorized _ => "unauthorized"
  | .notFound _ _ => "not_found"
  | .duplicate _ _ => "duplicate"
  | .invalid _ => "validation"
  | .transport _ => "transport"
  | .store _ => "store"
  | .fault _ => "internal"

def TaskError.isUnauthorized : TaskError → Bool
  | .unauthorized _ => true
  | _ => false

def TaskError.isNotFound : TaskError → Bool
  | .notFound _ _ => true
  | _ => false

/-- A store error keeps its cause. -/
def TaskError.ofStore : StoreError → TaskError
  | .notFound kind id => .notFound kind id
  | .duplicate kind key => .duplicate kind key
  | .backend reason => .store reason

end VmFleet.Tasks
