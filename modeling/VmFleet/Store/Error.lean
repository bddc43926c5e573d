/-!
# Store errors

What a repository call can fail with. The kind names the sort of record that was asked for.
-/

set_option autoImplicit false

namespace VmFleet.Store

inductive StoreError where
  | notFound (kind id : String)
  | duplicate (kind key : String)
  | backend (reason : String)
  deriving DecidableEq, Repr

def StoreError.message : StoreError → String
  | .notFound kind id => s!"{kind} {id} not found"
  | .duplicate kind key => s!"{kind} {key} already exists"
  | .backend reason => s!"Backend error: {reason}"

end VmFleet.Store
