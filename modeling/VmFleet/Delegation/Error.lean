import VmFleet.Delegation.Message

/-!
# How a delegated request can fail

The causes that the requesting side sees, their texts, and the labels under which they are counted.
-/

set_option autoImplicit false

namespace VmFleet.Delegation

inductive TransportError where
  | noHandler (channel : String)
  | closed (channel : String)
  | timeout (channel : String) (millis : Nat)
  | failure (channel : String) (failure : Failure)
  | malformedReply (channel : String) (reason : String)
  | unencodable (reason : String)
  deriving DecidableEq, Repr

def TransportError.message : TransportError → String
  | .noHandler c => s!"No handler registered for channel {c}"
  | .closed c => s!"Channel {c} closed before a reply was received"
  | .timeout c ms => s!"Request on {c} timed out after {ms}ms"
  | .failure c f => s!"Request on {c} failed with {f.message}"
  | .malformedReply c reason => s!"Malformed reply on {c}: {reason}"
  | .unencodable reason => s!"Failed to encode request: {reason}"

def TransportError.label : TransportError → String
  | .noHandler _ => "no_handler"
  | .closed _ => "closed"
  | .timeout _ _ => "timeout"
  | .failure _ _ => "failure"
  | .malformedReply _ _ => "malformed_reply"
  | .unencodable _ => "encode"

end VmFleet.Delegation
