import VmFleet.Json.Decode
import VmFleet.Program.Basic

/-!
# Requests

The asking side of delegation. A request sends a payload and reads the reply as a value of the type
asked for; how it ended is counted under the channel.
-/

set_option autoImplicit false

namespace VmFleet.Delegation

variable {α : Type}

def outcomeLabel : Except TransportError α → String
  | .ok _ => "ok"
  | .error e => e.label

def readReply (channel : String) (decode : Json.Decoder α) :
    Except TransportError Json → Except TransportError α
  | .error e => .error e
  | .ok v => (decode v).mapError fun problem => .malformedReply channel problem.message

def request (channel : String) (payload : Except String Json) (decode : Json.Decoder α) :
    Program (Except TransportError α) := do
  let reply ← Program.ask (.delegate channel payload)
  let result := readReply channel decode reply
  Program.ask (.record (.request channel (outcomeLabel result)))
  return result

def checkPong : Except TransportError String → Except TransportError Unit
  | .error e => .error e
  | .ok reply =>
    if reply = pong then .ok ()
    else .error (.malformedReply workerHealthcheck s!"expected '{pong}', got '{reply}'")

/-- Asks the worker for a sign of life; only the agreed answer will do. -/
def healthCheck : Program (Except TransportError Unit) := do
  let reply ← request workerHealthcheck (.ok (.str ping)) Json.text
  return checkPong reply

end VmFleet.Delegation
