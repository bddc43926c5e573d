import VmFleet.Config.Notifier
import VmFleet.Delegation.Exchange
import VmFleet.Json.Records

/-!
# The cloud worker

A worker serves the provisioning channel and the health check. Every provisioning request becomes an
errand of its own: its payload must be a machine, then it waits for a slot of the pool, and when the
machine is provisioned it is sent back as up. Errands outlive the worker that took them on.
-/

set_option autoImplicit false

namespace VmFleet.Delegation

inductive Errand.Stage where
  | taken
  /-- Waits for a slot, or has one and is about to use it. -/
  | waiting (machine : Machine)
  | provisioning (machine : Machine) (due : Nat)
  | over
  deriving DecidableEq, Repr

structure Errand where
  request : Request
  stage : Errand.Stage

structure Worker where
  createBox : Nat
  healthBox : Nat
  poolSize : Nat
  latencyMillis : Nat
  /-- Why provisioning fails at once, if it does. -/
  fault : Option String
  isStopping : Bool
  errands : List Errand
  busy : List Nat
  line : List Nat

namespace Worker

def start (x : Exchange) (poolSize latencyMillis : Nat) (fault : Option String) :
    Worker × Exchange :=
  let (createBox, x) := x.register resourceCreate
  let (healthBox, x) := x.register workerHealthcheck
  (⟨createBox, healthBox, poolSize, latencyMillis, fault, false, [], [], []⟩, x)

/-- Both channels are unregistered by name, and the mailboxes closed. -/
def leave (w : Worker) (x : Exchange) : Exchange :=
  (((x.unregister resourceCreate).unregister workerHealthcheck).close w.createBox).close w.healthBox

/-- A change with both sides sets the latency; the size of the pool stays. -/
def reconfigure (w : Worker) (change : Config.Change Config.WorkerSettings) : Worker :=
  match change.both with
  | some (_, current) => { w with latencyMillis := current.latencyMillis }
  | none => w

inductive Move where
  | dispatch (w : Worker)
  | answer
  | wait
  | leave

def move (w : Worker) (x : Exchange) : Move × Exchange :=
  if w.isStopping then (.leave, w.leave x)
  else
    match x.take w.createBox with
    | (.request r, x) => (.dispatch { w with errands := w.errands ++ [⟨r, .taken⟩] }, x)
    | (.closed, x) => (.leave, w.leave x)
    | (.nothing, x) =>
      match x.take w.healthBox with
      | (.request r, x) => (.answer, x.reply r.ticket (.ok (.str pong)))
      | (.closed, x) => (.leave, w.leave x)
      | (.nothing, x) => (.wait, x)

def canMove (w : Worker) (x : Exchange) : Bool :=
  w.isStopping || x.isReady w.createBox || x.isReady w.healthBox

/-! ## Errands -/

def setStage (w : Worker) (n : Nat) (stage : Errand.Stage) : Worker :=
  { w with errands := w.errands.modify n fun e => { e with stage } }

/-- Gives the errand a slot if one is free, and a place in line otherwise. -/
def acquire (w : Worker) (n : Nat) : Worker :=
  if w.busy.length < w.poolSize && w.line.isEmpty then { w with busy := w.busy ++ [n] }
  else { w with line := w.line ++ [n] }

def release (w : Worker) (n : Nat) : Worker :=
  { w with busy := w.busy.filter (· ≠ n) ++ w.line.take 1, line := w.line.drop 1 }

def conclude (w : Worker) (n : Nat) (e : Errand) (reply : Reply) (x : Exchange) :
    Worker × Exchange :=
  ((w.setStage n .over).release n, x.reply e.request.ticket reply)

def badPayload (problem : Json.DecodeError) : Failure :=
  .badRequest s!"invalid vm payload: {problem.message}"

/-- The next step of an errand, or none while it has to wait. -/
def advance (w : Worker) (n : Nat) (now : Nat) (x : Exchange) : Option (Worker × Exchange) :=
  match w.errands[n]? with
  | none => none
  | some e =>
    match e.stage with
    | .taken =>
      match Machine.decode e.request.envelope.payload with
      | .error problem =>
        some (w.setStage n .over, x.reply e.request.ticket (.error (badPayload problem)))
      | .ok m => some ((w.setStage n (.waiting m)).acquire n, x)
    | .waiting m =>
      if w.busy.contains n then
        match w.fault with
        | some text => some (w.conclude n e (.error (.fault text)) x)
        | none => some (w.setStage n (.provisioning m (now + w.latencyMillis)), x)
      else none
    | .provisioning m due =>
      if due ≤ now then some (w.conclude n e (.ok (m.withStatus .up).encode) x) else none
    | .over => none

def due (w : Worker) (n : Nat) : Option Nat :=
  match (w.errands[n]?).map Errand.stage with
  | some (.provisioning _ due) => some due
  | _ => none

def isOver (w : Worker) (n : Nat) : Bool :=
  match (w.errands[n]?).map Errand.stage with
  | some .over => true
  | none => true
  | _ => false

end Worker
end VmFleet.Delegation
