import VmFleet.Central.World

/-!
# One step of an activity

A program goes on until it has to wait for time or for a reply. Every other activity takes one step
at a time: it changes the world and either can go on, or waits, or is over.
-/

set_option autoImplicit false

namespace VmFleet.Central

open Delegation Jobs Config Tasks

inductive Reaction (e : Effect) where
  | answer (a : e.Answer) (w : World)
  | wait (wait : Wait) (w : World)

namespace World

def awaitReply (w : World) (channel : String) (payload : Except String Json)
    (p : Exchange.Pending) : Reaction (.delegate channel payload) :=
  let w := { w with exchange := w.exchange.enter p }
  match w.exchange.await w.now w.timeoutMillis p with
  | .over result => .answer result { w with exchange := w.exchange.finish p }
  | .due deadline => .wait (.reply { p with deadline := some deadline }) w
  | .inLine => .wait (.reply p) w

def sendRequest (w : World) (channel : String) (payload : Except String Json) :
    Reaction (.delegate channel payload) :=
  match payload with
  | .error reason => .answer (.error (.unencodable reason)) w
  | .ok v =>
    match w.exchange.send channel v with
    | (.error e, _) => .answer (.error e) w
    | (.ok p, x) => { w with exchange := x }.awaitReply channel (.ok v) p

/-- The reaction to an effect, given what its program waited for already. -/
def react (w : World) (isCancelled : Bool) : (e : Effect) → Wait → Reaction e
  | .accounts call, _ =>
    let r := w.records.onAccounts call
    .answer r.1 { w with records := r.2 }
  | .machines call, _ =>
    let r := w.records.onMachines call
    .answer r.1 { w with records := r.2 }
  | .draw count, _ =>
    let r := w.records.draw count
    .answer r.1 { w with records := r.2 }
  | .record event, _ => .answer () (w.record [event])
  | .provision m, _ => .answer () (w.spawn (.provisioning (.of (provision m).run)))
  | .delegate channel payload, .reply p => w.awaitReply channel payload p
  | .delegate channel payload, _ => w.sendRequest channel payload
  | .wait _, .due time => if time ≤ w.now then .answer () w else .wait (.due time) w
  | .wait millis, _ => if millis = 0 then .answer () w else .wait (.due (w.now + millis)) w
  | .isCancelled, _ => .answer isCancelled w

end World

inductive Progress (α : Type) where
  | over (a : α)
  | wait (t : Thread α)

def proceed {α : Type} (isCancelled : Bool) : Program α → Wait → World → Progress α × World
  | .done a, _, w => (.over a, w)
  | .perform e next, wait, w =>
    match w.react isCancelled e wait with
    | .answer a w => proceed isCancelled (next a) .nothing w
    | .wait wait w => (.wait ⟨.perform e next, wait⟩, w)

namespace Thread

variable {α : Type}

def canProceed (t : Thread α) (w : World) : Bool :=
  match t.wait with
  | .nothing => true
  | .due time => time ≤ w.now
  | .reply p =>
    match (w.exchange.enter p).await w.now w.timeoutMillis p with
    | .over _ => true
    | .due _ => p.deadline.isNone
    | .inLine => false

def due (t : Thread α) : Option Nat :=
  match t.wait with
  | .nothing => none
  | .due time => some time
  | .reply p => p.deadline

end Thread

inductive Turn where
  | again (a : Activity)
  | wait (a : Activity)
  | over

namespace World

def isCancelled (w : World) : Bool := (w.scheduler.map Scheduler.isCancelled).getD false

def stepHandler (w : World) (channel : String) (h : Handler) : Turn × World :=
  match h.move w.now w.exchange with
  | (.take r h, x) =>
    (.again (.handler channel h), { w with exchange := x }.addSeen channel [r.envelope])
  | (.treat h, x) => (.again (.handler channel h), { w with exchange := x })
  | (.wait, _) => (.wait (.handler channel h), w)
  | (.leave, x) => (.over, { w with exchange := x })

def notifyWorker (w : World) (number : Nat) (worker : Worker) : Turn × World :=
  if w.isNotified (workerName number) then
    match w.receive (workerName number) with
    | (some ⟨.worker, .item change⟩, w) =>
      (.again (.worker number), w.setWorker number (worker.reconfigure change))
    | (some ⟨_, .closed⟩, w) => (.again (.worker number), w.unsubscribe (workerName number))
    | (_, w) => (.again (.worker number), w)
  else (.wait (.worker number), w)

def stepWorker (w : World) (number : Nat) : Turn × World :=
  match w.workers[number]? with
  | none => (.over, w)
  | some worker =>
    match worker.move w.exchange with
    | (.leave, x) => (.over, { w with exchange := x }.unsubscribe (workerName number))
    | (.dispatch next, x) =>
      let w := { w with exchange := x }.setWorker number next
      (.again (.worker number), w.spawn (.errand number worker.errands.length))
    | (.answer, x) => (.again (.worker number), { w with exchange := x })
    | (.wait, _) => w.notifyWorker number worker

def stepErrand (w : World) (number errand : Nat) : Turn × World :=
  match w.workers[number]? with
  | none => (.over, w)
  | some worker =>
    match worker.advance errand w.now w.exchange with
    | some (next, x) =>
      (.again (.errand number errand), { w with exchange := x }.setWorker number next)
    | none => (if worker.isOver errand then .over else .wait (.errand number errand), w)

def notifyScheduler (w : World) (s : Scheduler) : Turn × World :=
  if s.stage = .serving && w.isNotified schedulerName then
    match w.receive schedulerName with
    | (some ⟨.jobs, .item change⟩, w) =>
      (.again .scheduler, w.setScheduler (s.reconfigure change w.now))
    | (some ⟨_, .closed⟩, w) => (.again .scheduler, w.unsubscribe schedulerName)
    | (_, w) => (.again .scheduler, w)
  else (.wait .scheduler, w)

def stepScheduler (w : World) (s : Scheduler) : Turn × World :=
  if s.stage = .over then (.over, w.unsubscribe schedulerName)
  else
    match s.advance w.now with
    | some next => (.again .scheduler, w.setScheduler next)
    | none => w.notifyScheduler s

def stepTimer (w : World) (s : Scheduler) (number : Nat) : Turn × World :=
  match s.advanceTimer number w.now with
  | some (next, events) => (.again (.timer number), (w.setScheduler next).record events)
  | none => (if s.isStopped number then .over else .wait (.timer number), w)

def stepManual (w : World) (s : Scheduler) (run : Nat) : Turn × World :=
  match s.advanceRun run w.now with
  | some (next, events) => (.over, (w.setScheduler next).record events)
  | none => (if s.isRecorded run then .over else .wait (.manual run), w)

def endRun (w : World) (run : Nat) (ending : Ending) : World :=
  match w.scheduler with
  | none => w
  | some s => { w with scheduler := some (s.endRun run ending) }

def endInquiry (w : World) (number : Nat) (answer : Json) : World :=
  { w with inquiries := w.inquiries.set number (some (answer, w.now)) }

/-- Looks at the file once more; the next time is a later point of the grid that the period spans.
-/
def stepWatcher (w : World) (watcher : Watcher) (period due : Nat) : Turn × World :=
  if !w.isWatching then (.over, w)
  else if w.now < due then (.wait (.watcher watcher period due), w)
  else
    let (watcher, notifier) := watcher.refresh w.disk w.notifier
    (.again (.watcher watcher period (Timer.next due period w.now)), { w with notifier })

def withScheduler (w : World) (f : Scheduler → Turn × World) : Turn × World :=
  match w.scheduler with
  | none => (.over, w)
  | some s => f s

def step (w : World) : Activity → Turn × World
  | .handler channel h => w.stepHandler channel h
  | .worker number => w.stepWorker number
  | .errand worker number => w.stepErrand worker number
  | .provisioning t =>
    match proceed false t.rest t.wait w with
    | (.over _, w) => (.over, w)
    | (.wait t, w) => (.wait (.provisioning t), w)
  | .inquiry number t =>
    match proceed false t.rest t.wait w with
    | (.over a, w) => (.over, w.endInquiry number a)
    | (.wait t, w) => (.wait (.inquiry number t), w)
  | .scheduler => w.withScheduler w.stepScheduler
  | .timer number => w.withScheduler fun s => w.stepTimer s number
  | .manual run => w.withScheduler fun s => w.stepManual s run
  | .work run t =>
    match proceed w.isCancelled t.rest t.wait w with
    | (.over ending, w) => (.over, w.endRun run ending)
    | (.wait t, w) => (.wait (.work run t), w)
  | .watcher watcher period due => w.stepWatcher watcher period due

/-! ## Who can go on -/

def canStep (w : World) : Activity → Bool
  | .handler _ h => h.canMove w.now w.exchange
  | .worker number =>
    match w.workers[number]? with
    | none => true
    | some worker => worker.canMove w.exchange || w.isNotified (workerName number)
  | .errand worker number =>
    match w.workers[worker]? with
    | none => true
    | some worker => worker.isOver number || (worker.advance number w.now w.exchange).isSome
  | .provisioning t => t.canProceed w
  | .inquiry _ t => t.canProceed w
  | .scheduler =>
    match w.scheduler with
    | none => true
    | some s => s.stage = .over || (s.advance w.now).isSome ||
        s.stage = .serving && w.isNotified schedulerName
  | .timer number =>
    match w.scheduler with
    | none => true
    | some s => s.isStopped number || (s.advanceTimer number w.now).isSome
  | .manual run =>
    match w.scheduler with
    | none => true
    | some s => s.isRecorded run || (s.advanceRun run w.now).isSome
  | .work _ t => t.canProceed w
  | .watcher _ _ due => !w.isWatching || due ≤ w.now

def dueOf (w : World) : Activity → Option Nat
  | .handler _ h => h.due
  | .worker _ => none
  | .errand worker number => (w.workers[worker]?).bind fun worker => worker.due number
  | .provisioning t => t.due
  | .inquiry _ t => t.due
  | .scheduler => w.scheduler.bind Scheduler.due
  | .timer number => w.scheduler.bind fun s => s.timerDue number
  | .manual _ => none
  | .work _ t => t.due
  | .watcher _ _ due => some due

end World
end VmFleet.Central
