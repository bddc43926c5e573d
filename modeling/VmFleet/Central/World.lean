import VmFleet.Config.Watcher
import VmFleet.Delegation.Handler
import VmFleet.Delegation.Worker
import VmFleet.Jobs.Scheduler
import VmFleet.Program.Records

/-!
# The central side and its activities

Everything that the central side of the fleet holds at one moment: the time, the records, the
exchange, the workers, the scheduler, the settings, and the activities that are going on. An
activity either can go on or waits for something.
-/

set_option autoImplicit false

namespace VmFleet.Central

open Delegation Jobs Config Tasks

inductive Wait where
  | nothing
  | due (time : Nat)
  | reply (p : Exchange.Pending)

structure Thread (α : Type) where
  rest : Program α
  wait : Wait

def Thread.of {α : Type} (p : Program α) : Thread α := ⟨p, .nothing⟩

inductive Activity where
  | handler (channel : String) (h : Handler)
  | worker (number : Nat)
  | errand (worker number : Nat)
  | provisioning (t : Thread (Except TaskError Machine))
  | inquiry (number : Nat) (t : Thread Json)
  | scheduler
  | timer (number : Nat)
  /-- Waits for the work of a tick that was started by hand. -/
  | manual (run : Nat)
  | work (run : Nat) (t : Thread Ending)
  | watcher (watcher : Watcher) (period due : Nat)

structure World where
  now : Nat
  records : Records
  exchange : Exchange
  /-- The longest that a request waits for its reply. -/
  timeoutMillis : Nat
  /-- What scripted handlers took, by channel; a channel that never had one is missing. -/
  seen : List (String × List Envelope)
  /-- What has come of the inquiries that were started side by side last, and when. -/
  inquiries : List (Option (Json × Nat))
  workers : List Worker
  scheduler : Option Scheduler
  /-- Announces changes that the watcher found. -/
  notifier : Notifier
  /-- Announces changes that are made up by hand. -/
  desk : Notifier
  /-- A watcher that reloads only when it is told to. -/
  watcher : Option Watcher
  isWatching : Bool
  disk : Disk
  /-- The activities that can go on, in order. -/
  ready : List Activity
  /-- The activities that wait, in the order in which they began to. -/
  blocked : List Activity

namespace World

def spawn (w : World) (a : Activity) : World := { w with ready := w.ready ++ [a] }

def spawnAll (w : World) (as : List Activity) : World := { w with ready := w.ready ++ as }

def record (w : World) (events : List Metrics.Event) : World :=
  { w with records := events.foldl Records.record w.records }

def runActivities (s : Scheduler) (first : Nat) : List Activity :=
  (List.range' first (s.runs.length - first)).flatMap fun n =>
    (if s.manual.contains n then [Activity.manual n] else []) ++
      ((s.workOf n).map fun p => Activity.work n (.of p)).toList

/-- Puts a scheduler in place, with an activity for every timer and every tick that is new. -/
def setScheduler (w : World) (s : Scheduler) : World :=
  let timers := (w.scheduler.map fun s => s.timers.length).getD 0
  let runs := (w.scheduler.map fun s => s.runs.length).getD 0
  { w with scheduler := some s }.spawnAll
    ((List.range' timers (s.timers.length - timers)).map Activity.timer ++ runActivities s runs)

def setWorker (w : World) (number : Nat) (worker : Worker) : World :=
  { w with workers := w.workers.set number worker }

def addSeen (w : World) (channel : String) (es : List Envelope) : World :=
  { w with seen := insertEntry channel ((w.seen.lookup channel).getD [] ++ es) w.seen }

/-! ## Subscriptions -/

def workerName (number : Nat) : String := s!"worker {number}"

def schedulerName : String := "scheduler"

def hasNews (n : Notifier) (name : String) : Bool :=
  n.subscribers.any fun s => s.name = name && s.queue.hasNews

def isNotified (w : World) (name : String) : Bool := hasNews w.notifier name || hasNews w.desk name

def unsubscribe (w : World) (name : String) : World :=
  { w with notifier := w.notifier.unsubscribe name, desk := w.desk.unsubscribe name }

def receive (w : World) (name : String) : Option Notifier.Received × World :=
  if hasNews w.notifier name then
    let (r, n) := w.notifier.receive name
    (r, { w with notifier := n })
  else
    let (r, n) := w.desk.receive name
    (r, { w with desk := n })

end World
end VmFleet.Central
