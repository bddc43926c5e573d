import VmFleet.Central.Run

/-!
# Controlling the central side

What may be done to a running central side from outside: handlers, workers, a scheduler and a
watcher are started and stopped, and changes of settings are made up by hand. Activities go on
afterwards as far as they can without time passing.
-/

set_option autoImplicit false

namespace VmFleet.Central

open Delegation Jobs Config Store

namespace World

def new (accounts : Repository Account) (machines : Repository Machine) (timeoutMillis : Nat)
    (disk : Disk) : World where
  now := 0
  records := ⟨⟨accounts, 0, 0, []⟩, ⟨machines, 0, 0, []⟩, .empty, 0⟩
  exchange := .empty
  timeoutMillis
  seen := []
  inquiries := []
  workers := []
  scheduler := none
  notifier := .new
  desk := .new
  watcher := none
  isWatching := false
  disk
  ready := []
  blocked := []

/-! ## Records -/

/-- The next call to the accounts, not yet due to fail for another reason, fails for this one. -/
def failAccounts (w : World) (reasons : List String) : World :=
  { w with records := { w.records with
      accounts := { w.records.accounts with faults := w.records.accounts.faults ++ reasons } } }

def failMachines (w : World) (reasons : List String) : World :=
  { w with records := { w.records with
      machines := { w.records.machines with faults := w.records.machines.faults ++ reasons } } }

def setAccounts (w : World) (r : Repository Account) : World :=
  { w with records := { w.records with accounts := { w.records.accounts with repository := r } } }

def setMachines (w : World) (r : Repository Machine) : World :=
  { w with records := { w.records with machines := { w.records.machines with repository := r } } }

/-! ## Handlers and workers -/

/-- Where a subscription gets its changes from. -/
inductive Source where
  | nowhere
  | notifier
  | desk
  deriving DecidableEq, Repr

def subscribe (w : World) (source : Source) (name : String) (p : Part) : World :=
  match source with
  | .nowhere => w
  | .notifier => { w with notifier := w.notifier.subscribe name p }
  | .desk => { w with desk := w.desk.subscribe name p }

def addHandler (w : World) (channel : String) (script : List ScriptEntry) : World :=
  let (mailbox, x) := w.exchange.register channel
  (({ w with exchange := x }.addSeen channel []).spawn
    (.handler channel ⟨mailbox, script, none, []⟩)).settle

def unregister (w : World) (channel : String) : World :=
  { w with exchange := w.exchange.unregister channel }.settle

def startWorker (w : World) (poolSize latencyMillis : Nat) (fault : Option String)
    (source : Source) : World :=
  let number := w.workers.length
  let (worker, x) := Worker.start w.exchange poolSize latencyMillis fault
  (({ w with exchange := x, workers := w.workers ++ [worker] }.subscribe source (workerName number)
    .worker).spawn (.worker number)).settle

def stopWorker (w : World) : World :=
  { w with workers := w.workers.modify (w.workers.length - 1) fun worker =>
      { worker with isStopping := true } }.settle

/-! ## Changes made up by hand -/

/-- Announces changes back to back. -/
def announce (w : World) (p : Part) (changes : List (Change p.Value)) : World :=
  { w with desk := changes.foldl (fun n c => n.announce p c) w.desk }.settle

/-- No more changes of this part are made up. -/
def closeDesk (w : World) (p : Part) : World :=
  { w with desk := w.desk.close p }.settle

/-! ## The scheduler -/

def newScheduler (w : World) (settings : JobsSettings) : World :=
  { w with scheduler := some (.new settings) }

def onScheduler {α : Type} (w : World) (f : Scheduler → α × Scheduler) : Option α × World :=
  match w.scheduler with
  | none => (none, w)
  | some s =>
    let (a, s) := f s
    (some a, (w.setScheduler s).settle)

def startScheduler (w : World) (source : Source) : World :=
  match w.scheduler with
  | none => w
  | some s =>
    (((w.setScheduler s.start).subscribe source schedulerName .jobs).spawn .scheduler).settle

/-- Asks for a tick of a job and takes the answer, if the scheduler gives one. -/
def trigger (w : World) (id : String) : Option (Except JobError Unit) × World :=
  match w.onScheduler fun s => s.call id with
  | (none, w) => (none, w)
  | (some number, w) => (w.scheduler.bind fun s => s.answerTo number, w)

def isOver (w : World) : Bool :=
  match w.scheduler with
  | none => true
  | some s => s.stage = .over

/-- Shuts the scheduler down and waits for it; none when it was not running. -/
def shutdown (w : World) : Option Unit × World :=
  match w.scheduler with
  | none => (none, w)
  | some s =>
    if s.stage = .over || s.stage = .idle then (none, w)
    else (some (), (w.setScheduler s.shutdown).await isOver)

/-! ## The settings file -/

def loadWatcher (w : World) (path : String) (flags : Flags) : Except ConfigError Settings × World :=
  match load w.disk flags (some path) with
  | .error e => (.error e, w)
  | .ok current => (.ok current, { w with watcher := some ⟨path, flags, current⟩ })

def reload (w : World) : Option (Except ConfigError (List Part)) × World :=
  match w.watcher with
  | none => (none, w)
  | some watcher =>
    match watcher.reload w.disk w.notifier with
    | .error e => (some (.error e), w)
    | .ok (parts, watcher, notifier) =>
      (some (.ok parts), { w with watcher := some watcher, notifier }.settle)

/-- From now on the watcher reloads by itself, and no longer when it is told to. -/
def runWatcher (w : World) : World :=
  match w.watcher with
  | none => w
  | some watcher =>
    let period := watcher.current.runtime.scanMillis
    ({ w with watcher := none, isWatching := true }.spawn
      (.watcher watcher period (w.now + period))).settle

def stopWatcher (w : World) : World := { w with isWatching := false }.settle

end World
end VmFleet.Central
