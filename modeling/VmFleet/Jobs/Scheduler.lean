import VmFleet.Config.Notifier
import VmFleet.Jobs.Board
import VmFleet.Jobs.Timer

/-!
# The job scheduler

The scheduler gives each enabled job a timer, and starts them anew whenever the settings change.
Each of its timers, each tick started by hand and the scheduler itself go on in steps of their own,
which may follow each other in any order. When it is shut down it cancels the timers that it still
holds and waits for each of them, and for each tick started by hand, for a limited time.
-/

set_option autoImplicit false

namespace VmFleet.Jobs

structure Run where
  job : String
  trigger : Trigger
  startedAt : Nat
  ending : Option Ending
  isRecorded : Bool

inductive Handle where
  | timer (number : Nat)
  | run (number : Nat)
  deriving DecidableEq, Repr

inductive Stage where
  /-- Not started: jobs and timers may be set up from outside. -/
  | idle
  | starting
  | serving
  /-- Waits for the first of these, and no longer than until the deadline. -/
  | closing (handles : List Handle) (deadline : Option Nat)
  | over
  deriving DecidableEq, Repr

structure Scheduler where
  jobs : List Job
  /-- The number of the timer that each registered job has, if it has one. -/
  schedules : List (String × Option Nat)
  timers : List Timer
  runs : List Run
  /-- The ticks started by hand that may be in progress. -/
  manual : List Nat
  board : Board
  settings : Config.JobsSettings
  stage : Stage
  isCancelled : Bool
  /-- Jobs that are to be started by hand, each with the number of the call. -/
  commands : List (Nat × String)
  answers : List (Option (Except JobError Unit))

namespace Scheduler

/-- The longest that a shutdown waits for one handle. -/
def graceMillis : Nat := 30000

def new (settings : Config.JobsSettings) : Scheduler :=
  ⟨[], [], [], [], [], .empty, settings, .idle, false, [], []⟩

def job? (s : Scheduler) (id : String) : Option Job := s.jobs.find? fun job => job.id = id

/-- Registers a job, unscheduled; one whose id is taken is ignored. -/
def register (s : Scheduler) (job : Job) : Scheduler :=
  if (s.job? job.id).isSome then s
  else { s with jobs := s.jobs ++ [job], schedules := s.schedules ++ [(job.id, none)] }

def timerOf (s : Scheduler) (id : String) : Option Nat := (s.schedules.lookup id).join

def setTimer (s : Scheduler) (id : String) (number : Option Nat) : Scheduler :=
  { s with schedules := s.schedules.map fun entry => if entry.1 = id then (id, number) else entry }

def onTimer (s : Scheduler) (number : Nat) (f : Timer → Timer) : Scheduler :=
  { s with timers := s.timers.modify number f }

/-- Starts a timer for a job that has none, and says which. One that is started after the scheduler
was asked to stop is cancelled from the beginning. -/
def schedule (s : Scheduler) (id : String) (period now : Nat) : Except JobError Nat × Scheduler :=
  match s.schedules.lookup id with
  | none => (.error (.notFound id), s)
  | some (some _) => (.error (.alreadyScheduled id), s)
  | some none =>
    if period = 0 then (.error (.invalidPeriod id), s)
    else
      let number := s.timers.length
      (.ok number,
        { s.setTimer id (some number) with
          timers := s.timers ++ [.start id now period s.isCancelled]
          board := s.board.schedule id period })

/-- Cancels the timer of a job; without one nothing happens. A tick in progress goes on. -/
def cancel (s : Scheduler) (id : String) : Bool × Scheduler :=
  match s.timerOf id with
  | none => (false, s)
  | some number =>
    (true, { (s.setTimer id none).onTimer number Timer.cancel with
      board := s.board.unschedule id })

def reschedule (settings : Config.JobsSettings) (now : Nat) (s : Scheduler) (job : Job) :
    Scheduler :=
  let s := (s.cancel job.id).2
  let own := job.settings settings
  if own.disabled then s else (s.schedule job.id own.periodMillis now).2

/-- Decides anew for every job whether it has a timer and at what period. -/
def applySettings (s : Scheduler) (settings : Config.JobsSettings) (now : Nat) : Scheduler :=
  { s.jobs.foldl (reschedule settings now) s with settings }

/-- A change with both sides applies the new settings. -/
def reconfigure (s : Scheduler) (change : Config.Change Config.JobsSettings) (now : Nat) :
    Scheduler :=
  match change.both with
  | some (_, current) => s.applySettings current now
  | none => s

/-! ## Ticks -/

/-- Begins a tick of a job, unless one is in progress. -/
def beginRun (s : Scheduler) (id : String) (trigger : Trigger) (now : Nat) : Option Scheduler :=
  (s.board.beginRun id).map fun board =>
    { s with board, runs := s.runs ++ [⟨id, trigger, now, none, false⟩] }

def endRun (s : Scheduler) (number : Nat) (ending : Ending) : Scheduler :=
  { s with runs := s.runs.modify number fun r => { r with ending := some ending } }

def endingOf (s : Scheduler) (number : Nat) : Option Ending := (s.runs[number]?).bind Run.ending

/-- How many ticks of the job began before the one of that number. -/
def ordinal (s : Scheduler) (number : Nat) (id : String) : Nat :=
  (s.runs.take number).countP fun r => r.job = id

def executions (s : Scheduler) (id : String) : Nat := s.ordinal s.runs.length id

def workOf (s : Scheduler) (number : Nat) : Option (Program Ending) := do
  let r ← s.runs[number]?
  let job ← s.job? r.job
  return job.work (s.ordinal number r.job)

def Run.infoAt (r : Run) (ending : Ending) (now : Nat) : RunInfo :=
  ⟨now - r.startedAt, ending.outcome, ending.report, r.trigger⟩

/-- Releases the job of a tick whose work is over, and keeps and counts how it ended. -/
def record (s : Scheduler) (number : Nat) (ending : Ending) (now : Nat) :
    Scheduler × List Metrics.Event :=
  match s.runs[number]? with
  | none => (s, [])
  | some r =>
    let info := Run.infoAt r ending now
    ({ s with
        board := s.board.finishRun r.job info
        runs := s.runs.modify number fun r => { r with isRecorded := true } },
     [.tick r.job info.outcome.name info.durationMillis])

/-- A cancelled timer that waits for its time stops. -/
def stopTimer? (s : Scheduler) (number : Nat) : Option Scheduler := do
  let t ← s.timers[number]?
  if t.phase = .idle && t.isCancelled then return s.onTimer number Timer.stop else none

/-- A timer whose time has come starts a tick; when one is in progress it waits for its next time.
-/
def fireTimer? (s : Scheduler) (number now : Nat) : Option Scheduler := do
  let t ← s.timers[number]?
  if t.phase = .idle && t.due ≤ now then
    return match s.beginRun t.job .timer now with
      | none => s.onTimer number fun t => t.skip now
      | some began => began.onTimer number fun t => t.fire now s.runs.length
  else none

/-- A timer whose tick is over records it and waits for its next time. -/
def finishTick? (s : Scheduler) (number now : Nat) : Option (Scheduler × List Metrics.Event) := do
  let t ← s.timers[number]?
  let run ← t.run?
  let ending ← s.endingOf run
  let (s, events) := s.record run ending now
  return (s.onTimer number Timer.rest, events)

/-- The next step of a timer, or none while it waits. A timer that was cancelled and whose time has
come can go either way: it may stop, but here it fires. -/
def advanceTimer (s : Scheduler) (number now : Nat) : Option (Scheduler × List Metrics.Event) :=
  ((s.fireTimer? number now).or (s.stopTimer? number)).map (·, [])
    |>.or (s.finishTick? number now)

def isStopped (s : Scheduler) (number : Nat) : Bool :=
  ((s.timers[number]?).map fun t => decide (t.phase = .stopped)).getD true

def timerDue (s : Scheduler) (number : Nat) : Option Nat := do
  let t ← s.timers[number]?
  if t.phase = .idle then some t.due else none

def isRecorded (s : Scheduler) (number : Nat) : Bool :=
  ((s.runs[number]?).map Run.isRecorded).getD true

/-- The next step of a tick started by hand, once its work is over. -/
def advanceRun (s : Scheduler) (number now : Nat) : Option (Scheduler × List Metrics.Event) := do
  let ending ← s.endingOf number
  if s.isRecorded number then none
  return s.record number ending now

/-! ## Starting by hand -/

/-- Asks for a tick; the answer comes under the number of the call. A scheduler that is over takes
no calls. -/
def call (s : Scheduler) (id : String) : Nat × Scheduler :=
  let number := s.answers.length
  (number,
    if s.stage = .over then { s with answers := s.answers ++ [some (.error .schedulerUnavailable)] }
    else { s with answers := s.answers ++ [none], commands := s.commands ++ [(number, id)] })

def answer (s : Scheduler) (number : Nat) (result : Except JobError Unit) : Scheduler :=
  { s with answers := s.answers.modify number fun _ => some result }

def answerTo (s : Scheduler) (number : Nat) : Option (Except JobError Unit) :=
  (s.answers[number]?).join

def trigger (s : Scheduler) (id : String) (now : Nat) : Except JobError Unit × Scheduler :=
  if (s.job? id).isNone then (.error (.notFound id), s)
  else
    match s.beginRun id .manual now with
    | none => (.error (.alreadyRunning id), s)
    | some began => (.ok (), { began with manual := s.manual ++ [s.runs.length] })

/-! ## The scheduler's own steps -/

def start (s : Scheduler) : Scheduler := { s with stage := .starting }

/-- Asks the scheduler to stop: the work is called off and every timer cancelled. -/
def shutdown (s : Scheduler) : Scheduler :=
  { s with isCancelled := true, timers := s.timers.map Timer.cancel }

def refuseCalls (s : Scheduler) : Scheduler :=
  { s with
    commands := []
    answers := s.answers.map fun a => a.or (some (.error .schedulerUnavailable)) }

/-- Lets go of the scheduler; its timers go on. -/
def drop (s : Scheduler) : Scheduler := { s.refuseCalls with stage := .over }

def isDone (s : Scheduler) : Handle → Bool
  | .timer number => s.isStopped number
  | .run number => s.isRecorded number

/-- What a shutdown waits for, one after the other. Timers are kept in no particular order; here they
stand in the order in which their jobs were registered. -/
def handles (s : Scheduler) : List Handle :=
  s.schedules.filterMap (fun entry => entry.2.map .timer) ++
    (s.manual.filter fun n => !s.isRecorded n).map .run

/-- Takes the timers from their jobs and cancels them. -/
def beginClosing (s : Scheduler) : Scheduler :=
  { s with
    stage := .closing s.handles none
    schedules := s.schedules.map fun entry => (entry.1, none)
    timers := s.timers.mapIdx fun n t => if .timer n ∈ s.handles then t.cancel else t
    manual := [] }

def close (s : Scheduler) : Scheduler :=
  { s.drop with board := { s.board with scheduled := [] } }

def enter? (s : Scheduler) (now : Nat) : Option Scheduler :=
  if s.stage = .starting then some { s.applySettings s.settings now with stage := .serving }
  else none

def beginClosing? (s : Scheduler) : Option Scheduler :=
  if s.stage = .serving && s.isCancelled then some s.beginClosing else none

def handleCall? (s : Scheduler) (now : Nat) : Option Scheduler :=
  match s.stage, s.commands with
  | .serving, (number, id) :: rest =>
    let (result, s) := s.trigger id now
    some ({ s with commands := rest }.answer number result)
  | _, _ => none

/-- A closing scheduler is done with its first handle, gives it up, or begins to wait for it.
Without handles it is over. -/
def closeNext? (s : Scheduler) (now : Nat) : Option Scheduler :=
  match s.stage with
  | .closing [] _ => some s.close
  | .closing (handle :: rest) deadline =>
    if s.isDone handle then some { s with stage := .closing rest none }
    else match deadline with
      | none => some { s with stage := .closing (handle :: rest) (some (now + graceMillis)) }
      | some due => if due ≤ now then some { s with stage := .closing rest none } else none
  | _ => none

/-- The next step of the scheduler itself, or none while it waits. When it was asked to stop it
handles no more calls. -/
def advance (s : Scheduler) (now : Nat) : Option Scheduler :=
  (s.enter? now).or (s.beginClosing?.or ((s.handleCall? now).or (s.closeNext? now)))

def due (s : Scheduler) : Option Nat :=
  match s.stage with
  | .closing _ deadline => deadline
  | _ => none

def infos (s : Scheduler) : List JobInfo :=
  (s.jobs.map s.board.info).mergeSort fun a b => a.id ≤ b.id

def info? (s : Scheduler) (id : String) : Option JobInfo := (s.job? id).map s.board.info

theorem timers_beginClosing (s : Scheduler) (n : Nat) :
    s.beginClosing.timers[n]? =
      (s.timers[n]?).map fun t => if .timer n ∈ s.handles then t.cancel else t := by
  simp [beginClosing]

end Scheduler
end VmFleet.Jobs
