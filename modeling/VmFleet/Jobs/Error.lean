import VmFleet.Tasks.Error

/-!
# Job errors and outcomes

What scheduling or running a job can fail with, and how a tick can end.
-/

set_option autoImplicit false

namespace VmFleet.Jobs

open Tasks

inductive JobError where
  | notFound (id : String)
  | alreadyScheduled (id : String)
  | alreadyRunning (id : String)
  | invalidPeriod (id : String)
  | task (error : TaskError)
  | executionFailed (reason : String)
  | cancelled
  | schedulerUnavailable
  deriving DecidableEq, Repr

def JobError.message : JobError → String
  | .notFound id => s!"Job {id} not found"
  | .alreadyScheduled id => s!"Job {id} is already scheduled"
  | .alreadyRunning id => s!"Job {id} is already running"
  | .invalidPeriod id => s!"Invalid period for job {id}: must be greater than 0"
  | .task e => s!"Task failed: {e.message}"
  | .executionFailed reason => s!"Execution failed: {reason}"
  | .cancelled => "Job was cancelled"
  | .schedulerUnavailable => "Scheduler not available"

inductive TickOutcome where
  | success
  | failed
  | unauthorized
  | cancelled
  | panic
  deriving DecidableEq, Repr

def TickOutcome.name : TickOutcome → String
  | .success => "success"
  | .failed => "failed"
  | .unauthorized => "unauthorized"
  | .cancelled => "cancelled"
  | .panic => "panic"

def TickOutcome.all : List TickOutcome := [.success, .failed, .unauthorized, .cancelled, .panic]

end VmFleet.Jobs
