import VmFleet.Config.Settings
import VmFleet.Jobs.Error
import VmFleet.Tasks.Submit
import VmFleet.Text.Quoted

/-!
# Jobs

A job is named work that is done again and again. Each tick ends in one of several ways, and one
tick that goes wrong does not keep the next from running. The job that keeps machines up to date
moves every machine that is not up.
-/

set_option autoImplicit false

namespace VmFleet.Jobs

open Security Tasks

inductive Ending where
  | finished
  | failed (error : JobError)
  | panicked (message : String)
  deriving DecidableEq, Repr

def Ending.outcome : Ending → TickOutcome
  | .finished => .success
  | .failed .cancelled => .cancelled
  | .failed (.task e) => if e.isUnauthorized then .unauthorized else .failed
  | .failed _ => .failed
  | .panicked _ => .panic

/-- What is kept of an ending besides its outcome. -/
def Ending.report : Ending → Option String
  | .finished => none
  | .failed .cancelled => some "Cancelled"
  | .failed (.task e) => some (if e.isUnauthorized then e.message else (JobError.task e).message)
  | .failed e => some e.message
  | .panicked message =>
    some s!"Task panic: task <n> panicked with message {Text.Quoted.quote message}"

def Ending.ofExcept : Except JobError Unit → Ending
  | .ok _ => .finished
  | .error e => .failed e

structure Job where
  id : String
  name : String
  description : String
  /-- The entry of this job among the settings of all jobs. -/
  settings : Config.JobsSettings → Config.JobSettings
  work : Nat → Program Ending

abbrev Steps (α : Type) : Type := ExceptT JobError Program α

/-- The identity under which every tick runs. -/
def jobPrincipal : Principal := .ofSystem .backgroundJob

def perform (t : Task) : Steps t.Result :=
  ExceptT.mk do
    let result ← (t.submitTrusted jobPrincipal).run
    return result.mapError .task

def stopIfCancelled : Steps Unit := do
  if ← ExceptT.lift (Program.ask .isCancelled) then throw .cancelled

/-- Moves every machine that is not up, all at once; nothing is written when there is none. -/
def updateStatuses : Steps Unit := do
  stopIfCancelled
  let machines ← perform .getAllVms
  let updates := Machine.transitions machines
  if updates.isEmpty then return ()
  stopIfCancelled
  let _ ← perform (.bulkUpdateVms updates)
  return ()

def updateStatusJob : Job where
  id := "vm_update_status"
  name := "VM Status Update"
  description := "Move VMs that are not up to status UP"
  settings := Config.JobsSettings.vmUpdateStatus
  work _ := do
    let result ← updateStatuses.run
    return .ofExcept result

end VmFleet.Jobs
