import VmFleet.Jobs.Job

/-!
# Scripted jobs

A job whose ticks behave as a script says, one entry per tick; the last entry counts for all later
ticks.
-/

set_option autoImplicit false

namespace VmFleet.Jobs

open Security Tasks

inductive Behaviour where
  | succeed
  | fail (reason : String)
  | deny (operation : Operation)
  | cancelled
  | panic (message : String)
  | slow (millis : Nat)
  /-- Waits so many times, and looks each time beforehand whether the work has been called off. -/
  | untilCancelled (rounds millis : Nat)
  | getVm (id : String)
  /-- Calls off a part of its work and tells whether the whole is called off. -/
  | child
  deriving DecidableEq, Repr

def waitRounds (millis : Nat) : Nat → Steps Unit
  | 0 => return ()
  | rounds + 1 => do
    stopIfCancelled
    ExceptT.lift (Program.ask (.wait millis))
    waitRounds millis rounds

def Behaviour.steps : Behaviour → Steps Unit
  | .succeed => return ()
  | .fail reason => throw (.executionFailed reason)
  | .deny operation => throw (.task (.unauthorized ⟨jobPrincipal.id, operation⟩))
  | .cancelled => throw .cancelled
  | .panic _ => return ()
  | .slow millis => ExceptT.lift (Program.ask (.wait millis))
  | .untilCancelled rounds millis => waitRounds millis rounds
  | .getVm id => do
    let _ ← perform (.getVm id)
    return ()
  | .child => do
    let whole ← ExceptT.lift (Program.ask .isCancelled)
    throw (.executionFailed s!"child true parent {whole}")

def Behaviour.work : Behaviour → Program Ending
  | .panic message => return .panicked message
  | b => do
    let result ← b.steps.run
    return .ofExcept result

def entryAt (script : List Behaviour) (n : Nat) : Behaviour :=
  (script[n]?.or script.getLast?).getD .succeed

def scriptedName : String := "Scripted Job"

/-- A scripted job with settings of its own, or with those of the configuration. -/
def scriptedJob (id : String) (script : List Behaviour) (own : Option Config.JobSettings) :
    Job where
  id := id
  name := scriptedName
  description := "Behaves as the input says"
  settings all := own.getD all.vmUpdateStatus
  work n := (entryAt script n).work

end VmFleet.Jobs
