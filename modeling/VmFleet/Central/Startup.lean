import VmFleet.Central.Control

/-!
# Starting the central side

From its settings the central side starts its worker, makes sure that there is an administrator,
schedules its jobs and watches its settings file. The worker's health is checked whenever time
passes a multiple of the health check period.
-/

set_option autoImplicit false

namespace VmFleet.Central

open Config Tasks

def administrator (settings : CentralSettings) : NewAccount :=
  ⟨settings.adminUsername, settings.adminPassword, "Admin", "Admin", .admin⟩

/-- Opens the administrator's account, unless the username is taken already. -/
def bootstrap (settings : CentralSettings) : Attempt Account :=
  Task.submitTrusted (.createUser (administrator settings) false) (.ofSystem .root)

namespace World

def startWorkerFrom (w : World) (settings : WorkerSettings) : World :=
  if settings.disabled then w
  else w.startWorker settings.poolSize settings.latencyMillis none .notifier

def startJobs (w : World) (settings : JobsSettings) : World :=
  let w := w.newScheduler settings
  let (_, w) := w.onScheduler fun s => ((), s.register Jobs.updateStatusJob)
  w.startScheduler .notifier

/-- Starts everything that the settings ask for, or fails because of the administrator. -/
def start (w : World) (flags : Flags) (path : Option String) (settings : Settings) :
    Except TaskError World :=
  match (w.startWorkerFrom settings.worker).perform (bootstrap settings.central).run with
  | (some (.error e), _) => .error e
  | (_, w) =>
    let w := w.startJobs settings.jobs
    .ok { w with watcher := path.map fun path => ⟨path, flags, settings⟩ }.runWatcher

/-- Lets time pass, and checks the worker's health when that is due. -/
def pass (w : World) (healthCheckMillis millis : Nat) : World :=
  let (_, later) := w.perform (Program.ask (.wait millis))
  if later.now / healthCheckMillis = w.now / healthCheckMillis then later
  else (later.perform Delegation.healthCheck).2

end World
end VmFleet.Central
