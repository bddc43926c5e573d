import VmFleet.Central.Startup
import VmFleet.Proofs.Central.Acting
import VmFleet.Proofs.Config.Resolution
import VmFleet.Proofs.Jobs.Attempts

/-!
# What the settings are used for

A central side that is started with admitted settings looks at its file at intervals, provisions in a
pool and waits for replies no longer than some time. None of the three can ever be of no use, however
long it runs and whatever the file says later; nor can jobs fail to be scheduled with the settings in
force.
-/

set_option autoImplicit false

namespace VmFleet.Central

open Delegation Jobs Config Tasks

/-- A watcher has admitted settings, and there is time between its looks at the file. -/
def Activity.InRange : Activity → Prop
  | .watcher x period _ => Admitted x.current ∧ 0 < period
  | _ => True

namespace World

structure InRange (w : World) : Prop where
  timeout : 0 < w.timeoutMillis
  pools : ∀ x ∈ w.workers, 1 ≤ x.poolSize ∧ x.poolSize ≤ 1024
  ready : ∀ a ∈ w.ready, a.InRange
  blocked : ∀ a ∈ w.blocked, a.InRange
  watcher : ∀ x, w.watcher = some x → Admitted x.current

variable {w w' : World} {α : Type}

theorem inRange_of_eq (h : w.InRange) (htimeout : w'.timeoutMillis = w.timeoutMillis)
    (hworkers : w'.workers = w.workers) (hready : w'.ready = w.ready)
    (hblocked : w'.blocked = w.blocked) (hwatcher : w'.watcher = w.watcher) : w'.InRange :=
  ⟨htimeout ▸ h.timeout,hworkers ▸ h.pools,hready ▸ h.ready,hblocked ▸ h.blocked,
    hwatcher ▸ h.watcher⟩

/-! ## Activities -/

theorem spawnAll_inRange (h : w.InRange) (as : List Activity) (has : ∀ a ∈ as, a.InRange) :
    (w.spawnAll as).InRange := by
  refine ⟨h.timeout,h.pools,?_,h.blocked,h.watcher⟩
  intro a ha
  rcases List.mem_append.mp ha with ha | ha
  · exact h.ready a ha
  · exact has a ha

theorem spawn_inRange (h : w.InRange) (a : Activity) (ha : a.InRange) : (w.spawn a).InRange :=
  spawnAll_inRange h [a] (by simpa using ha)

theorem runActivities_inRange (s : Scheduler) (first : Nat) :
    ∀ a ∈ runActivities s first, a.InRange := by
  intro a ha
  obtain ⟨n, -, ha⟩ := List.mem_flatMap.mp ha
  rcases List.mem_append.mp ha with ha | ha
  · split at ha
    · cases List.mem_singleton.mp ha
      trivial
    · cases ha
  · obtain ⟨p, -, rfl⟩ := Option.map_eq_some_iff.mp (Option.mem_toList.mp ha)
    trivial

theorem setScheduler_inRange (h : w.InRange) (s : Scheduler) : (w.setScheduler s).InRange := by
  have hplaced : InRange { w with scheduler := some s } := inRange_of_eq h rfl rfl rfl rfl rfl
  refine spawnAll_inRange hplaced _ fun a ha => ?_
  rcases List.mem_append.mp ha with ha | ha
  · obtain ⟨n, -, rfl⟩ := List.mem_map.mp ha
    trivial
  · exact runActivities_inRange s _ a ha

theorem setWorker_inRange (h : w.InRange) (n : Nat) (worker next : Worker)
    (hn : w.workers[n]? = some worker) (hsize : next.poolSize = worker.poolSize) :
    (w.setWorker n next).InRange := by
  refine ⟨h.timeout,?_,h.ready,h.blocked,h.watcher⟩
  intro x hx
  rcases List.mem_or_eq_of_mem_set hx with hx | rfl
  · exact h.pools x hx
  · rw [hsize]
    exact h.pools worker (List.mem_of_getElem? hn)

theorem react_inRange (isCancelled : Bool) (w : World) (e : Effect) (wait : Wait) (h : w.InRange) :
    (w.react isCancelled e wait).world.InRange := by
  cases e with
  | provision m => exact spawn_inRange h _ trivial
  | delegate channel payload =>
    obtain ⟨x, -, hw⟩ := delegate_world w isCancelled channel payload wait
    rw [hw]
    exact inRange_of_eq h rfl rfl rfl rfl rfl
  | wait millis =>
    rw [wait_world]
    exact h
  | _ => exact inRange_of_eq h rfl rfl rfl rfl rfl

theorem proceed_inRange (isCancelled : Bool) (p : Program α) (wait : Wait) (h : w.InRange) :
    (proceed isCancelled p wait w).2.InRange :=
  proceed_related (fun w w' => w.InRange → w'.InRange) (fun _ h => h) (fun _ _ _ h k hu => k (h hu))
    isCancelled (react_inRange isCancelled) p wait w h

/-- A step leaves a world in range, and so is what is left of the activity. -/
def Stepped : Turn × World → Prop
  | (.again a, w) => a.InRange ∧ w.InRange
  | (.wait a, w) => a.InRange ∧ w.InRange
  | (.over, w) => w.InRange

theorem stepped_wait (h : w.InRange) (a : Activity) (ha : a.InRange) (isOver : Bool) :
    Stepped (if isOver then .over else .wait a, w) := by
  cases isOver with
  | true => exact h
  | false => exact ⟨ha,h⟩

theorem stepHandler_inRange (h : w.InRange) (channel : String) (handler : Handler) :
    Stepped (w.stepHandler channel handler) := by
  unfold stepHandler
  split
  · exact ⟨trivial,inRange_of_eq h rfl rfl rfl rfl rfl⟩
  · exact ⟨trivial,inRange_of_eq h rfl rfl rfl rfl rfl⟩
  · exact ⟨trivial,h⟩
  · exact inRange_of_eq h rfl rfl rfl rfl rfl

theorem receive_inRange (h : w.InRange) (name : String) :
    (w.receive name).2.InRange ∧ (w.receive name).2.workers = w.workers := by
  unfold receive
  split <;> exact ⟨inRange_of_eq h rfl rfl rfl rfl rfl,rfl⟩

theorem notifyWorker_inRange (h : w.InRange) (n : Nat) (worker : Worker)
    (hn : w.workers[n]? = some worker) : Stepped (w.notifyWorker n worker) := by
  obtain ⟨hreceived, hworkers⟩ := receive_inRange h (workerName n)
  unfold notifyWorker
  split
  · generalize w.receive (workerName n) = result at hreceived hworkers
    obtain ⟨received, v⟩ := result
    dsimp only at hreceived hworkers ⊢
    split
    · rename_i change _ heq
      cases heq
      refine ⟨trivial,setWorker_inRange hreceived n worker _ (hworkers ▸ hn) ?_⟩
      unfold Worker.reconfigure
      split <;> rfl
    · rename_i heq
      cases heq
      exact ⟨trivial,inRange_of_eq hreceived rfl rfl rfl rfl rfl⟩
    · rename_i heq
      cases heq
      exact ⟨trivial,hreceived⟩
  · exact ⟨trivial,h⟩

theorem stepWorker_inRange (h : w.InRange) (n : Nat) : Stepped (w.stepWorker n) := by
  have hexchange : ∀ x, InRange { w with exchange := x } :=
    fun x => inRange_of_eq h rfl rfl rfl rfl rfl
  unfold stepWorker
  cases hn : w.workers[n]? with
  | none => exact h
  | some worker =>
    dsimp only
    cases hm : worker.move w.exchange with
    | mk move x =>
      cases move with
      | leave => exact inRange_of_eq (hexchange x) rfl rfl rfl rfl rfl
      | answer => exact ⟨trivial,hexchange x⟩
      | wait => exact notifyWorker_inRange h n worker hn
      | dispatch next =>
        have hsize := (move_settings worker next w.exchange x hm).2
        exact ⟨trivial,spawn_inRange (setWorker_inRange (hexchange x) n worker next hn hsize) _ trivial⟩

theorem stepErrand_inRange (h : w.InRange) (n errand : Nat) : Stepped (w.stepErrand n errand) := by
  unfold stepErrand
  cases hn : w.workers[n]? with
  | none => exact h
  | some worker =>
    dsimp only
    cases ha : worker.advance errand w.now w.exchange with
    | none => exact stepped_wait h (.errand n errand) trivial _
    | some result =>
      have hexchange : InRange { w with exchange := result.2 } := inRange_of_eq h rfl rfl rfl rfl rfl
      have hsize := (advance_settings worker result.1 errand w.now w.exchange result.2 ha).2
      exact ⟨trivial,setWorker_inRange hexchange n worker result.1 hn hsize⟩

theorem notifyScheduler_inRange (h : w.InRange) (s : Scheduler) : Stepped (w.notifyScheduler s) := by
  have hreceived := (receive_inRange h schedulerName).1
  unfold notifyScheduler
  split
  · generalize w.receive schedulerName = result at hreceived
    obtain ⟨received, v⟩ := result
    dsimp only at hreceived ⊢
    split
    · rename_i heq
      cases heq
      exact ⟨trivial,setScheduler_inRange hreceived _⟩
    · rename_i heq
      cases heq
      exact ⟨trivial,inRange_of_eq hreceived rfl rfl rfl rfl rfl⟩
    · rename_i heq
      cases heq
      exact ⟨trivial,hreceived⟩
  · exact ⟨trivial,h⟩

theorem stepScheduler_inRange (h : w.InRange) (s : Scheduler) : Stepped (w.stepScheduler s) := by
  unfold stepScheduler
  split
  · exact inRange_of_eq h rfl rfl rfl rfl rfl
  · split
    · exact ⟨trivial,setScheduler_inRange h _⟩
    · exact notifyScheduler_inRange h s

theorem record_inRange (h : w.InRange) (events : List Metrics.Event) : (w.record events).InRange :=
  inRange_of_eq h rfl rfl rfl rfl rfl

theorem stepTimer_inRange (h : w.InRange) (s : Scheduler) (n : Nat) : Stepped (w.stepTimer s n) := by
  unfold stepTimer
  split
  · exact ⟨trivial,record_inRange (setScheduler_inRange h _) _⟩
  · exact stepped_wait h (.timer n) trivial _

theorem stepManual_inRange (h : w.InRange) (s : Scheduler) (run : Nat) :
    Stepped (w.stepManual s run) := by
  unfold stepManual
  split
  · exact record_inRange (setScheduler_inRange h _) _
  · exact stepped_wait h (.manual run) trivial _

theorem withScheduler_inRange (h : w.InRange) (f : Scheduler → Turn × World)
    (hf : ∀ s, Stepped (f s)) : Stepped (w.withScheduler f) := by
  unfold withScheduler
  split
  · exact h
  · exact hf _

theorem endRun_inRange (h : w.InRange) (run : Nat) (ending : Ending) :
    (w.endRun run ending).InRange := by
  unfold endRun
  split
  · exact h
  · exact inRange_of_eq h rfl rfl rfl rfl rfl

/-- A reload either leaves a watcher as it is or gives it other admitted settings. -/
theorem refresh_admitted (watcher : Watcher) (disk : Disk) (n : Notifier)
    (h : Admitted watcher.current) : Admitted (watcher.refresh disk n).1.current := by
  unfold Watcher.refresh
  cases hr : watcher.reload disk n with
  | error e => exact h
  | ok r => exact .reloaded watcher r.2.1 disk n r.2.2 r.1 hr

theorem stepWatcher_inRange (h : w.InRange) (watcher : Watcher) (period due : Nat)
    (hadmitted : Admitted watcher.current) (hperiod : 0 < period) :
    Stepped (w.stepWatcher watcher period due) := by
  unfold stepWatcher
  split
  · exact h
  · split
    · exact ⟨⟨hadmitted,hperiod⟩,h⟩
    · exact ⟨⟨refresh_admitted watcher w.disk w.notifier hadmitted,hperiod⟩,
        inRange_of_eq h rfl rfl rfl rfl rfl⟩

theorem step_inRange (h : w.InRange) (a : Activity) (ha : a.InRange) : Stepped (w.step a) := by
  cases a with
  | handler channel handler => exact stepHandler_inRange h channel handler
  | worker n => exact stepWorker_inRange h n
  | errand n errand => exact stepErrand_inRange h n errand
  | provisioning t =>
    have hp := proceed_inRange false t.rest t.wait h
    simp only [step]
    split <;> rename_i hproceed <;> rw [hproceed] at hp
    · exact hp
    · exact ⟨trivial,hp⟩
  | inquiry n t =>
    have hp := proceed_inRange false t.rest t.wait h
    simp only [step]
    split <;> rename_i hproceed <;> rw [hproceed] at hp
    · exact inRange_of_eq hp rfl rfl rfl rfl rfl
    · exact ⟨trivial,hp⟩
  | scheduler => exact withScheduler_inRange h _ (stepScheduler_inRange h)
  | timer n => exact withScheduler_inRange h _ fun s => stepTimer_inRange h s n
  | manual run => exact withScheduler_inRange h _ fun s => stepManual_inRange h s run
  | work run t =>
    have hp := proceed_inRange w.isCancelled t.rest t.wait h
    simp only [step]
    split <;> rename_i hproceed <;> rw [hproceed] at hp
    · exact endRun_inRange hp run _
    · exact ⟨trivial,hp⟩
  | watcher watcher period due => exact stepWatcher_inRange h watcher period due ha.1 ha.2

/-! ## Runs -/

/-- The central side goes on: an activity has its turn, somebody in the foreground acts, those who can
go on are woken, time passes, or there is another file. -/
inductive Moves : World → World → Prop
  | turn (w w' : World) (h : w.turn = some w') : Moves w w'
  | act {β : Type} (p : Program β) (wait : Wait) (w : World) : Moves w (proceed false p wait w).2
  | wake (w : World) : Moves w w.wake
  | pass (w : World) (now : Nat) : Moves w { w with now }
  | edit (w : World) (disk : Disk) : Moves w { w with disk }

def Run : World → World → Prop := Relation.ReflTransGen Moves

theorem wake_inRange (h : w.InRange) : w.wake.InRange := by
  refine ⟨h.timeout,h.pools,?_,?_,h.watcher⟩
  · intro a ha
    rcases List.mem_append.mp ha with ha | ha
    · exact h.ready a ha
    · exact h.blocked a (List.mem_filter.mp ha).1
  · intro a ha
    exact h.blocked a (List.mem_filter.mp ha).1

theorem turn_inRange (h : w.InRange) (hturn : w.turn = some w') : w'.InRange := by
  unfold turn at hturn
  split at hturn
  · cases hturn
  · rename_i a rest hready
    have hall := h.ready
    rw [hready] at hall
    obtain ⟨ha, hrest⟩ := List.forall_mem_cons.mp hall
    have hstep := step_inRange (w := { w with ready := rest })
      ⟨h.timeout,h.pools,hrest,h.blocked,h.watcher⟩ a ha
    split at hturn <;> rename_i hresult <;> rw [hresult] at hstep <;> cases hturn
    · obtain ⟨hagain, hv⟩ := hstep
      have hready' := List.forall_mem_cons.mpr ⟨hagain,hv.ready⟩
      exact wake_inRange ⟨hv.timeout,hv.pools,hready',hv.blocked,hv.watcher⟩
    · obtain ⟨hwait, hv⟩ := hstep
      have hblocked' := List.forall_mem_append.mpr ⟨hv.blocked,List.forall_mem_singleton.mpr hwait⟩
      exact wake_inRange ⟨hv.timeout,hv.pools,hv.ready,hblocked',hv.watcher⟩
    · exact wake_inRange hstep

theorem moves_inRange (hs : Moves w w') (h : w.InRange) : w'.InRange := by
  cases hs with
  | turn _ _ hturn => exact turn_inRange h hturn
  | act p wait => exact proceed_inRange false p wait h
  | wake => exact wake_inRange h
  | pass now => exact inRange_of_eq h rfl rfl rfl rfl rfl
  | edit disk => exact inRange_of_eq h rfl rfl rfl rfl rfl

theorem run_inRange (hr : Run w w') (h : w.InRange) : w'.InRange := by
  induction hr with
  | refl => exact h
  | tail _ hmoves ih => exact moves_inRange hmoves ih

/-- Whoever stands in the foreground, the central side goes on in no other way. -/
theorem pursue_run {σ : Type} (g : Foreground σ) (hact : ∀ w s, Run w (g.act w s).1) (steps : Nat)
    (isFresh : Bool) (w : World) (s : σ) : Run w (pursue g steps isFresh w s).1 := by
  induction steps generalizing isFresh w s with
  | zero => exact .refl
  | succ steps ih =>
    unfold pursue
    split
    · exact (hact w s).trans (.head (.wake _) (ih _ _ _))
    · split
      · rename_i v hturn
        exact .head (.turn w v hturn) (ih _ _ _)
      · split
        · exact .refl
        · split
          · exact .refl
          · exact .head (.pass w _) (.head (.wake _) (ih _ _ _))

theorem complete_run {σ : Type} (g : Foreground σ) (hact : ∀ w s, Run w (g.act w s).1) (w : World)
    (s : σ) : Run w (complete g w s).1 :=
  .head (.wake w) (pursue_run g hact patience false w.wake s)

theorem settle_run (w : World) : Run w w.settle := complete_run quiet (fun _ _ => .refl) w ()

theorem perform_run (w : World) (p : Program α) : Run w (w.perform p).2 := by
  refine complete_run (foreground α) (fun w f => ?_) w (.running (.of p))
  rcases f with t | a
  · have hact := Moves.act t.rest t.wait w
    cases hproceed : proceed false t.rest t.wait w with
    | mk progress v =>
      rw [hproceed] at hact
      simp only [foreground, Front.act, hproceed]
      cases progress <;> exact .single hact
  · exact .refl

/-- The clock of the program only lets the central side go on. -/
theorem pass_run (w : World) (healthCheckMillis millis : Nat) :
    Run w (w.pass healthCheckMillis millis) := by
  have hlater := perform_run w (Program.ask (.wait millis))
  unfold pass
  dsimp only
  split
  · exact hlater
  · exact hlater.trans (perform_run _ _)

/-! ## Start -/

theorem subscribe_inRange (h : w.InRange) (source : Source) (name : String) (p : Part) :
    (w.subscribe source name p).InRange := by
  cases source <;> exact inRange_of_eq h rfl rfl rfl rfl rfl

theorem startWorkerFrom_inRange (h : w.InRange) (settings : WorkerSettings)
    (hpool : 1 ≤ settings.poolSize ∧ settings.poolSize ≤ 1024) :
    (w.startWorkerFrom settings).InRange := by
  unfold startWorkerFrom
  split
  · exact h
  · have hpools : ∀ x ∈ w.workers ++
        [(Worker.start w.exchange settings.poolSize settings.latencyMillis none).1],
        1 ≤ x.poolSize ∧ x.poolSize ≤ 1024 :=
      List.forall_mem_append.mpr ⟨h.pools,List.forall_mem_singleton.mpr hpool⟩
    refine run_inRange (settle_run _) (spawn_inRange (subscribe_inRange ?_ _ _ _) _ trivial)
    exact ⟨h.timeout,hpools,h.ready,h.blocked,h.watcher⟩

theorem onScheduler_inRange (h : w.InRange) (f : Scheduler → α × Scheduler) :
    (w.onScheduler f).2.InRange := by
  unfold onScheduler
  split
  · exact h
  · exact run_inRange (settle_run _) (setScheduler_inRange h _)

theorem startScheduler_inRange (h : w.InRange) (source : Source) :
    (w.startScheduler source).InRange := by
  unfold startScheduler
  split
  · exact h
  · exact run_inRange (settle_run _)
      (spawn_inRange (subscribe_inRange (setScheduler_inRange h _) _ _ _) _ trivial)

theorem startJobs_inRange (h : w.InRange) (settings : JobsSettings) : (w.startJobs settings).InRange := by
  have hnew : (w.newScheduler settings).InRange := inRange_of_eq h rfl rfl rfl rfl rfl
  have hregistered := onScheduler_inRange hnew fun s => ((),s.register updateStatusJob)
  unfold startJobs
  dsimp only
  generalize (w.newScheduler settings).onScheduler (fun s => ((),s.register updateStatusJob)) = result
    at hregistered ⊢
  obtain ⟨_, v⟩ := result
  exact startScheduler_inRange hregistered .notifier

theorem runWatcher_inRange (h : w.InRange) : w.runWatcher.InRange := by
  unfold runWatcher
  split
  · exact h
  · rename_i watcher hwatcher
    have hadmitted := h.watcher watcher hwatcher
    have hperiod := Nat.pos_of_ne_zero hadmitted.sound.scan
    refine run_inRange (settle_run _) (spawn_inRange ?_ _ ⟨hadmitted,hperiod⟩)
    exact ⟨h.timeout,h.pools,h.ready,h.blocked,fun _ hx => nomatch hx⟩

theorem setWatcher_inRange (h : w.InRange) (watcher : Option Watcher)
    (hadmitted : ∀ x, watcher = some x → Admitted x.current) : InRange { w with watcher } :=
  ⟨h.timeout,h.pools,h.ready,h.blocked,hadmitted⟩

/-- Once it has started with admitted settings, everything is in range. -/
theorem start_inRange (h : w.InRange) (flags : Flags) (path : Option String) (settings : Settings)
    (hs : Admitted settings) (hw : w.start flags path settings = .ok w') : w'.InRange := by
  have hworker := startWorkerFrom_inRange h settings.worker hs.sound.pool
  have hready := run_inRange (perform_run _ (bootstrap settings.central).run) hworker
  have hwatched : ∀ x, (path.map fun path => Watcher.mk path flags settings) = some x →
      Admitted x.current := by
    intro x hx
    obtain ⟨path, -, rfl⟩ := Option.map_eq_some_iff.mp hx
    exact hs
  unfold start at hw
  generalize (w.startWorkerFrom settings.worker).perform (bootstrap settings.central).run = result
    at hready hw
  obtain ⟨answer, v⟩ := result
  have hstarted := runWatcher_inRange
    (setWatcher_inRange (startJobs_inRange hready settings.jobs) _ hwatched)
  split at hw
  · cases hw
  · rename_i heq
    cases heq
    rw [← Except.ok.inj hw]
    exact hstarted

theorem new_inRange (accounts : Store.Repository Account) (machines : Store.Repository Machine)
    (timeoutMillis : Nat) (disk : Disk) (h : timeoutMillis ≠ 0) :
    (new accounts machines timeoutMillis disk).InRange :=
  ⟨Nat.pos_of_ne_zero h,by simp [new],by simp [new],by simp [new],by simp [new]⟩

/-! ## Main statement -/

/-- Settings are resolved exactly when there is a place for the records and all else is of use, and
then to what the file says, or the command line, or the defaults. Whatever settings are ever admitted,
no scheduler fails to schedule a job with its entry of theirs, and a central side that is started with
them stays in range. -/
theorem admitted_settings_in_range (isDirectory : String → Bool) (flags : Flags)
    (file : Option FileSettings) :
    ((∃ s, resolve isDirectory flags (file.getD .empty) = .ok s) ↔
      HasDatabase isDirectory flags file ∧ (merged flags file).Sound) ∧
    (∀ s, resolve isDirectory flags (file.getD .empty) = .ok s →
      s = merged flags file ∧ (s.central.dbPath = none ↔ keepsInMemory flags file = true)) ∧
    ∀ s, Admitted s →
      (∀ (scheduler : Scheduler) (visit : List Job) (now : Nat), scheduler.Reached →
        visit.Perm scheduler.jobs → ∀ a ∈ Scheduler.attempts s.jobs now scheduler visit,
          a.job.settings s.jobs = s.jobs.vmUpdateStatus → ∃ number, a.outcome = .ok number) ∧
      ∀ accounts machines disk flags path w w',
        (new accounts machines s.worker.requestTimeoutMillis disk).start flags path s = .ok w →
          Run w w' → w'.InRange := by
  refine ⟨?_,?_,?_⟩
  · constructor
    · rintro ⟨s, hs⟩
      exact ((resolve_iff isDirectory flags file s).mp hs).1
    · intro h
      exact ⟨_,(resolve_iff isDirectory flags file _).mpr ⟨h,rfl⟩⟩
  · intro s hs
    obtain ⟨⟨hdatabase, -⟩, rfl⟩ := (resolve_iff isDirectory flags file s).mp hs
    exact ⟨rfl,dbPath_eq_none_iff isDirectory flags file hdatabase⟩
  · intro s hs
    refine ⟨?_,?_⟩
    · intro scheduler visit now hreached hvisit a ha hentry
      have hregistered : ∀ job ∈ visit, job.id ∈ scheduler.jobs.map Job.id :=
        fun job hjob => List.mem_map_of_mem (hvisit.mem_iff.mp hjob)
      obtain ⟨henabled, hok | ⟨-, hzero⟩⟩ :=
        Scheduler.attempts_fail_at_zero hreached.enrolled visit hregistered a ha
      · exact hok
      · rw [hentry] at henabled hzero
        rcases hs.sound.job with hdisabled | hperiod
        · rw [henabled] at hdisabled
          cases hdisabled
        · exact absurd hzero hperiod
    · intro accounts machines disk flags path w w' hw hr
      exact run_inRange hr
        (start_inRange (new_inRange accounts machines _ disk hs.sound.timeout) flags path s hs hw)

/-- A file overrules the command line, and the database that the latter names is not looked at. -/
theorem overruling_settings_in_range :
    let text := "[runtime]\nconfig_scan_period_ms = 250\n[central]\nin_memory = true\n" ++
      "[cloud_worker]\npool_size = 2\n[jobs.vm_update_status]\nperiod_millis = 500\n"
    let disk : Disk := ⟨fun _ => true,fun _ => .ok text⟩
    let flags : Flags := ⟨some "directory",false,some 1000⟩
    let s : Settings := ⟨⟨30000,250⟩,⟨none,"admin","vmcentral"⟩,⟨false,2,3000,10000⟩,⟨⟨false,500⟩⟩⟩
    let scheduler := (Scheduler.new s.jobs).register updateStatusJob
    let attempts := Scheduler.attempts s.jobs 0 scheduler scheduler.jobs
    (∃ file, FileSettings.parse text = some file ∧ HasDatabase disk.isDirectory flags (some file) ∧
        s = merged flags (some file)) ∧
      Admitted s ∧ attempts.map (fun a => a.job.id) = ["vm_update_status"] ∧
      (∀ a ∈ attempts, ∃ number, a.outcome = .ok number) ∧
      ∃ w, (new (.memory []) (.memory []) s.worker.requestTimeoutMillis disk).start flags
          (some "settings") s = .ok w ∧ w.workers.map Worker.poolSize = [2] ∧ w.InRange := by
  intro text disk flags s scheduler attempts
  have hadmitted : Admitted s := .loaded disk flags (some "settings") s (by decide +kernel)
  have hread : (FileSettings.parse text).map (fun file =>
      resolve disk.isDirectory flags ((some file).getD .empty)) = some (.ok s) := by
    decide +kernel
  obtain ⟨file, hfile, hresolved⟩ := Option.map_eq_some_iff.mp hread
  obtain ⟨hiff, hfields, huse⟩ := admitted_settings_in_range disk.isDirectory flags (some file)
  obtain ⟨hattempts, hstarted⟩ := huse s hadmitted
  have hreached : scheduler.Reached := ⟨s.jobs,.single (.step _ _ (.register _ updateStatusJob))⟩
  have hvisited : attempts.map (fun a => a.job.id) = ["vm_update_status"] := by decide +kernel
  refine ⟨⟨file,hfile,(hiff.mp ⟨s,hresolved⟩).1,(hfields s hresolved).1⟩,hadmitted,hvisited,?_,?_⟩
  · intro a ha
    have hentry : a.job.settings s.jobs = s.jobs.vmUpdateStatus := by
      rw [List.mem_singleton.mp ha]
      rfl
    exact hattempts scheduler scheduler.jobs 0 hreached (.refl _) a ha hentry
  · have hworks : ((new (.memory []) (.memory []) s.worker.requestTimeoutMillis disk).start flags
        (some "settings") s).toOption.map (fun w => w.workers.map Worker.poolSize) = some [2] := by
      decide +kernel
    have hrange := hstarted (.memory []) (.memory []) disk flags (some "settings")
    generalize (new (.memory []) (.memory []) s.worker.requestTimeoutMillis disk).start flags
      (some "settings") s = started at hworks hrange ⊢
    cases started with
    | error e => cases hworks
    | ok w => exact ⟨w,rfl,Option.some.inj hworks,hrange w w rfl .refl⟩

end World
end VmFleet.Central
