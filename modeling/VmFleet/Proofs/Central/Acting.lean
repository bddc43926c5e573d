import VmFleet.Proofs.Config.Trailing
import VmFleet.Proofs.Jobs.Timetable
import VmFleet.Proofs.Program.Crowd

/-!
# What activities do about the settings

Few steps of the central side have to do with its settings: the scheduler enters its loop, one of the
two subscribers reads what is announced, or a worker leaves. All others leave the settings, the
subscriptions, the timetable and the latencies as they are.
-/

set_option autoImplicit false

namespace VmFleet.Central

open Delegation Jobs Config Tasks

def Activity.isWatcher : Activity → Bool
  | .watcher _ _ _ => true
  | _ => false

namespace World

/-! ## What leaves the settings alone -/

/-- The subscriptions, the timetable with its settings and the latencies are what they were. -/
structure Aside (w w' : World) : Prop where
  notifier : w'.notifier = w.notifier
  desk : w'.desk = w.desk
  scheduler : ∀ s, w.scheduler = some s → ∃ s', w'.scheduler = some s' ∧ s.Untouched s'
  workers : ∀ (n : Nat) (worker : Worker), w.workers[n]? = some worker →
    ∃ worker', w'.workers[n]? = some worker' ∧ worker'.latencyMillis = worker.latencyMillis

theorem aside_of_eq (w w' : World) (hnotifier : w'.notifier = w.notifier) (hdesk : w'.desk = w.desk)
    (hscheduler : w'.scheduler = w.scheduler) (hworkers : w'.workers = w.workers) : Aside w w' := by
  constructor
  · exact hnotifier
  · exact hdesk
  · intro s hs
    exact ⟨s,hscheduler.trans hs,.refl s⟩
  · intro n worker hn
    exact ⟨worker,by rw [hworkers, hn],rfl⟩

theorem Aside.refl (w : World) : Aside w w := aside_of_eq w w rfl rfl rfl rfl

theorem Aside.trans {w v u : World} (h : Aside w v) (k : Aside v u) : Aside w u := by
  constructor
  · exact k.notifier.trans h.notifier
  · exact k.desk.trans h.desk
  · intro s hs
    obtain ⟨t, ht, hst⟩ := h.scheduler s hs
    obtain ⟨r, hr, htr⟩ := k.scheduler t ht
    exact ⟨r,hr,hst.trans htr⟩
  · intro n worker hn
    obtain ⟨worker', hn', hsame⟩ := h.workers n worker hn
    obtain ⟨worker'', hn'', hsame'⟩ := k.workers n worker' hn'
    exact ⟨worker'',hn'',hsame'.trans hsame⟩

theorem setScheduler_aside (w : World) (s s' : Scheduler) (hs : w.scheduler = some s)
    (h : s.Untouched s') : Aside w (w.setScheduler s') := by
  constructor
  · rfl
  · rfl
  · intro t ht
    have heq : s = t := Option.some.inj (hs.symm.trans ht)
    exact ⟨s',rfl,heq ▸ h⟩
  · intro n worker hn
    exact ⟨worker,hn,rfl⟩

theorem setWorker_aside (w : World) (n : Nat) (worker next : Worker)
    (hn : w.workers[n]? = some worker) (h : next.latencyMillis = worker.latencyMillis) :
    Aside w (w.setWorker n next) := by
  constructor
  · rfl
  · rfl
  · intro s hs
    exact ⟨s,hs,.refl s⟩
  · intro m other hm
    unfold setWorker
    dsimp only
    by_cases heq : n = m
    · subst heq
      have hsame : worker = other := Option.some.inj (hn.symm.trans hm)
      have hlt := (List.getElem?_eq_some_iff.mp hn).1
      exact ⟨next,by simp [hlt],hsame ▸ h⟩
    · exact ⟨other,by simp [List.getElem?_set_ne heq, hm],rfl⟩

/-- No effect of a program is about the settings. -/
theorem react_aside (w : World) (isCancelled : Bool) (e : Effect) (wait : Wait) :
    Aside w (w.react isCancelled e wait).world := by
  cases e with
  | accounts call => exact aside_of_eq _ _ rfl rfl rfl rfl
  | machines call => exact aside_of_eq _ _ rfl rfl rfl rfl
  | draw count => exact aside_of_eq _ _ rfl rfl rfl rfl
  | record event => exact aside_of_eq _ _ rfl rfl rfl rfl
  | provision m => exact aside_of_eq _ _ rfl rfl rfl rfl
  | delegate channel payload =>
    obtain ⟨x, -, hw⟩ := delegate_world w isCancelled channel payload wait
    rw [hw]
    exact aside_of_eq _ _ rfl rfl rfl rfl
  | wait millis =>
    rw [wait_world]
    exact .refl w
  | isCancelled => exact .refl w

theorem proceed_aside {α : Type} (isCancelled : Bool) (p : Program α) (wait : Wait) (w : World) :
    Aside w (proceed isCancelled p wait w).2 :=
  proceed_related Aside .refl (fun _ _ _ => .trans) isCancelled
    (fun w => react_aside w isCancelled) p wait w

/-- What a worker does concerns its errands, and never what it was set up with. -/
theorem move_settings (worker next : Worker) (x x' : Exchange)
    (h : worker.move x = (.dispatch next, x')) :
    next.latencyMillis = worker.latencyMillis ∧ next.poolSize = worker.poolSize := by
  unfold Worker.move at h
  split at h
  · cases h
  · split at h
    · cases h
      exact ⟨rfl,rfl⟩
    · cases h
    · split at h <;> cases h

theorem advance_settings (worker next : Worker) (n now : Nat) (x x' : Exchange)
    (h : worker.advance n now x = some (next, x')) :
    next.latencyMillis = worker.latencyMillis ∧ next.poolSize = worker.poolSize := by
  have hacquire : ∀ (v : Worker) (k : Nat),
      (v.acquire k).latencyMillis = v.latencyMillis ∧ (v.acquire k).poolSize = v.poolSize := by
    intro v k
    unfold Worker.acquire
    split <;> exact ⟨rfl,rfl⟩
  unfold Worker.advance at h
  split at h
  · cases h
  · split at h
    · split at h
      · cases h
        exact ⟨rfl,rfl⟩
      · cases h
        exact hacquire _ n
    · split at h
      · split at h
        · cases h
          exact ⟨rfl,rfl⟩
        · cases h
          exact ⟨rfl,rfl⟩
      · cases h
    · split at h
      · cases h
        exact ⟨rfl,rfl⟩
      · cases h
    · cases h

end World
end VmFleet.Central

namespace VmFleet.Jobs.Scheduler

/-! ## A scheduler that works -/

/-- The scheduler has been started and was not asked to stop. -/
def IsOn (s : Scheduler) : Prop :=
  s.isCancelled = false ∧ (s.stage = .starting ∨ s.stage = .serving)

/-- The timetable is in order, and once the scheduler serves it is that of its settings. -/
structure Works (s : Scheduler) : Prop where
  isOn : s.IsOn
  kept : s.Kept
  planned : s.stage = .serving → ∀ id,
    s.periodOf id = (s.job? id).bind fun job => job.planned? s.settings

variable {s s' : Scheduler}

theorem Works.untouched (h : s.Works) (hs : s.Untouched s') : s'.Works := by
  refine ⟨⟨hs.isCancelled.trans h.isOn.1,hs.stage ▸ h.isOn.2⟩,hs.kept h.kept,?_⟩
  intro hstage id
  rw [hs.periodOf, job?, hs.jobs, hs.settings]
  exact h.planned (hs.stage ▸ hstage) id

theorem Works.applySettings (h : s.Works) (settings : Config.JobsSettings) (now : Nat) :
    (s.applySettings settings now).Works ∧ (s.applySettings settings now).settings = settings ∧
      (s.applySettings settings now).stage = s.stage := by
  obtain ⟨hkept, -, hjobs, hcancelled, hperiods⟩ :=
    applyVia_replanned s.jobs settings now h.kept (.refl _)
  have hstage := (applySettings_still s settings now).stage
  rw [applySettings_eq] at hstage ⊢
  refine ⟨⟨⟨hcancelled.trans h.isOn.1,hstage.symm ▸ h.isOn.2⟩,hkept,?_⟩,rfl,hstage⟩
  intro _ id
  rw [hperiods id, job?, job?, hjobs]
  rfl

theorem Works.entered (h : s.Works) (now : Nat) (hs : s.enter? now = some s') :
    s'.Works ∧ s'.settings = s.settings := by
  obtain ⟨-, rfl⟩ := enter_eq_some s s' now hs
  obtain ⟨hkept, -, hjobs, hcancelled, hperiods⟩ :=
    applyVia_replanned s.jobs s.settings now h.kept (.refl _)
  refine ⟨⟨⟨hcancelled.trans h.isOn.1,Or.inr rfl⟩,
    ⟨hkept.ids,hkept.entries,hkept.noted,hkept.live,hkept.uncancelled⟩,?_⟩,rfl⟩
  intro _ id
  refine (hperiods id).trans ?_
  rw [job?, job?]
  dsimp only
  rw [applySettings_eq, hjobs]
  rfl

end VmFleet.Jobs.Scheduler

namespace VmFleet.Central

open Delegation Jobs Config Tasks

namespace World

/-! ## One step of an activity -/

/-- The ways for an activity to go: it leaves the settings alone, a worker leaves, the scheduler is
about to stop or enters its loop, or one of the two subscribers reads. -/
inductive Acted (w : World) : World → Prop
  | aside (w' : World) (h : Aside w w') : Acted w w'
  | left (v : World) (n : Nat) (h : Aside w v) : Acted w (v.unsubscribe (workerName n))
  | ending (s : Scheduler) (w' : World) (hs : w.scheduler = some s) (h : ¬ s.IsOn) : Acted w w'
  | entered (s next : Scheduler) (hs : w.scheduler = some s) (h : s.enter? w.now = some next) :
      Acted w (w.setScheduler next)
  | heard (s : Scheduler) (hs : w.scheduler = some s) : Acted w (w.notifyScheduler s).2
  | told (n : Nat) (worker : Worker) (hn : w.workers[n]? = some worker) :
      Acted w (w.notifyWorker n worker).2

theorem stepHandler_aside (w : World) (channel : String) (h : Handler) :
    Aside w (w.stepHandler channel h).2 := by
  unfold stepHandler
  split <;> exact aside_of_eq _ _ rfl rfl rfl rfl

theorem stepWorker_acted (w : World) (n : Nat) : Acted w (w.stepWorker n).2 := by
  unfold stepWorker
  cases hn : w.workers[n]? with
  | none => exact .aside w (.refl w)
  | some worker =>
    dsimp only
    have hexchange : ∀ x, Aside w { w with exchange := x } :=
      fun x => aside_of_eq _ _ rfl rfl rfl rfl
    cases hm : worker.move w.exchange with
    | mk move x =>
      cases move with
      | leave => exact .left _ n (hexchange x)
      | answer => exact .aside _ (hexchange x)
      | wait => exact .told n worker hn
      | dispatch next =>
        have hset := setWorker_aside { w with exchange := x } n worker next hn
          (move_settings worker next w.exchange x hm).1
        have hspawned : Aside ({ w with exchange := x }.setWorker n next)
            (({ w with exchange := x }.setWorker n next).spawn
              (.errand n worker.errands.length)) := aside_of_eq _ _ rfl rfl rfl rfl
        exact .aside _ (((hexchange x).trans hset).trans hspawned)

theorem stepErrand_aside (w : World) (n errand : Nat) : Aside w (w.stepErrand n errand).2 := by
  unfold stepErrand
  cases hn : w.workers[n]? with
  | none => exact .refl w
  | some worker =>
    dsimp only
    cases ha : worker.advance errand w.now w.exchange with
    | none => exact .refl w
    | some result =>
      have hexchange : Aside w { w with exchange := result.2 } :=
        aside_of_eq _ _ rfl rfl rfl rfl
      exact hexchange.trans (setWorker_aside { w with exchange := result.2 } n worker result.1 hn
        (advance_settings worker result.1 errand w.now w.exchange result.2 ha).1)

theorem record_aside (w : World) (events : List Metrics.Event) : Aside w (w.record events) :=
  aside_of_eq _ _ rfl rfl rfl rfl

theorem stepTimer_aside (w : World) (s : Scheduler) (number : Nat) (hs : w.scheduler = some s) :
    Aside w (w.stepTimer s number).2 := by
  unfold stepTimer
  cases ha : s.advanceTimer number w.now with
  | none => exact .refl w
  | some result =>
    have huntouched : s.Untouched result.1 := by
      simp only [Scheduler.advanceTimer, Option.or_eq_some_iff, Option.map_eq_some_iff] at ha
      rcases ha with ⟨next, h | ⟨-, h⟩, heq⟩ | ⟨-, h⟩
      · exact heq ▸ Scheduler.fireTimer_untouched number w.now h
      · exact heq ▸ Scheduler.stopTimer_untouched number h
      · exact Scheduler.finishTick_untouched number w.now result h
    exact (setScheduler_aside w s result.1 hs huntouched).trans (record_aside _ result.2)

theorem stepManual_aside (w : World) (s : Scheduler) (run : Nat) (hs : w.scheduler = some s) :
    Aside w (w.stepManual s run).2 := by
  unfold stepManual
  cases ha : s.advanceRun run w.now with
  | none => exact .refl w
  | some result =>
    have huntouched := Scheduler.advanceRun_untouched run w.now result ha
    exact (setScheduler_aside w s result.1 hs huntouched).trans (record_aside _ result.2)

theorem endRun_aside (w : World) (run : Nat) (ending : Ending) : Aside w (w.endRun run ending) := by
  unfold endRun
  cases hs : w.scheduler with
  | none => exact .refl w
  | some s =>
    constructor
    · rfl
    · rfl
    · intro t ht
      have heq : s = t := Option.some.inj (hs.symm.trans ht)
      exact ⟨_,rfl,heq ▸ ⟨rfl,rfl,rfl,rfl,rfl,rfl,rfl⟩⟩
    · intro n worker hn
      exact ⟨worker,hn,rfl⟩

theorem stepScheduler_acted (w : World) (s : Scheduler) (hs : w.scheduler = some s) :
    Acted w (w.stepScheduler s).2 := by
  by_cases hon : s.IsOn
  · have hover : s.stage ≠ .over := by
      rcases hon.2 with h | h <;> simp [h]
    unfold stepScheduler
    rw [if_neg hover]
    cases ha : s.advance w.now with
    | none => exact .heard s hs
    | some next =>
      simp only [Scheduler.advance, Option.or_eq_some_iff] at ha
      rcases ha with h | ⟨-, h | ⟨-, h | ⟨-, h⟩⟩⟩
      · exact .entered s next hs h
      · obtain ⟨-, hcancelled, -⟩ := Scheduler.beginClosing_eq_some s next h
        simp [hon.1] at hcancelled
      · exact .aside _ (setScheduler_aside w s next hs (Scheduler.handleCall_untouched w.now h))
      · rcases Scheduler.closeNext_cases s next w.now h with
          ⟨⟨deadline, hstage⟩, -⟩ | ⟨handle, rest, deadline, hstage, -⟩
        · rcases hon.2 with h | h <;> simp [hstage] at h
        · rcases hon.2 with h | h <;> simp [hstage] at h
  · exact .ending s _ hs hon

theorem withScheduler_acted (w : World) (f : Scheduler → Turn × World)
    (h : ∀ s, w.scheduler = some s → Acted w (f s).2) : Acted w (w.withScheduler f).2 := by
  unfold withScheduler
  cases hs : w.scheduler with
  | none => exact .aside w (.refl w)
  | some s => exact h s hs

theorem act_cases (w : World) (a : Activity) (h : a.isWatcher = false) :
    Acted w (w.step a).2 := by
  cases a with
  | handler channel handler => exact .aside _ (stepHandler_aside w channel handler)
  | worker n => exact stepWorker_acted w n
  | errand n errand => exact .aside _ (stepErrand_aside w n errand)
  | provisioning t =>
    have haside := proceed_aside false t.rest t.wait w
    simp only [step]
    split
    · rename_i hp
      rw [hp] at haside
      exact .aside _ haside
    · rename_i hp
      rw [hp] at haside
      exact .aside _ haside
  | inquiry n t =>
    have haside := proceed_aside false t.rest t.wait w
    simp only [step]
    split
    · rename_i a v hp
      rw [hp] at haside
      have hended : Aside v (v.endInquiry n a) := aside_of_eq _ _ rfl rfl rfl rfl
      exact .aside _ (haside.trans hended)
    · rename_i hp
      rw [hp] at haside
      exact .aside _ haside
  | scheduler => exact withScheduler_acted w _ fun s hs => stepScheduler_acted w s hs
  | timer n => exact withScheduler_acted w _ fun s hs => .aside _ (stepTimer_aside w s n hs)
  | manual run => exact withScheduler_acted w _ fun s hs => .aside _ (stepManual_aside w s run hs)
  | work run t =>
    have haside := proceed_aside w.isCancelled t.rest t.wait w
    simp only [step]
    split
    · rename_i ending v hp
      rw [hp] at haside
      exact .aside _ (haside.trans (endRun_aside v run ending))
    · rename_i hp
      rw [hp] at haside
      exact .aside _ haside
  | watcher watcher period due => simp [Activity.isWatcher] at h

end World
end VmFleet.Central
