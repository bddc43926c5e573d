import VmFleet.Central.Control
import VmFleet.Proofs.Central.Acting
import VmFleet.Proofs.Config.Resolution

/-!
# Following the settings file

The watcher reloads, the scheduler and the worker hear of changes, and all other activities go on, in
any order. Each of the two trails behind the watcher: what it has applied last and what it has not read
yet lead to the settings in force. When it has read everything it has caught up, also when changes were
lost on the way.
-/

set_option autoImplicit false

namespace VmFleet.Config

/-! ## What a file can say of the jobs -/

/-- No job is enabled at a period of zero. -/
def JobsSettings.Sound (s : JobsSettings) : Prop :=
  s.vmUpdateStatus.disabled = true ∨ 0 < s.vmUpdateStatus.periodMillis

theorem load_sound (disk : Disk) (flags : Flags) (path : Option String) (s : Settings)
    (h : load disk flags path = .ok s) : s.jobs.Sound :=
  (Admitted.loaded disk flags path s h).sound.job.imp_right Nat.pos_of_ne_zero

end VmFleet.Config

namespace VmFleet.Central

open Delegation Jobs Config Tasks

namespace World

/-! ## Names -/

theorem workerName_ne (n : Nat) : workerName n ≠ schedulerName := by
  intro h
  have hfirst := congrArg (fun name => name.toList.head?) h
  simp [workerName, schedulerName, toString] at hfirst

theorem workerName_inj (m n : Nat) (h : workerName m = workerName n) : m = n := by
  have hchars := congrArg String.toList h
  simp only [workerName, toString, String.toList_append] at hchars
  have hdigits := List.append_cancel_left hchars
  rw [Nat.toList_repr, Nat.toList_repr] at hdigits
  have hvalue := congrArg (fun digits => Nat.ofDigitChars 10 digits 0) hdigits
  simpa only [Nat.ofDigitChars_ten_toDigits] using hvalue

/-! ## News -/

theorem hasNews_under (n : Notifier) (name : String) :
    hasNews n name = (n.under name).any fun s => s.queue.hasNews := by
  rw [hasNews, Notifier.under, List.any_filter]

theorem hasNews_of_has (n : Notifier) (name : String) (p : Part)
    (q : Subscription (Change p.Value)) (h : n.Has name p q) : hasNews n name = q.hasNews := by
  rw [hasNews_under, h]
  simp

theorem hasNews_of_nobody (n : Notifier) (name : String) (h : n.under name = []) :
    hasNews n name = false := by
  rw [hasNews_under, h]
  rfl

/-- Whoever goes by this name has the subscriptions that it had. -/
structure Spared (w w' : World) (name : String) : Prop where
  notifier : w'.notifier.under name = w.notifier.under name
  desk : w'.desk.under name = w.desk.under name

variable {w w' : World} {name : String}

theorem Aside.spared (h : Aside w w') (name : String) : Spared w w' name :=
  ⟨by rw [h.notifier],by rw [h.desk]⟩

theorem receive_spared (w : World) (name other : String) (h : name ≠ other) :
    Spared w (w.receive name).2 other := by
  unfold receive
  by_cases hnews : hasNews w.notifier name = true
  · rw [if_pos hnews]
    exact ⟨w.notifier.receive_under other name h,rfl⟩
  · rw [if_neg hnews]
    exact ⟨rfl,w.desk.receive_under other name h⟩

theorem receive_rest (w : World) (name : String) :
    (w.receive name).2.scheduler = w.scheduler ∧ (w.receive name).2.workers = w.workers := by
  unfold receive
  by_cases hnews : hasNews w.notifier name = true
  · rw [if_pos hnews]
    exact ⟨rfl,rfl⟩
  · rw [if_neg hnews]
    exact ⟨rfl,rfl⟩

theorem unsubscribe_spared (w : World) (name other : String) (h : name ≠ other) :
    Spared w (w.unsubscribe name) other :=
  ⟨w.notifier.under_unsubscribe other name h,w.desk.under_unsubscribe other name h⟩

/-- Who has subscribed to the watcher's changes alone reads from there. -/
theorem receive_reading (w : World) (p : Part) (q : Subscription (Change p.Value))
    (applied current : p.Value) (h : w.notifier.Has name p q) (hdesk : w.desk.under name = [])
    (hnews : w.isNotified name = true) (ht : Trails applied q current) :
    ∃ delivery rest v, w.receive name = (some ⟨p, delivery⟩, v) ∧ v.notifier.Has name p rest ∧
      v.desk.under name = [] ∧ v.scheduler = w.scheduler ∧ v.workers = w.workers ∧
      Reading applied current (delivery, rest) := by
  have hpending : hasNews w.notifier name = true := by
    simpa [isNotified, hasNews_of_nobody w.desk name hdesk] using hnews
  obtain ⟨hdelivery, hrest⟩ := h.receive
  have hread : w.receive name =
      (some ⟨p, q.receive.1⟩, { w with notifier := (w.notifier.receive name).2 }) := by
    unfold receive
    rw [if_pos hpending, ← hdelivery]
  exact ⟨q.receive.1,q.receive.2,_,hread,hrest,hdesk,rfl,rfl,ht.receive⟩

/-! ## The two subscribers -/

/-- The scheduler works, and trails behind these settings. -/
def SchedulerFollows (w : World) (current : JobsSettings) : Prop :=
  ∃ s q, w.scheduler = some s ∧ s.Works ∧ w.notifier.Has schedulerName .jobs q ∧
    w.desk.under schedulerName = [] ∧ Trails s.settings q current

/-- The worker has the latency of settings that trail behind these, unless it has left. -/
def WorkerFollows (w : World) (n : Nat) (current : WorkerSettings) : Prop :=
  w.desk.under (workerName n) = [] ∧
    (w.notifier.under (workerName n) = [] ∨ ∃ worker applied q, w.workers[n]? = some worker ∧
      worker.latencyMillis = applied.latencyMillis ∧
      w.notifier.Has (workerName n) .worker q ∧ Trails applied q current)

section

variable {jobs : JobsSettings} {settings : WorkerSettings} {n : Nat}

theorem SchedulerFollows.spared (h : SchedulerFollows w jobs) (hs : Spared w w' schedulerName)
    (hscheduler : ∀ s, w.scheduler = some s → ∃ s', w'.scheduler = some s' ∧ s.Untouched s') :
    SchedulerFollows w' jobs := by
  obtain ⟨s, q, hw, hworks, hhas, hdesk, htrails⟩ := h
  obtain ⟨s', hw', huntouched⟩ := hscheduler s hw
  have hhas' : w'.notifier.Has schedulerName .jobs q := hs.notifier.trans hhas
  exact ⟨s',q,hw',hworks.untouched huntouched,hhas',hs.desk.trans hdesk,
    huntouched.settings.symm ▸ htrails⟩

theorem WorkerFollows.spared (h : WorkerFollows w n settings) (hs : Spared w w' (workerName n))
    (hworkers : ∀ worker, w.workers[n]? = some worker →
      ∃ worker', w'.workers[n]? = some worker' ∧ worker'.latencyMillis = worker.latencyMillis) :
    WorkerFollows w' n settings := by
  obtain ⟨hdesk, hleft | ⟨worker, applied, q, hn, hlatency, hhas, htrails⟩⟩ := h
  · exact ⟨hs.desk.trans hdesk,Or.inl (hs.notifier.trans hleft)⟩
  · obtain ⟨worker', hn', hsame⟩ := hworkers worker hn
    have hhas' : w'.notifier.Has (workerName n) .worker q := hs.notifier.trans hhas
    exact ⟨hs.desk.trans hdesk,
      Or.inr ⟨worker',applied,q,hn',hsame.trans hlatency,hhas',htrails⟩⟩

theorem SchedulerFollows.entered (h : SchedulerFollows w jobs) (s next : Scheduler)
    (hs : w.scheduler = some s) (hnext : s.enter? w.now = some next) :
    SchedulerFollows (w.setScheduler next) jobs := by
  obtain ⟨t, q, hw, hworks, hhas, hdesk, htrails⟩ := h
  cases Option.some.inj (hs.symm.trans hw)
  obtain ⟨hworks', hsettings⟩ := hworks.entered w.now hnext
  exact ⟨next,q,rfl,hworks',hhas,hdesk,hsettings.symm ▸ htrails⟩

/-- A change that the scheduler reads becomes its settings; word of losses leaves them alone, since
newer changes follow it. -/
theorem SchedulerFollows.heard (h : SchedulerFollows w jobs) (s : Scheduler)
    (hs : w.scheduler = some s) : SchedulerFollows (w.notifyScheduler s).2 jobs := by
  have hfollows := h
  obtain ⟨t, q, hw, hworks, hhas, hdesk, htrails⟩ := h
  cases Option.some.inj (hs.symm.trans hw)
  unfold notifyScheduler
  by_cases hserves : (s.stage = .serving && w.isNotified schedulerName) = true
  · rw [if_pos hserves]
    simp only [Bool.and_eq_true, decide_eq_true_eq] at hserves
    obtain ⟨delivery, rest, v, hread, hhas', hdesk', hscheduler, -, hreading⟩ :=
      receive_reading w .jobs q s.settings jobs hhas hdesk hserves.2 htrails
    rw [hs] at hscheduler
    rw [hread]
    cases hreading with
    | lagged count _ htrails' => exact ⟨s,rest,hscheduler,hworks,hhas',hdesk',htrails'⟩
    | empty _ htrails' => exact ⟨s,rest,hscheduler,hworks,hhas',hdesk',htrails'⟩
    | item old next _ htrails' =>
      obtain ⟨hworks', hsettings, -⟩ := hworks.applySettings next v.now
      exact ⟨_,rest,rfl,hworks',hhas',hdesk',hsettings.symm ▸ htrails'⟩
  · rw [if_neg hserves]
    exact hfollows

theorem WorkerFollows.told (h : WorkerFollows w n settings) (worker : Worker)
    (hn : w.workers[n]? = some worker) : WorkerFollows (w.notifyWorker n worker).2 n settings := by
  have hfollows := h
  unfold notifyWorker
  by_cases hnews : w.isNotified (workerName n) = true
  · obtain ⟨hdesk, hleft | ⟨other, applied, q, hn', hlatency, hhas, htrails⟩⟩ := h
    · -- who has left is told nothing
      rw [isNotified, hasNews_of_nobody _ _ hleft, hasNews_of_nobody _ _ hdesk] at hnews
      cases hnews
    · cases Option.some.inj (hn.symm.trans hn')
      obtain ⟨delivery, rest, v, hread, hhas', hdesk', -, hworkers, hreading⟩ :=
        receive_reading w .worker q applied settings hhas hdesk hnews htrails
      rw [← hworkers] at hn
      rw [if_pos hnews, hread]
      cases hreading with
      | lagged count _ htrails' =>
        exact ⟨hdesk',Or.inr ⟨worker,applied,rest,hn,hlatency,hhas',htrails'⟩⟩
      | empty _ htrails' =>
        exact ⟨hdesk',Or.inr ⟨worker,applied,rest,hn,hlatency,hhas',htrails'⟩⟩
      | item old next _ htrails' =>
        have hlt := (List.getElem?_eq_some_iff.mp hn).1
        have hset : (v.workers.set n (worker.reconfigure ⟨some old, some next⟩))[n]? =
            some { worker with latencyMillis := next.latencyMillis } := by
          simp [hlt, Worker.reconfigure, Change.both]
        exact ⟨hdesk',Or.inr ⟨_,next,rest,hset,rfl,hhas',htrails'⟩⟩
  · rw [if_neg hnews]
    exact hfollows

/-! ## What the one does, the other does not notice -/

theorem notifyScheduler_spared (w : World) (s : Scheduler) (n : Nat) :
    Spared w (w.notifyScheduler s).2 (workerName n) ∧
      (w.notifyScheduler s).2.workers = w.workers := by
  have hspared := receive_spared w schedulerName (workerName n) (workerName_ne n).symm
  have hworkers := (receive_rest w schedulerName).2
  unfold notifyScheduler
  split
  · generalize w.receive schedulerName = result at hspared hworkers
    obtain ⟨received, v⟩ := result
    dsimp only at hspared hworkers ⊢
    split
    · rename_i heq
      cases heq
      exact ⟨⟨hspared.notifier,hspared.desk⟩,hworkers⟩
    · rename_i heq
      cases heq
      have hgone := unsubscribe_spared v schedulerName (workerName n) (workerName_ne n).symm
      exact ⟨⟨hgone.notifier.trans hspared.notifier,hgone.desk.trans hspared.desk⟩,hworkers⟩
    · rename_i heq
      cases heq
      exact ⟨hspared,hworkers⟩
  · exact ⟨⟨rfl,rfl⟩,rfl⟩

theorem notifyWorker_spared (w : World) (m : Nat) (worker : Worker) (name : String)
    (h : workerName m ≠ name) :
    Spared w (w.notifyWorker m worker).2 name ∧
      (w.notifyWorker m worker).2.scheduler = w.scheduler ∧
      ∀ n, m ≠ n → (w.notifyWorker m worker).2.workers[n]? = w.workers[n]? := by
  have hspared := receive_spared w (workerName m) name h
  obtain ⟨hscheduler, hworkers⟩ := receive_rest w (workerName m)
  unfold notifyWorker
  split
  · generalize w.receive (workerName m) = result at hspared hscheduler hworkers
    obtain ⟨received, v⟩ := result
    dsimp only at hspared hscheduler hworkers ⊢
    split
    · rename_i heq
      cases heq
      refine ⟨⟨hspared.notifier,hspared.desk⟩,hscheduler,?_⟩
      intro n hn
      rw [setWorker, ← hworkers]
      exact List.getElem?_set_ne hn
    · rename_i heq
      cases heq
      have hgone := unsubscribe_spared v (workerName m) name h
      refine ⟨⟨hgone.notifier.trans hspared.notifier,hgone.desk.trans hspared.desk⟩,hscheduler,?_⟩
      intro n _
      rw [← hworkers]
      rfl
    · rename_i heq
      cases heq
      refine ⟨hspared,hscheduler,?_⟩
      intro n _
      rw [← hworkers]
  · exact ⟨⟨rfl,rfl⟩,rfl,fun _ _ => rfl⟩

end

end World

/-! ## Any order of steps -/

/-- A watcher, which reloads by itself or when it is told to, and the world that it announces to. -/
structure Watched where
  watcher : Watcher
  world : World

namespace Watched

open World

def reload (v : Watched) (disk : Disk) : Watched :=
  let r := v.watcher.refresh disk v.world.notifier
  ⟨r.1, { v.world with notifier := r.2 }⟩

/-- The watcher reloads a file with any content, or any activity takes a step. Nothing tells whose turn
it is. -/
inductive Step : Watched → Watched → Prop
  | reload (v : Watched) (disk : Disk) : Step v (v.reload disk)
  | act (v : Watched) (a : Activity) (h : a.isWatcher = false) :
      Step v { v with world := (v.world.step a).2 }
  /-- The scheduler may read its subscription also when it could do something else. -/
  | hear (v : Watched) (s : Scheduler) (hs : v.world.scheduler = some s) :
      Step v { v with world := (v.world.notifyScheduler s).2 }
  | tell (v : Watched) (m : Nat) (worker : Worker) (hm : v.world.workers[m]? = some worker) :
      Step v { v with world := (v.world.notifyWorker m worker).2 }
  | call (v : Watched) (s : Scheduler) (id : String) (hs : v.world.scheduler = some s) :
      Step v { v with world := v.world.setScheduler (s.call id).2 }
  | pass (v : Watched) (now : Nat) (h : v.world.now ≤ now) :
      Step v { v with world := { v.world with now } }
  /-- The activities take turns as they like, and the watcher stands in the world or by itself. -/
  | arrange (v : Watched) (ready blocked : List Activity) (watcher : Option Watcher) (disk : Disk) :
      Step v { v with world := { v.world with ready, blocked, watcher, disk } }

def Run : Watched → Watched → Prop := Relation.ReflTransGen Step

/-- A scheduler and a worker that were made with the watcher's settings and have subscribed, and of
which neither has done anything yet. Jobs may have been registered, and scheduled by hand. -/
structure Launched (v : Watched) (n : Nat) : Prop where
  scheduler : ∃ s, v.world.scheduler = some s.start ∧
    Scheduler.Leads (.new v.watcher.current.jobs) s ∧ s.settings = v.watcher.current.jobs ∧
    s.isCancelled = false
  worker : ∃ x poolSize fault, v.world.workers[n]? =
    some (Worker.start x poolSize v.watcher.current.worker.latencyMillis fault).1
  listens : v.world.notifier.Has schedulerName .jobs .new
  obeys : v.world.notifier.Has (workerName n) .worker .new
  desk : ∀ name, v.world.desk.under name = []

/-- Subscribing to the watcher's changes is what launches a worker and a scheduler that have been made
with its settings. -/
theorem subscribed_launched (watcher : Watcher) (w : World) (n : Nat) (s : Scheduler)
    (hs : w.scheduler = some s.start) (hleads : Scheduler.Leads (.new watcher.current.jobs) s)
    (hsettings : s.settings = watcher.current.jobs) (hcancelled : s.isCancelled = false)
    (hworker : ∃ x poolSize fault, w.workers[n]? =
      some (Worker.start x poolSize watcher.current.worker.latencyMillis fault).1)
    (hdesk : ∀ name, w.desk.under name = []) :
    Launched ⟨watcher, (w.subscribe .notifier (workerName n) .worker).subscribe .notifier
      schedulerName .jobs⟩ n := by
  have hobeys : ((w.notifier.subscribe (workerName n) .worker).subscribe schedulerName .jobs).Has
      (workerName n) .worker .new := by
    rw [Notifier.Has, Notifier.under_subscribe _ _ _ _ (workerName_ne n).symm]
    exact w.notifier.under_subscribe_self (workerName n) .worker
  exact ⟨⟨s,hs,hleads,hsettings,hcancelled⟩,hworker,Notifier.under_subscribe_self _ _ _,hobeys,hdesk⟩

/-- Whoever goes by this name is subscribed and has read all there is to read. -/
def Drained (w : World) (name : String) : Prop :=
  w.notifier.under name ≠ [] ∧ w.isNotified name = false

structure Follows (v : Watched) (n : Nat) : Prop where
  scheduler : v.world.SchedulerFollows v.watcher.current.jobs
  worker : v.world.WorkerFollows n v.watcher.current.worker

variable {v v' : Watched} {n : Nat}

theorem launched_follows (h : v.Launched n) : v.Follows n := by
  constructor
  · obtain ⟨s, hs, hleads, hsettings, hcancelled⟩ := h.scheduler
    obtain ⟨hkept, -⟩ := Scheduler.leads_kept hleads (Scheduler.new_kept _)
    have hworks : s.start.Works := by
      refine ⟨⟨hcancelled,Or.inl rfl⟩,
        ⟨hkept.ids,hkept.entries,hkept.noted,hkept.live,hkept.uncancelled⟩,?_⟩
      intro hserving
      cases hserving
    have htrails : Trails s.start.settings .new v.watcher.current.jobs :=
      hsettings ▸ trails_new s.settings
    exact ⟨s.start,.new,hs,hworks,h.listens,h.desk _,htrails⟩
  · obtain ⟨x, poolSize, fault, hn⟩ := h.worker
    exact ⟨h.desk _,Or.inr ⟨_,_,.new,hn,rfl,h.obeys,trails_new _⟩⟩

/-! ## One step -/

theorem Follows.aside (h : v.Follows n) (w : World) (ha : v.world.Aside w) :
    Follows { v with world := w } n :=
  ⟨h.scheduler.spared (ha.spared _) ha.scheduler,h.worker.spared (ha.spared _) (ha.workers n)⟩

theorem Follows.heard (h : v.Follows n) (s : Scheduler) (hs : v.world.scheduler = some s) :
    Follows { v with world := (v.world.notifyScheduler s).2 } n := by
  obtain ⟨hspared, hworkers⟩ := v.world.notifyScheduler_spared s n
  refine ⟨h.scheduler.heard s hs,h.worker.spared hspared ?_⟩
  intro worker hn
  exact ⟨worker,by rw [hworkers, hn],rfl⟩

theorem Follows.told (h : v.Follows n) (m : Nat) (worker : Worker)
    (hm : v.world.workers[m]? = some worker) :
    Follows { v with world := (v.world.notifyWorker m worker).2 } n := by
  constructor
  · obtain ⟨hspared, hscheduler, -⟩ :=
      v.world.notifyWorker_spared m worker schedulerName (workerName_ne m)
    refine h.scheduler.spared hspared ?_
    intro s hs
    exact ⟨s,hscheduler.trans hs,.refl s⟩
  · by_cases hmn : m = n
    · subst hmn
      exact h.worker.told worker hm
    · obtain ⟨hspared, -, hworkers⟩ := v.world.notifyWorker_spared m worker (workerName n)
        fun heq => hmn (workerName_inj m n heq)
      refine h.worker.spared hspared ?_
      intro other hn
      exact ⟨other,(hworkers n hmn).trans hn,rfl⟩

theorem Follows.left (h : v.Follows n) (m : Nat) :
    Follows { v with world := v.world.unsubscribe (workerName m) } n := by
  constructor
  · refine h.scheduler.spared (v.world.unsubscribe_spared _ _ (workerName_ne m)) ?_
    intro s hs
    exact ⟨s,hs,.refl s⟩
  · by_cases hmn : m = n
    · subst hmn
      exact ⟨v.world.desk.under_unsubscribe_self _,
        Or.inl (v.world.notifier.under_unsubscribe_self _)⟩
    · have hspared := v.world.unsubscribe_spared (workerName m) (workerName n)
        fun heq => hmn (workerName_inj m n heq)
      exact h.worker.spared hspared fun worker hn => ⟨worker,hn,rfl⟩

theorem Follows.acted (h : v.Follows n) (w : World) (ha : v.world.Acted w) :
    Follows { v with world := w } n := by
  cases ha with
  | aside _ haside => exact h.aside w haside
  | left u m haside => exact (h.aside u haside).left m
  | ending s _ hs hoff =>
    obtain ⟨t, -, ht, hworks, -⟩ := h.scheduler
    cases Option.some.inj (hs.symm.trans ht)
    exact absurd hworks.isOn hoff
  | entered s next hs hnext =>
    have hspared : v.world.Spared (v.world.setScheduler next) (workerName n) := ⟨rfl,rfl⟩
    exact ⟨h.scheduler.entered s next hs hnext,
      h.worker.spared hspared fun worker hn => ⟨worker,hn,rfl⟩⟩
  | heard s hs => exact h.heard s hs
  | told m worker hm => exact h.told m worker hm

/-- What a reload announces leads on from where the subscribers are bound for. -/
theorem Follows.reload (h : v.Follows n) (disk : Disk) : (v.reload disk).Follows n := by
  have hnotifier := v.watcher.refresh_delivers disk v.world.notifier
  have hchain := v.watcher.refresh_chain disk v.world.notifier
  have hdelivering : (v.reload disk).world.notifier =
      v.world.notifier.delivering fun p => (v.watcher.announced? disk p).toList := hnotifier
  constructor
  · obtain ⟨s, q, hs, hworks, hhas, hdesk, htrails⟩ := h.scheduler
    have hhas' := hhas.delivering fun p => (v.watcher.announced? disk p).toList
    rw [← hdelivering] at hhas'
    exact ⟨s,_,hs,hworks,hhas',hdesk,htrails.pushAll _ _ _ (hchain .jobs)⟩
  · obtain ⟨hdesk, hleft | ⟨worker, applied, q, hn, hlatency, hhas, htrails⟩⟩ := h.worker
    · have hleft' : (v.reload disk).world.notifier.under (workerName n) = [] := by
        rw [hdelivering, Notifier.delivering_under, hleft]
        rfl
      exact ⟨hdesk,Or.inl hleft'⟩
    · have hhas' := hhas.delivering fun p => (v.watcher.announced? disk p).toList
      rw [← hdelivering] at hhas'
      exact ⟨hdesk,Or.inr ⟨worker,applied,_,hn,hlatency,hhas',
        htrails.pushAll _ _ _ (hchain .worker)⟩⟩

theorem step_follows (hs : Step v v') (h : v.Follows n) : v'.Follows n := by
  cases hs with
  | reload disk => exact h.reload disk
  | act a ha => exact h.acted _ (World.act_cases v.world a ha)
  | hear s hs => exact h.heard s hs
  | tell m worker hm => exact h.told m worker hm
  | call s id hs =>
    exact h.aside _ (World.setScheduler_aside v.world s _ hs (Scheduler.call_untouched s id))
  | pass now => exact h.aside _ (World.aside_of_eq _ _ rfl rfl rfl rfl)
  | arrange ready blocked watcher disk => exact h.aside _ (World.aside_of_eq _ _ rfl rfl rfl rfl)

theorem run_follows (hr : Run v v') (h : v.Follows n) : v'.Follows n := by
  induction hr with
  | refl => exact h
  | tail _ hstep ih => exact step_follows hstep ih

/-! ## Periods -/

theorem step_sound (hs : Step v v') (h : v.watcher.current.jobs.Sound) :
    v'.watcher.current.jobs.Sound := by
  cases hs with
  | reload disk =>
    change (v.watcher.refresh disk v.world.notifier).1.current.jobs.Sound
    cases hl : load disk v.watcher.flags (some v.watcher.path) with
    | error e => simpa [v.watcher.refresh_error disk v.world.notifier e hl] using h
    | ok next =>
      simpa [v.watcher.refresh_ok disk v.world.notifier next hl] using load_sound _ _ _ next hl
  | _ => exact h

theorem run_sound (hr : Run v v') (h : v.watcher.current.jobs.Sound) :
    v'.watcher.current.jobs.Sound := by
  induction hr with
  | refl => exact h
  | tail _ hstep ih => exact step_sound hstep ih

/-! ## Runs -/

def reloads (v : Watched) (disks : List Disk) : Watched := disks.foldl reload v

def acting (v : Watched) (as : List Activity) : Watched :=
  as.foldl (fun v a => { v with world := (v.world.step a).2 }) v

theorem run_reloads (v : Watched) (disks : List Disk) : Run v (v.reloads disks) := by
  induction disks generalizing v with
  | nil => exact .refl
  | cons disk disks ih => exact .head (.reload v disk) (ih (v.reload disk))

theorem run_acting (v : Watched) (as : List Activity) (h : ∀ a ∈ as, a.isWatcher = false) :
    Run v (v.acting as) := by
  induction as generalizing v with
  | nil => exact .refl
  | cons a as ih =>
    have hrest : ∀ b ∈ as, b.isWatcher = false := fun b hb => h b (List.mem_cons_of_mem a hb)
    exact .head (.act v a (h a List.mem_cons_self)) (ih _ hrest)

/-- The turns of the central side are such steps. A watcher that runs by itself reloads in its turn. -/
theorem run_turn (watcher : Watcher) (w w' : World) (a : Activity) (rest : List Activity)
    (hready : w.ready = a :: rest) (h : w.turn = some w') (ha : a.isWatcher = false) :
    Run ⟨watcher, w⟩ ⟨watcher, w'⟩ := by
  have hfirst : Step ⟨watcher, w⟩ ⟨watcher, { w with ready := rest }⟩ :=
    .arrange ⟨watcher, w⟩ rest w.blocked w.watcher w.disk
  have hact := Step.act ⟨watcher, { w with ready := rest }⟩ a ha
  refine .head hfirst (.head hact (.single ?_))
  simp only [turn, hready] at h
  generalize World.step { w with ready := rest } a = result at h ⊢
  obtain ⟨turn, u⟩ := result
  cases turn with
  | again b =>
    cases h
    exact .arrange ⟨watcher, u⟩ _ _ _ _
  | wait b =>
    cases h
    exact .arrange ⟨watcher, u⟩ _ _ _ _
  | _ =>
    cases h
    exact .arrange ⟨watcher, u⟩ _ _ _ _

theorem step_watcher (watcher : Watcher) (w : World) (period due : Nat) :
    let result := w.step (.watcher watcher period due)
    result.2 = w ∨ ∃ next,
      result.1 = .again (.watcher (Watched.mk watcher w |>.reload w.disk).watcher period next) ∧
        result.2 = (Watched.mk watcher w |>.reload w.disk).world := by
  simp only [World.step, stepWatcher]
  split
  · exact Or.inl rfl
  · split
    · exact Or.inl rfl
    · exact Or.inr ⟨_,rfl,rfl⟩

/-! ## Main statement -/

/-- Whatever was reloaded and in whatever order all others went on, also when changes were lost: the
scheduler stays subscribed, and once it has read everything its settings are those in force, and so is
its timetable when it serves; the worker has the latency in force once it has read everything. No
reload enables a job without giving it a period. -/
theorem drained_follow_settings (v v' : Watched) (n : Nat) (h : v.Launched n) (hr : Run v v') :
    (∃ s, v'.world.scheduler = some s ∧ s.IsOn ∧ v'.world.notifier.under schedulerName ≠ [] ∧
      (Drained v'.world schedulerName → s.settings = v'.watcher.current.jobs ∧
        (s.stage = .serving → ∀ id period, s.periodOf id = some period ↔
          ∃ job, s.job? id = some job ∧ (job.settings s.settings).disabled = false ∧
            (job.settings s.settings).periodMillis = period ∧ 0 < period))) ∧
      (Drained v'.world (workerName n) → ∃ worker, v'.world.workers[n]? = some worker ∧
        worker.latencyMillis = v'.watcher.current.worker.latencyMillis) ∧
      (v.watcher.current.jobs.Sound → v'.watcher.current.jobs.Sound) := by
  obtain ⟨⟨s, q, hs, hworks, hhas, hdesk, htrails⟩, hnobody, hworker⟩ :=
    run_follows hr (launched_follows h)
  refine ⟨⟨s,hs,hworks.isOn,?_,?_⟩,?_,run_sound hr⟩
  · rw [hhas]
    simp
  · rintro ⟨-, hread⟩
    have hnews : q.hasNews = false := by
      simpa [isNotified, hasNews_of_has _ _ _ q hhas, hasNews_of_nobody _ _ hdesk] using hread
    refine ⟨htrails.drained hnews,?_⟩
    intro hserves id period
    simp only [hworks.planned hserves, Option.bind_eq_some_iff, Job.planned_eq_some_iff]
  · rintro ⟨hsubscribed, hread⟩
    obtain hleft | ⟨worker, applied, q, hn, hlatency, hhas, htrails⟩ := hworker
    · exact absurd hleft hsubscribed
    · have hnews : q.hasNews = false := by
        simpa [isNotified, hasNews_of_has _ _ _ q hhas, hasNews_of_nobody _ _ hnobody] using hread
      have happlied : applied = v'.watcher.current.worker := htrails.drained hnews
      exact ⟨worker,hn,happlied ▸ hlatency⟩

/-- The file changes eighteen times before the two subscribers, of which one has not entered its loop
yet, read anything. Both lose two changes and have caught up when they have read the rest. -/
theorem lagging_subscribers_catch_up :
    let disk (latency period : String) : Disk := ⟨fun _ => false, fun _ => .ok <|
      "[central]\nin_memory = true\n[cloud_worker]\nprovisioning_latency_ms = " ++ latency ++
        "\n[jobs.vm_update_status]\nperiod_millis = " ++ period ++ "\n"⟩
    let slow := disk "900" "800"
    let fast := disk "20" "500"
    let watcher : Watcher := ⟨"settings", ⟨none, true, none⟩, .default⟩
    let started := Worker.start .empty 1 WorkerSettings.default.latencyMillis none
    let s := (Scheduler.new .default).register updateStatusJob
    let world : World := { World.new (.memory []) (.memory []) 1000 slow with
      workers := [started.1]
      exchange := started.2
      scheduler := some s.start }
    let v : Watched := ⟨watcher, (world.subscribe .notifier (workerName 0) .worker).subscribe
      .notifier schedulerName .jobs⟩
    let piled := v.reloads (List.replicate 9 [slow, fast]).flatten
    let last := piled.acting (List.replicate 18 .scheduler ++ List.replicate 17 (.worker 0))
    v.Launched 0 ∧ Run v last ∧
      piled.world.notifier.subscribers.map (fun s => (s.queue.lost, s.queue.unread.length)) =
        [(2, 16), (2, 16)] ∧
      Drained last.world schedulerName ∧ Drained last.world (workerName 0) ∧
      last.watcher.current.worker.latencyMillis = 20 ∧
      (last.world.workers[0]?).map Worker.latencyMillis = some 20 ∧
      last.world.scheduler.map (fun s => s.periodOf "vm_update_status") = some (some 500) ∧
      ∃ s, last.world.scheduler = some s ∧ s.settings = last.watcher.current.jobs := by
  intro disk slow fast watcher started s world v piled last
  have hlaunched : v.Launched 0 := subscribed_launched watcher world 0 s rfl
    (.single (.register _ _)) rfl rfl ⟨_,_,_,rfl⟩ fun _ => rfl
  have hrun : Run v last := by
    refine (run_reloads v _).trans (run_acting piled _ ?_)
    intro a ha
    rcases List.mem_append.mp ha with h | h <;> rw [List.eq_of_mem_replicate h] <;> rfl
  have hfacts : piled.world.notifier.subscribers.map (fun s =>
        (s.queue.lost, s.queue.unread.length)) = [(2, 16), (2, 16)] ∧
      ((last.world.notifier.under schedulerName).isEmpty = false ∧
        last.world.isNotified schedulerName = false) ∧
      ((last.world.notifier.under (workerName 0)).isEmpty = false ∧
        last.world.isNotified (workerName 0) = false) ∧
      last.watcher.current.worker.latencyMillis = 20 ∧
      (last.world.workers[0]?).map Worker.latencyMillis = some 20 ∧
      last.world.scheduler.map (fun s => s.periodOf "vm_update_status") = some (some 500) := by
    decide +kernel
  obtain ⟨hlost, ⟨hlistens, hheard⟩, ⟨hobeys, htold⟩, hcurrent, hlatency, hperiod⟩ := hfacts
  have hscheduler : Drained last.world schedulerName :=
    ⟨List.isEmpty_eq_false_iff.mp hlistens,hheard⟩
  have hworker : Drained last.world (workerName 0) := ⟨List.isEmpty_eq_false_iff.mp hobeys,htold⟩
  obtain ⟨⟨t, ht, -, -, hfollows⟩, -⟩ := drained_follow_settings v last 0 hlaunched hrun
  exact ⟨hlaunched,hrun,hlost,hscheduler,hworker,hcurrent,hlatency,hperiod,t,ht,
    (hfollows hscheduler).1⟩

end Watched
end VmFleet.Central
