import VmFleet.Proofs.Jobs.Recorded
import VmFleet.Proofs.Tasks.Reports
import VmFleet.Proofs.Tasks.Succession

/-!
# What the counters add up to

In an office any number of tasks are submitted side by side, the scheduler makes its moves, and
others ask for effects in between, in any order. The counters tell of all that happens there: each
task that has run is counted once under its operation, and each tick that was recorded once under its
job, with the outcome that it had. Nothing else is counted.
-/

set_option autoImplicit false

namespace VmFleet

open Metrics

namespace Security

theorem Operation.ofName_name (o : Operation) : Operation.ofName? o.name = some o := by
  cases o <;> decide

theorem Operation.name_injective : Function.Injective Operation.name := by
  intro o o' h
  have hname := congrArg Operation.ofName? h
  rw [Operation.ofName_name, Operation.ofName_name] at hname
  exact Option.some.inj hname

end Security

theorem Jobs.TickOutcome.name_injective : Function.Injective Jobs.TickOutcome.name := by
  intro o o' h
  cases o <;> cases o' <;> simp [Jobs.TickOutcome.name] at h ⊢

def Metrics.Event.isRequest : Event → Bool
  | .request _ _ => true
  | _ => false

/-- Nothing is recorded with it but requests. -/
def Effect.isAside (e : Effect) : Bool := e.events.all Event.isRequest

theorem Records.respond_metrics (s : Supply) (r : Records) (e : Effect) :
    (r.respond s e).2.1.metrics = r.metrics.recordAll e.events := by
  cases e <;> rfl

theorem Records.foldl_record_metrics (r : Records) (events : List Event) :
    (events.foldl Records.record r).metrics = r.metrics.recordAll events := by
  induction events generalizing r with
  | nil => rfl
  | cons event events ih => exact ih (r.record event)

namespace Central

open Tasks Jobs Security

structure Office where
  records : Records
  submissions : List Submission
  moment : Moment

namespace Office

inductive Turn where
  | trust (t : Task) (p : Principal)
  | submit (t : Task) (accountId : String)
  /-- The submission with this number asks for its next effect. -/
  | go (n : Nat) (s : Supply)
  /-- Somebody else asks for an effect. -/
  | other (e : Effect) (s : Supply)
  | move (move : Move)

def Turn.task? : Turn → Option Task
  | .trust t _ => some t
  | .submit t _ => some t
  | _ => none

def Turn.move? : Turn → Option Move
  | .move m => some m
  | _ => none

def moves (turns : List Turn) : List Move := turns.filterMap Turn.move?

def opening (r : Records) (settings : Config.JobsSettings) (now : Nat) : Office :=
  ⟨r, [], .new settings now⟩

def asked? (o : Office) (n : Nat) : Option Effect := (o.submissions[n]?).bind Submission.effect?

/-- What a turn records. -/
def recorded (o : Office) : Turn → List Event
  | .go n _ => ((o.asked? n).map Effect.events).getD []
  | .other e _ => if e.isAside then e.events else []
  | .move move => o.moment.recorded move
  | _ => []

/-- A turn that nobody can take leaves everything as it is. -/
def play (o : Office) : Turn → Office
  | .trust t p => { o with submissions := o.submissions ++ [.trust t p] }
  | .submit t accountId => { o with submissions := o.submissions ++ [.submit t accountId] }
  | .go n s =>
    match o.asked? n with
    | none => o
    | some e => { o with
        records := (o.records.respond s e).2.1
        submissions := o.submissions.modify n (Submission.go fun e => (o.records.respond s e).1) }
  | .other e s => if e.isAside then { o with records := (o.records.respond s e).2.1 } else o
  | .move move => { o with
      records := (o.moment.recorded move).foldl Records.record o.records
      moment := o.moment.play move }

def after (o : Office) (turns : List Turn) : Office := turns.foldl play o

/-- All that is recorded while these turns are taken, in order. -/
def history (o : Office) : List Turn → List Event
  | [] => []
  | turn :: turns => o.recorded turn ++ (o.play turn).history turns

theorem after_cons (o : Office) (turn : Turn) (turns : List Turn) :
    o.after (turn :: turns) = (o.play turn).after turns := rfl

theorem after_append (o : Office) (turns rest : List Turn) :
    o.after (turns ++ rest) = (o.after turns).after rest := List.foldl_append

/-! ## One turn -/

theorem play_metrics (o : Office) (turn : Turn) :
    (o.play turn).records.metrics = o.records.metrics.recordAll (o.recorded turn) := by
  cases turn with
  | trust t p => rfl
  | submit t accountId => rfl
  | go n s =>
    simp only [play, recorded]
    cases o.asked? n with
    | none => rfl
    | some e => exact Records.respond_metrics s o.records e
  | other e s =>
    simp only [play, recorded]
    split
    · exact Records.respond_metrics s o.records e
    · rfl
  | move move => exact Records.foldl_record_metrics o.records _

theorem play_moment (o : Office) (turn : Turn) :
    (o.play turn).moment = o.moment.after turn.move?.toList := by
  cases turn with
  | go n s =>
    simp only [play]
    split <;> rfl
  | other e s =>
    simp only [play]
    split <;> rfl
  | _ => rfl

def Sound (o : Office) : Prop := ∀ b ∈ o.submissions, b.Stands

theorem asked_tells (o : Office) (n : Nat) (e : Effect) (answer : (e : Effect) → e.Answer)
    (h : o.Sound) (hasked : o.asked? n = some e) :
    ∃ b, o.submissions[n]? = some b ∧ b.Tells (b.go answer) e := by
  obtain ⟨b, hb, he⟩ := Option.bind_eq_some_iff.mp hasked
  exact ⟨b,hb,Submission.go_tells b e answer (h b (List.mem_of_getElem? hb)) he⟩

theorem play_sound (o : Office) (turn : Turn) (h : o.Sound) : (o.play turn).Sound := by
  have hnew : ∀ b : Submission, b.Stands →
      ({ o with submissions := o.submissions ++ [b] } : Office).Sound := by
    intro b hb
    exact List.forall_mem_append.mpr ⟨h,List.forall_mem_singleton.mpr hb⟩
  cases turn with
  | trust t p => exact hnew _ (Submission.trust_stands t p)
  | submit t accountId => exact hnew _ (.waiting t accountId)
  | go n s =>
    simp only [play]
    split
    · exact h
    · rename_i e hasked
      intro b' hb'
      obtain ⟨k, hk⟩ := List.mem_iff_getElem?.mp hb'
      rw [List.getElem?_modify] at hk
      obtain ⟨b, hb, rfl⟩ := Option.map_eq_some_iff.mp hk
      split
      · rename_i hn
        obtain ⟨c, hc, htells⟩ := o.asked_tells n e _ h hasked
        rw [← hn, hc] at hb
        cases hb
        exact htells.stands
      · exact h b (List.mem_of_getElem? hb)
  | other e s =>
    simp only [play]
    split <;> exact h
  | move move => exact h

/-- How many tasks have run that are wanted, given their operations and their outcomes. -/
def ranOf (o : Office) (wanted : Operation × String → Bool) : Nat :=
  o.submissions.countP fun b => b.ran?.any wanted

/-- The labels under which a task that has run is counted. -/
def labels (ran : Operation × String) : String × String := (ran.1.name, ran.2)

theorem ranOf_go (o : Office) (n : Nat) (s : Supply) (h : o.Sound)
    (wanted : String × String → Bool) :
    (o.play (.go n s)).ranOf (wanted ∘ labels) = o.ranOf (wanted ∘ labels) +
      (o.recorded (.go n s)).countP fun event => event.task?.any wanted := by
  simp only [play, recorded]
  cases hasked : o.asked? n with
  | none => rfl
  | some e =>
    obtain ⟨b, hb, htells⟩ := o.asked_tells n e (fun e => (o.records.respond s e).1) h hasked
    have hcount := countP_modify (fun b : Submission => b.ran?.any (wanted ∘ labels))
      (Submission.go fun e => (o.records.respond s e).1) o.submissions n b hb
    rw [htells.isNew] at hcount
    rw [Option.map_some, Option.getD_some, htells.events]
    refine hcount.trans (congrArg (o.ranOf (wanted ∘ labels) + ·) ?_)
    cases (b.go fun e => (o.records.respond s e).1).ran? with
    | none => rfl
    | some ran => exact (List.countP_singleton ..).symm

theorem countP_requests (kind : Event → Bool) (hkind : ∀ event, event.isRequest = true →
    kind event = false) (e : Effect) (h : e.isAside = true) : e.events.countP kind = 0 := by
  rw [List.countP_eq_zero]
  intro event hevent
  simp [hkind event (List.all_eq_true.mp h event hevent)]

/-- A turn counts as many tasks of any kind as have run with it. -/
theorem play_ranOf (o : Office) (turn : Turn) (h : o.Sound) (wanted : String × String → Bool) :
    (o.play turn).ranOf (wanted ∘ labels) = o.ranOf (wanted ∘ labels) +
      (o.recorded turn).countP fun event => event.task?.any wanted := by
  have hnew : ∀ b : Submission, b.ran? = none →
      ({ o with submissions := o.submissions ++ [b] } : Office).ranOf (wanted ∘ labels) =
        o.ranOf (wanted ∘ labels) := by
    intro b hb
    simp [ranOf, hb]
  cases turn with
  | trust t p => exact hnew _ (Submission.trust_ran t p)
  | submit t accountId => exact hnew _ rfl
  | go n s => exact ranOf_go o n s h wanted
  | other e s =>
    simp only [play, recorded]
    split
    · rename_i haside
      rw [countP_requests _ _ e haside]
      · rfl
      · intro event hevent
        cases event <;> first | rfl | cases hevent
    · rfl
  | move move =>
    simp only [recorded]
    rw [Moment.recorded_eq]
    cases o.moment.finish? move <;> rfl

/-- The ticks that a turn counts are those that its move records. -/
theorem recorded_ticks (o : Office) (turn : Turn) (h : o.Sound) :
    (o.recorded turn).filter (fun event => event.tick?.isSome) =
      (o.moment.finishes turn.move?.toList).map Finish.event := by
  cases turn with
  | trust t p => rfl
  | submit t accountId => rfl
  | go n s =>
    simp only [recorded]
    cases hasked : o.asked? n with
    | none => rfl
    | some e =>
      obtain ⟨b, -, htells⟩ := o.asked_tells n e (fun e => (o.records.respond s e).1) h hasked
      rw [Option.map_some, Option.getD_some, htells.events]
      cases (b.go fun e => (o.records.respond s e).1).ran? <;> rfl
  | other e s =>
    simp only [recorded]
    split
    · rename_i haside
      apply List.filter_eq_nil_iff.mpr
      intro event hevent
      have hrequest := List.all_eq_true.mp haside event hevent
      cases event <;> first | exact Bool.false_ne_true | cases hrequest
    · rfl
  | move move =>
    simp only [recorded, Turn.move?, Option.toList_some, Moment.finishes, List.append_nil]
    rw [Moment.recorded_eq]
    cases o.moment.finish? move <;> rfl

/-- Tasks are submitted in the order of the turns, and none is forgotten. -/
theorem play_tasks (o : Office) (turn : Turn) (h : o.Sound) :
    (o.play turn).submissions.map Submission.task =
      o.submissions.map Submission.task ++ turn.task?.toList := by
  cases turn with
  | trust t p => simp [play, Turn.task?, Submission.trust]
  | submit t accountId => simp [play, Turn.task?, Submission.submit]
  | go n s =>
    simp only [play, Turn.task?, Option.toList_none, List.append_nil]
    split
    · rfl
    · rename_i e hasked
      obtain ⟨b, hb, htells⟩ := o.asked_tells n e (fun e => (o.records.respond s e).1) h hasked
      apply List.ext_getElem?
      intro k
      rw [List.getElem?_map, List.getElem?_map, List.getElem?_modify]
      by_cases hk : n = k
      · rw [← hk, hb]
        simp [htells.task]
      · simp [hk]
  | other e s =>
    simp only [play]
    split <;> exact (List.append_nil _).symm
  | move move => exact (List.append_nil _).symm

/-! ## Any turns -/

theorem after_metrics (o : Office) (turns : List Turn) :
    (o.after turns).records.metrics = o.records.metrics.recordAll (o.history turns) := by
  induction turns generalizing o with
  | nil => rfl
  | cons turn turns ih =>
    rw [after_cons, ih, play_metrics, history, Registry.recordAll, Registry.recordAll,
      Registry.recordAll, List.foldl_append]

theorem moves_cons (turn : Turn) (turns : List Turn) :
    moves (turn :: turns) = turn.move?.toList ++ moves turns := by
  unfold moves
  rw [List.filterMap_cons]
  cases turn.move? <;> rfl

theorem after_moment (o : Office) (turns : List Turn) :
    (o.after turns).moment = o.moment.after (moves turns) := by
  induction turns generalizing o with
  | nil => rfl
  | cons turn turns ih => rw [after_cons, ih, play_moment, moves_cons, Moment.after_append]

theorem after_tasks (o : Office) (turns : List Turn) (h : o.Sound) :
    (o.after turns).submissions.map Submission.task =
      o.submissions.map Submission.task ++ turns.filterMap Turn.task? := by
  induction turns generalizing o with
  | nil => exact (List.append_nil _).symm
  | cons turn turns ih =>
    rw [after_cons, ih _ (play_sound o turn h), play_tasks o turn h, List.append_assoc,
      List.filterMap_cons]
    cases turn.task? <;> rfl

theorem after_ranOf (o : Office) (turns : List Turn) (h : o.Sound)
    (wanted : String × String → Bool) :
    (o.after turns).ranOf (wanted ∘ labels) = o.ranOf (wanted ∘ labels) +
      (o.history turns).countP fun event => event.task?.any wanted := by
  induction turns generalizing o with
  | nil => rfl
  | cons turn turns ih =>
    rw [after_cons, ih _ (play_sound o turn h), play_ranOf o turn h, history, List.countP_append,
      Nat.add_assoc]

theorem history_ticks (o : Office) (turns : List Turn) (h : o.Sound) :
    (o.history turns).filter (fun event => event.tick?.isSome) =
      (o.moment.finishes (moves turns)).map Finish.event := by
  induction turns generalizing o with
  | nil => rfl
  | cons turn turns ih =>
    rw [history, List.filter_append, recorded_ticks o turn h, ih _ (play_sound o turn h),
      play_moment, moves_cons, Moment.finishes_append, List.map_append]

/-- Of whatever kind, as many ticks are counted as were recorded. -/
theorem countP_ticks (o : Office) (turns : List Turn) (h : o.Sound)
    (wanted : String × String → Bool) :
    ((o.history turns).countP fun event => event.tick?.any wanted) =
      (o.moment.finishes (moves turns)).countP fun f => wanted (f.job, f.info.outcome.name) := by
  have hticks : (fun event : Event => event.tick?.any wanted) =
      fun event => event.tick?.any wanted && event.tick?.isSome := by
    funext event
    cases event.tick? <;> simp
  rw [hticks, ← List.countP_filter, history_ticks o turns h, List.countP_map]
  rfl

/-! ## From the opening on -/

section

variable (r : Records) (settings : Config.JobsSettings) (now : Nat) (turns : List Turn)

theorem opening_sound : (opening r settings now).Sound := by
  intro b hb
  cases hb

theorem tasks_counted (wanted : String × String → Bool) :
    let o := (opening r settings now).after turns
    o.records.metrics.tasks.sumOver wanted =
      r.metrics.tasks.sumOver wanted + o.ranOf (wanted ∘ labels) := by
  intro o
  have hran := after_ranOf _ turns (opening_sound r settings now) wanted
  rw [show (opening r settings now).ranOf (wanted ∘ labels) = 0 from rfl, Nat.zero_add] at hran
  rw [after_metrics, Registry.recordAll_tasks, ← hran]
  rfl

theorem tasks_value (op : Operation) (outcome : String) :
    let o := (opening r settings now).after turns
    o.records.metrics.tasks.value (op.name, outcome) =
      r.metrics.tasks.value (op.name, outcome) + o.ranOf (· = (op, outcome)) := by
  intro o
  rw [Counts.value_eq_sumOver, Counts.value_eq_sumOver, tasks_counted]
  congr 2
  funext ran
  exact decide_eq_decide.mpr (by simp [labels, Prod.ext_iff, Operation.name_injective.eq_iff])

theorem tasks_sum (op : Operation) :
    let o := (opening r settings now).after turns
    o.records.metrics.tasks.sumOver (·.1 = op.name) =
      r.metrics.tasks.sumOver (·.1 = op.name) + o.ranOf (·.1 = op) := by
  intro o
  rw [tasks_counted]
  congr 2
  funext ran
  exact decide_eq_decide.mpr Operation.name_injective.eq_iff

theorem ticks_counted (wanted : String × String → Bool) :
    ((opening r settings now).after turns).records.metrics.ticks.sumOver wanted =
      r.metrics.ticks.sumOver wanted + ((Moment.new settings now).finishes (moves turns)).countP
        fun f => wanted (f.job, f.info.outcome.name) := by
  rw [after_metrics, Registry.recordAll_ticks,
    countP_ticks _ turns (opening_sound r settings now) wanted]
  rfl

theorem ticks_value (job : String) (outcome : TickOutcome) :
    ((opening r settings now).after turns).records.metrics.ticks.value (job, outcome.name) =
      r.metrics.ticks.value (job, outcome.name) +
        ((Moment.new settings now).finishes (moves turns)).countP
          fun f => f.job = job ∧ f.info.outcome = outcome := by
  rw [Counts.value_eq_sumOver, Counts.value_eq_sumOver, ticks_counted]
  simp [TickOutcome.name_injective.eq_iff]

theorem durations_counted (job : String) :
    ((opening r settings now).after turns).records.metrics.tickDurations.count job =
      r.metrics.tickDurations.count job +
        ((Moment.new settings now).finishes (moves turns)).countP fun f => f.job = job := by
  rw [after_metrics, Registry.recordAll_durations,
    countP_ticks _ turns (opening_sound r settings now) (·.1 = job)]
  rfl

/-- The ticks are in order, and all that were recorded have ended. -/
theorem opening_ticks :
    let s := ((opening r settings now).after turns).moment.scheduler
    s.Orderly ((Moment.new settings now).finishes (moves turns)) ∧ s.Ended := by
  have hnew : (Moment.new settings now).scheduler.Ended := fun _ _ hr => nomatch hr
  rw [after_moment]
  exact ⟨(Moment.new settings now).after_orderly (Scheduler.orderly_new settings) _,
    (Moment.new settings now).after_ended hnew _⟩

theorem after_opening_recordedOf (job : String) :
    ((opening r settings now).after turns).moment.scheduler.recordedOf job =
      ((Moment.new settings now).finishes (moves turns)).countP fun f => f.job = job := by
  rw [after_moment]
  refine ((Moment.new settings now).after_recordedOf (Scheduler.orderly_new settings) _ job).trans ?_
  exact Nat.zero_add _

theorem last_tick (job : String) :
    (((opening r settings now).history turns).filter fun event =>
        event.tick?.any (·.1 = job)).getLast? =
      (((opening r settings now).after turns).moment.scheduler.board.lastRuns.lookup job).map
        (RunInfo.event job) := by
  rw [after_moment]
  refine Eq.trans ?_ ((Moment.new settings now).last_event (Scheduler.orderly_new settings) _ job)
  have hticks := history_ticks _ turns (opening_sound r settings now)
  rw [show (opening r settings now).moment = .new settings now from rfl] at hticks
  rw [← hticks, List.filter_filter]
  congr 2
  funext event
  cases event.tick? <;> simp

end

/-- A move that records no tick leaves the records as they are. -/
theorem play_move_records (o : Office) (move : Move) (h : o.moment.finish? move = none) :
    (o.play (.move move)).records = o.records := by
  simp only [play]
  rw [Moment.recorded_eq, h]
  rfl

/-! ## Main statement -/

/-- After any turns, the counters of an operation have grown by its tasks that have run, each counted
under the outcome that it returned. No task is lost or made up, and one that was submitted for
somebody without an account counts for nothing. The counters and the durations of a job have grown by
its ticks that were recorded, each counted under its own outcome. All of these have ended, whatever
has ended can be recorded at once, and the last tick that was counted is the last one that is known. A
timer that fires while its job is running, or a call that asks for a tick of it, counts for nothing,
as does all else that records no tick. -/
theorem counters_account_for_runs (r : Records) (settings : Config.JobsSettings) (now : Nat)
    (turns : List Turn) :
    let o := (opening r settings now).after turns
    let history := (opening r settings now).history turns
    let log := (Moment.new settings now).finishes (moves turns)
    let s := o.moment.scheduler
    let counted := o.records.metrics
    counted = r.metrics.recordAll history ∧
    (∀ op outcome, counted.tasks.value (op.name, outcome) =
      r.metrics.tasks.value (op.name, outcome) + o.ranOf (· = (op, outcome))) ∧
    (∀ op : Operation, counted.tasks.sumOver (·.1 = op.name) =
      r.metrics.tasks.sumOver (·.1 = op.name) + o.ranOf (·.1 = op)) ∧
    o.submissions.map Submission.task = turns.filterMap Turn.task? ∧
    (∀ job outcome, counted.ticks.value (job, TickOutcome.name outcome) =
      r.metrics.ticks.value (job, outcome.name) +
        log.countP fun f => f.job = job ∧ f.info.outcome = outcome) ∧
    (∀ job, counted.ticks.sumOver (·.1 = job) =
      r.metrics.ticks.sumOver (·.1 = job) + s.recordedOf job) ∧
    (∀ job, counted.tickDurations.count job =
      r.metrics.tickDurations.count job + s.recordedOf job) ∧
    s.Ended ∧
    (∀ n run ending, s.Underway n run → run.ending = some ending →
      ∃ move, o.moment.finish? move =
        some ⟨n, run.job, Scheduler.Run.infoAt run ending o.moment.now⟩) ∧
    (∀ job, (history.filter fun event => event.tick?.any (·.1 = job)).getLast? =
      (s.board.lastRuns.lookup job).map (RunInfo.event job)) ∧
    (∀ move, o.moment.finish? move = none → (o.play (.move move)).records = o.records) ∧
    (∀ timer t, s.timers[timer]? = some t → t.job ∈ s.board.running →
      o.moment.finish? (.fireTimer timer) = none ∧
        (o.play (.move (.fireTimer timer))).moment.scheduler.runs = s.runs) ∧
    ∀ number id rest, s.commands = (number, id) :: rest → id ∈ s.board.running →
      o.moment.finish? .handleCall = none ∧
        (o.play (.move .handleCall)).moment.scheduler.runs = s.runs := by
  intro o history log s counted
  obtain ⟨horderly, hended⟩ := opening_ticks r settings now turns
  refine ⟨after_metrics _ turns,tasks_value r settings now turns,tasks_sum r settings now turns,
    after_tasks _ turns (opening_sound r settings now),ticks_value r settings now turns,?_,?_,hended,
    o.moment.can_finish horderly.attended,last_tick r settings now turns,play_move_records o,?_,?_⟩
  · intro job
    rw [ticks_counted, after_opening_recordedOf]
  · intro job
    rw [durations_counted, after_opening_recordedOf]
  · intro timer t ht hrunning
    exact ⟨o.moment.finish_of_finishing_eq_none _ rfl,
      (o.moment.fire_refused timer t ht hrunning).1⟩
  · intro number id rest hcommands hrunning
    exact ⟨o.moment.finish_of_finishing_eq_none _ rfl,
      (o.moment.call_refused number id rest hcommands hrunning).1⟩

/-- Nobody has an account, but the jobs need none. -/
example (settings : Config.JobsSettings) :
    let o := (opening (.inMemory [] []) settings 0).after
      [.submit .getAllVms "nobody", .trust .getAllVms jobPrincipal, .go 1 .nothing,
        .go 0 .nothing, .go 1 .nothing]
    o.submissions.map Submission.ran? = [none, some (.getAllVms, "ok")] ∧
      o.records.metrics.tasks = [(("vm.get_all", "ok"), 1)] := ⟨rfl,rfl⟩

end Office
end Central
end VmFleet
