import VmFleet.Jobs.Scheduler

/-!
# What can happen to a scheduler

A scheduler goes on by moves: time passes, whoever holds it gives orders, somebody asks for a tick or
for the end, and the scheduler, its timers and the ticks take steps of their own. Moves may follow
each other in any order, and one that is not possible changes nothing. There are only a few
ways for a move to go; they are told apart once, so that later proofs need not look at moves.
-/

set_option autoImplicit false

namespace VmFleet.Jobs

/-- The job and the number of the tick that a timer waits for. -/
def Timer.tick? (t : Timer) : Option (String × Nat) := t.run?.map fun run => (t.job, run)

inductive Move where
  | pass (millis : Nat)
  | register (job : Job)
  | schedule (id : String) (period : Nat)
  | cancel (id : String)
  | apply (settings : Config.JobsSettings)
  | start
  | drop
  | call (id : String)
  | shutdown
  | enter
  | reconfigure (change : Config.Change Config.JobsSettings)
  | beginClosing
  | handleCall
  | closeNext
  | stopTimer (timer : Nat)
  | fireTimer (timer : Nat)
  | finishTick (timer : Nat)
  /-- The work of a tick is over, in whatever way. -/
  | endRun (number : Nat) (ending : Ending)
  /-- A tick that was started by hand is recorded. -/
  | finishRun (number : Nat)

theorem Timer.run_eq_some (t : Timer) (run : Nat) (h : t.run? = some run) :
    t.phase = .ticking run := by
  unfold run? at h
  split at h
  · rename_i hphase
    rw [hphase, Option.some.inj h]
  · cases h

namespace Scheduler

def tickOf (s : Scheduler) (timer : Nat) : Option (String × Nat) :=
  (s.timers[timer]?).bind Timer.tick?

/-- The tick of this number has begun and is not recorded yet. -/
def Underway (s : Scheduler) (number : Nat) (r : Run) : Prop :=
  s.runs[number]? = some r ∧ r.isRecorded = false

/-- Orders can be given as long as the scheduler is not about to stop. -/
def ordered (s next : Scheduler) : Option Scheduler :=
  if s.stage = .idle || s.stage = .serving then some next else none

def step? (s : Scheduler) (now : Nat) : Move → Option Scheduler
  | .pass _ => some s
  | .register job => s.ordered (s.register job)
  | .schedule id period => s.ordered (s.schedule id period now).2
  | .cancel id => s.ordered (s.cancel id).2
  | .apply settings => s.ordered (s.applySettings settings now)
  | .start => if s.stage = .idle then some s.start else none
  | .drop => if s.stage = .idle then some s.drop else none
  | .call id => some (s.call id).2
  | .shutdown => some s.shutdown
  | .enter => s.enter? now
  | .reconfigure change => if s.stage = .serving then some (s.reconfigure change now) else none
  | .beginClosing => s.beginClosing?
  | .handleCall => s.handleCall? now
  | .closeNext => s.closeNext? now
  | .stopTimer timer => s.stopTimer? timer
  | .fireTimer timer => s.fireTimer? timer now
  | .finishTick timer => (s.finishTick? timer now).map Prod.fst
  | .endRun number ending =>
    if (s.endingOf number).isNone then some (s.endRun number ending) else none
  | .finishRun number =>
    if (s.runs[number]?).any fun r => r.trigger = .manual then
      (s.advanceRun number now).map Prod.fst
    else none

/-! ## Steps taken apart -/

theorem endingOf_eq_some (s : Scheduler) (number : Nat) (ending : Ending)
    (h : s.endingOf number = some ending) :
    ∃ r, s.runs[number]? = some r ∧ r.ending = some ending := Option.bind_eq_some_iff.mp h

theorem stopTimer_eq_some (s s' : Scheduler) (timer : Nat) (h : s.stopTimer? timer = some s') :
    ∃ t, s.timers[timer]? = some t ∧ t.phase = .idle ∧ t.isCancelled = true ∧
      s' = s.onTimer timer Timer.stop := by
  simp only [stopTimer?, Option.bind_eq_bind, Option.bind_eq_some_iff] at h
  obtain ⟨t, ht, h⟩ := h
  split at h
  · rename_i hidle
    simp only [Bool.and_eq_true, decide_eq_true_eq] at hidle
    exact ⟨t,ht,hidle.1,hidle.2,(Option.some.inj h).symm⟩
  · cases h

/-- A timer that fires begins a tick, or goes on waiting because its job is in progress. -/
theorem fireTimer_eq_some (s s' : Scheduler) (timer now : Nat)
    (h : s.fireTimer? timer now = some s') :
    ∃ t, s.timers[timer]? = some t ∧ t.phase = .idle ∧ t.due ≤ now ∧
      (s' = s.onTimer timer (fun t => t.skip now) ∨
        ∃ began, s.beginRun t.job .timer now = some began ∧
          s' = began.onTimer timer fun t => t.fire now s.runs.length) := by
  simp only [fireTimer?, Option.bind_eq_bind, Option.bind_eq_some_iff] at h
  obtain ⟨t, ht, h⟩ := h
  split at h
  · rename_i hdue
    simp only [Bool.and_eq_true, decide_eq_true_eq] at hdue
    refine ⟨t, ht, hdue.1, hdue.2, ?_⟩
    cases hb : s.beginRun t.job .timer now with
    | none =>
      rw [hb] at h
      exact Or.inl (Option.some.inj h).symm
    | some began =>
      rw [hb] at h
      exact Or.inr ⟨began,rfl,(Option.some.inj h).symm⟩
  · cases h

theorem finishTick_eq_some (s : Scheduler) (timer now : Nat)
    (result : Scheduler × List Metrics.Event) (h : s.finishTick? timer now = some result) :
    ∃ t number r ending, s.timers[timer]? = some t ∧ t.phase = .ticking number ∧
      s.runs[number]? = some r ∧ r.ending = some ending ∧
      result.1 = (s.record number ending now).1.onTimer timer Timer.rest := by
  simp only [finishTick?, Option.bind_eq_bind, Option.bind_eq_some_iff] at h
  obtain ⟨t, ht, number, hrun, ending, hending, h⟩ := h
  cases h
  obtain ⟨r, hr, he⟩ := endingOf_eq_some s number ending hending
  exact ⟨t,number,r,ending,ht,t.run_eq_some number hrun,hr,he,rfl⟩

theorem advanceRun_eq_some (s : Scheduler) (number now : Nat)
    (result : Scheduler × List Metrics.Event) (h : s.advanceRun number now = some result) :
    ∃ r ending, s.runs[number]? = some r ∧ r.ending = some ending ∧ r.isRecorded = false ∧
      result.1 = (s.record number ending now).1 := by
  simp only [advanceRun, Option.bind_eq_bind, Option.bind_eq_some_iff] at h
  obtain ⟨ending, hending, h⟩ := h
  obtain ⟨r, hr, he⟩ := endingOf_eq_some s number ending hending
  split at h
  · cases h
  · rename_i hopen
    cases h
    rw [isRecorded, hr] at hopen
    exact ⟨r,ending,hr,he,eq_false_of_ne_true hopen,rfl⟩

section

variable (R : Scheduler → Scheduler → Prop)

/-- What scheduling and cancelling a job keep, deciding anew about a job keeps. -/
theorem reschedule_keeps (htrans : ∀ {s t u}, R s t → R t u → R s u)
    (hschedule : ∀ s id period now, R s (s.schedule id period now).2)
    (hcancel : ∀ s id, R s (s.cancel id).2) (settings : Config.JobsSettings) (now : Nat)
    (s : Scheduler) (job : Job) : R s (reschedule settings now s job) := by
  unfold reschedule
  dsimp only
  split
  · exact hcancel s job.id
  · exact htrans (hcancel s job.id) (hschedule _ _ _ _)

theorem visits_keep (hrefl : ∀ s, R s s) (htrans : ∀ {s t u}, R s t → R t u → R s u)
    (hschedule : ∀ s id period now, R s (s.schedule id period now).2)
    (hcancel : ∀ s id, R s (s.cancel id).2) (settings : Config.JobsSettings) (now : Nat)
    (jobs : List Job) (s : Scheduler) : R s (jobs.foldl (reschedule settings now) s) := by
  induction jobs generalizing s with
  | nil => exact hrefl s
  | cons job jobs ih =>
    exact htrans (reschedule_keeps R htrans hschedule hcancel settings now s job) (ih _)

end

/-- What a scheduler does of its own accord is a move. -/
theorem advance_move (s s' : Scheduler) (now : Nat) (h : s.advance now = some s') :
    ∃ move, s.step? now move = some s' := by
  simp only [advance, Option.or_eq_some_iff] at h
  rcases h with h | ⟨-, h | ⟨-, h | ⟨-, h⟩⟩⟩
  · exact ⟨.enter,h⟩
  · exact ⟨.beginClosing,h⟩
  · exact ⟨.handleCall,h⟩
  · exact ⟨.closeNext,h⟩

theorem advanceTimer_move (s s' : Scheduler) (timer now : Nat) (events : List Metrics.Event)
    (h : s.advanceTimer timer now = some (s', events)) : ∃ move, s.step? now move = some s' := by
  simp only [advanceTimer, Option.or_eq_some_iff, Option.map_eq_some_iff] at h
  rcases h with ⟨next, h | ⟨-, h⟩, heq⟩ | ⟨-, h⟩
  · cases heq
    exact ⟨.fireTimer timer,h⟩
  · cases heq
    exact ⟨.stopTimer timer,h⟩
  · exact ⟨.finishTick timer,by rw [step?, h]; rfl⟩

theorem advanceRun_move (s s' : Scheduler) (number now : Nat) (events : List Metrics.Event)
    (r : Run) (hr : s.runs[number]? = some r) (hmanual : r.trigger = .manual)
    (h : s.advanceRun number now = some (s', events)) : ∃ move, s.step? now move = some s' :=
  ⟨.finishRun number,by simp [step?, hr, hmanual, h]⟩

end Scheduler

/-- What was kept of a tick when it was recorded. -/
structure Finish where
  number : Nat
  job : String
  info : RunInfo

/-- The tick that a move is to record. -/
def Move.finishing? (s : Scheduler) : Move → Option Nat
  | .finishTick timer => (s.tickOf timer).map Prod.snd
  | .finishRun number => some number
  | _ => none

/-- A scheduler at some time. -/
structure Moment where
  now : Nat
  scheduler : Scheduler

namespace Moment

def new (settings : Config.JobsSettings) (now : Nat) : Moment := ⟨now, .new settings⟩

def play (m : Moment) (move : Move) : Moment where
  now := match move with
    | .pass millis => m.now + millis
    | _ => m.now
  scheduler := (m.scheduler.step? m.now move).getD m.scheduler

def after (m : Moment) (moves : List Move) : Moment := moves.foldl play m

def finish? (m : Moment) (move : Move) : Option Finish := do
  let _ ← m.scheduler.step? m.now move
  let number ← move.finishing? m.scheduler
  let r ← m.scheduler.runs[number]?
  let ending ← r.ending
  return ⟨number, r.job, Scheduler.Run.infoAt r ending m.now⟩

/-- All ticks that are recorded while these moves are made, in order. -/
def finishes (m : Moment) : List Move → List Finish
  | [] => []
  | move :: moves => (m.finish? move).toList ++ (m.play move).finishes moves

theorem after_append (m : Moment) (moves rest : List Move) :
    m.after (moves ++ rest) = (m.after moves).after rest := List.foldl_append

theorem after_concat (m : Moment) (moves : List Move) (move : Move) :
    m.after (moves ++ [move]) = (m.after moves).play move := by
  rw [after_append]
  rfl

theorem finishes_append (m : Moment) (moves rest : List Move) :
    m.finishes (moves ++ rest) = m.finishes moves ++ (m.after moves).finishes rest := by
  induction moves generalizing m with
  | nil => rfl
  | cons move moves ih =>
    rw [List.cons_append, finishes, finishes, ih, List.append_assoc]
    rfl

theorem finishes_concat (m : Moment) (moves : List Move) (move : Move) :
    m.finishes (moves ++ [move]) = m.finishes moves ++ ((m.after moves).finish? move).toList := by
  rw [finishes_append, finishes, finishes, List.append_nil]

end Moment

/-! ## Moves that leave the ticks alone -/

namespace Scheduler

/-- No tick begins, ends or is recorded, and every timer waits for the tick that it waited for. -/
structure Quiet (s s' : Scheduler) : Prop where
  runs : s'.runs = s.runs
  running : s'.board.running = s.board.running
  lastRuns : s'.board.lastRuns = s.board.lastRuns
  ticks : ∀ timer, s'.tickOf timer = s.tickOf timer

/-- Besides, the scheduler is as far as it was. -/
structure Still (s s' : Scheduler) : Prop extends Quiet s s' where
  stage : s'.stage = s.stage
  manual : s'.manual = s.manual

theorem Still.refl (s : Scheduler) : Still s s := ⟨⟨rfl,rfl,rfl,fun _ => rfl⟩,rfl,rfl⟩

theorem Still.trans {s t u : Scheduler} (h : Still s t) (k : Still t u) : Still s u where
  runs := k.runs.trans h.runs
  running := k.running.trans h.running
  lastRuns := k.lastRuns.trans h.lastRuns
  ticks timer := (k.ticks timer).trans (h.ticks timer)
  stage := k.stage.trans h.stage
  manual := k.manual.trans h.manual

theorem tickOf_onTimer (s : Scheduler) (number : Nat) (f : Timer → Timer) (timer : Nat) :
    (s.onTimer number f).tickOf timer =
      if timer = number then (s.timers[timer]?).bind fun t => (f t).tick? else s.tickOf timer := by
  simp only [tickOf, onTimer, List.getElem?_modify]
  by_cases h : timer = number
  · subst h
    cases s.timers[timer]? with
    | none => simp
    | some t => simp
  · cases s.timers[timer]? with
    | none => simp [h]
    | some t => simp [h, Ne.symm h]

theorem onTimer_still (s : Scheduler) (number : Nat) (f : Timer → Timer)
    (hf : ∀ t, s.timers[number]? = some t → (f t).tick? = t.tick?) :
    Still s (s.onTimer number f) := by
  refine ⟨⟨rfl,rfl,rfl,fun timer => ?_⟩, rfl, rfl⟩
  rw [tickOf_onTimer]
  split
  · rename_i h
    subst h
    cases ht : s.timers[timer]? with
    | none => rw [tickOf, ht]; rfl
    | some t => rw [tickOf, ht]; exact hf t ht
  · rfl

/-- A new timer waits for no tick. -/
theorem tickOf_append_start (s : Scheduler) (id : String) (period now timer : Nat)
    (isCancelled : Bool) :
    ((s.timers ++ [Timer.start id now period isCancelled])[timer]?).bind Timer.tick? =
      s.tickOf timer := by
  rw [tickOf, List.getElem?_append]
  split
  · rfl
  · rename_i h
    rw [List.getElem?_eq_none (Nat.le_of_not_lt h)]
    cases timer - s.timers.length <;> rfl

theorem schedule_still (s : Scheduler) (id : String) (period now : Nat) :
    Still s (s.schedule id period now).2 := by
  unfold schedule
  split
  · exact .refl s
  · exact .refl s
  · split
    · exact .refl s
    · exact ⟨⟨rfl,rfl,rfl,fun timer => tickOf_append_start s id period now timer _⟩,rfl,rfl⟩

theorem cancel_still (s : Scheduler) (id : String) : Still s (s.cancel id).2 := by
  unfold cancel
  split
  · exact .refl s
  · rename_i number _
    have h := onTimer_still (s.setTimer id none) number Timer.cancel fun _ _ => rfl
    exact ⟨⟨rfl,rfl,rfl,h.ticks⟩,rfl,rfl⟩

theorem applySettings_still (s : Scheduler) (settings : Config.JobsSettings) (now : Nat) :
    Still s (s.applySettings settings now) := by
  obtain ⟨⟨hruns, hrunning, hlast, hticks⟩, hstage, hmanual⟩ :=
    visits_keep Still Still.refl Still.trans schedule_still cancel_still settings now s.jobs s
  exact ⟨⟨hruns,hrunning,hlast,hticks⟩,hstage,hmanual⟩

theorem reconfigure_still (s : Scheduler) (change : Config.Change Config.JobsSettings) (now : Nat) :
    Still s (s.reconfigure change now) := by
  unfold reconfigure
  split
  · exact applySettings_still s _ now
  · exact .refl s

theorem register_still (s : Scheduler) (job : Job) : Still s (s.register job) := by
  unfold register
  split <;> exact ⟨⟨rfl,rfl,rfl,fun _ => rfl⟩,rfl,rfl⟩

theorem call_still (s : Scheduler) (id : String) : Still s (s.call id).2 := by
  unfold call
  dsimp only
  split <;> exact ⟨⟨rfl,rfl,rfl,fun _ => rfl⟩,rfl,rfl⟩

theorem shutdown_still (s : Scheduler) : Still s s.shutdown := by
  refine ⟨⟨rfl,rfl,rfl,fun timer => ?_⟩, rfl, rfl⟩
  simp only [tickOf, shutdown, List.getElem?_map, Option.bind_map]
  rfl

theorem stopTimer_still (s s' : Scheduler) (timer : Nat) (h : s.stopTimer? timer = some s') :
    Still s s' := by
  obtain ⟨t, ht, hidle, -, rfl⟩ := stopTimer_eq_some s s' timer h
  apply onTimer_still
  intro u hu
  rw [ht] at hu
  cases hu
  simp [Timer.tick?, Timer.run?, Timer.stop, hidle]

/-! ## From one stage to the next -/

/-- The scheduler itself goes on: it is started or let go, it enters its loop, or it closes. -/
inductive Staged (s : Scheduler) (now : Nat) (s' : Scheduler) : Prop
  | started (hidle : s.stage = .idle) (h : s' = s.start)
  | dropped (hidle : s.stage = .idle) (h : s' = s.drop)
  | entered (h : s.enter? now = some s')
  | closing (h : s.beginClosing? = some s')
  | next (h : s.closeNext? now = some s')

theorem enter_eq_some (s s' : Scheduler) (now : Nat) (h : s.enter? now = some s') :
    s.stage = .starting ∧ s' = { s.applySettings s.settings now with stage := .serving } := by
  unfold enter? at h
  split at h
  · rename_i hstage
    exact ⟨hstage,(Option.some.inj h).symm⟩
  · cases h

theorem beginClosing_eq_some (s s' : Scheduler) (h : s.beginClosing? = some s') :
    s.stage = .serving ∧ s.isCancelled = true ∧ s' = s.beginClosing := by
  unfold beginClosing? at h
  split at h
  · rename_i hc
    simp only [Bool.and_eq_true, decide_eq_true_eq] at hc
    exact ⟨hc.1,hc.2,(Option.some.inj h).symm⟩
  · cases h

/-- A closing scheduler is over when there is nothing left to wait for. Else it is done with the
first handle, whose time may be up, or sets the time for it. -/
theorem closeNext_cases (s s' : Scheduler) (now : Nat) (h : s.closeNext? now = some s') :
    (∃ deadline, s.stage = .closing [] deadline) ∧ s' = s.close ∨
      ∃ handle rest deadline, s.stage = .closing (handle :: rest) deadline ∧
        ((s.isDone handle = true ∨ ∃ due, deadline = some due ∧ due ≤ now) ∧
            s' = { s with stage := .closing rest none } ∨
          s' = { s with stage := .closing (handle :: rest) (some (now + graceMillis)) }) := by
  unfold closeNext? at h
  split at h
  · rename_i deadline hstage
    exact Or.inl ⟨⟨deadline,hstage⟩,(Option.some.inj h).symm⟩
  · rename_i handle rest deadline hstage
    refine Or.inr ⟨handle, rest, deadline, hstage, ?_⟩
    split at h
    · rename_i hdone
      exact Or.inl ⟨Or.inl hdone,(Option.some.inj h).symm⟩
    · split at h
      · exact Or.inr (Option.some.inj h).symm
      · rename_i due
        split at h
        · rename_i hdue
          exact Or.inl ⟨Or.inr ⟨due,rfl,hdue⟩,(Option.some.inj h).symm⟩
        · cases h
  · cases h

theorem tickOf_beginClosing (s : Scheduler) (timer : Nat) :
    s.beginClosing.tickOf timer = s.tickOf timer := by
  rw [tickOf, timers_beginClosing, Option.bind_map, tickOf]
  congr 1
  funext t
  rw [Function.comp_apply]
  split <;> rfl

theorem staged_quiet (s s' : Scheduler) (now : Nat) (h : Staged s now s') : Quiet s s' := by
  cases h with
  | started hidle h => rw [h]; exact ⟨rfl,rfl,rfl,fun _ => rfl⟩
  | dropped hidle h => rw [h]; exact ⟨rfl,rfl,rfl,fun _ => rfl⟩
  | entered h =>
    rw [(enter_eq_some s s' now h).2]
    have hs := applySettings_still s s.settings now
    exact ⟨hs.runs,hs.running,hs.lastRuns,hs.ticks⟩
  | closing h =>
    rw [(beginClosing_eq_some s s' h).2.2]
    exact ⟨rfl,rfl,rfl,tickOf_beginClosing s⟩
  | next h =>
    rcases closeNext_cases s s' now h with ⟨-, rfl⟩ | ⟨_, _, _, -, ⟨-, rfl⟩ | rfl⟩
    · exact ⟨rfl,rfl,rfl,fun _ => rfl⟩
    · exact ⟨rfl,rfl,rfl,fun _ => rfl⟩
    · exact ⟨rfl,rfl,rfl,fun _ => rfl⟩

/-! ## The ways for a move to go -/

/-- A tick begins, of a job that has none in progress. -/
structure Begins (s s' : Scheduler) (id : String) (trigger : Trigger) (now : Nat) : Prop where
  free : id ∉ s.board.running
  runs : s'.runs = s.runs ++ [⟨id, trigger, now, none, false⟩]
  running : s'.board.running = s.board.running ++ [id]
  lastRuns : s'.board.lastRuns = s.board.lastRuns
  stage : s'.stage = s.stage

/-- A tick whose work is over is recorded, and its job released. -/
structure Finishes (s s' : Scheduler) (number : Nat) (r : Run) (ending : Ending) (now : Nat) :
    Prop where
  run : s.runs[number]? = some r
  ended : r.ending = some ending
  runs : s'.runs = s.runs.modify number fun r => { r with isRecorded := true }
  board : s'.board = s.board.finishRun r.job (Run.infoAt r ending now)
  stage : s'.stage = s.stage
  manual : s'.manual = s.manual

/-- The ways for a move to go, with the ticks that it records. -/
inductive Change (s : Scheduler) (now : Nat) : List Finish → Scheduler → Prop
  | still (s' : Scheduler) (h : Still s s') : Change s now [] s'
  | staged (s' : Scheduler) (h : Staged s now s') : Change s now [] s'
  | fired (s' : Scheduler) (timer : Nat) (id : String) (h : Begins s s' id .timer now)
      (hmanual : s'.manual = s.manual) (hidle : s.tickOf timer = none)
      (hticks : ∀ k, s'.tickOf k =
        if k = timer then some (id, s.runs.length) else s.tickOf k) : Change s now [] s'
  | triggered (s' : Scheduler) (id : String) (h : Begins s s' id .manual now)
      (hserving : s.stage = .serving) (hmanual : s'.manual = s.manual ++ [s.runs.length])
      (hticks : ∀ k, s'.tickOf k = s.tickOf k) : Change s now [] s'
  | worked (number : Nat) (ending : Ending) : Change s now [] (s.endRun number ending)
  | ticked (s' : Scheduler) (timer number : Nat) (id : String) (r : Run) (ending : Ending)
      (h : Finishes s s' number r ending now) (howner : s.tickOf timer = some (id, number))
      (hticks : ∀ k, s'.tickOf k = if k = timer then none else s.tickOf k) :
      Change s now [⟨number, r.job, Run.infoAt r ending now⟩] s'
  | finished (s' : Scheduler) (number : Nat) (r : Run) (ending : Ending)
      (h : Finishes s s' number r ending now) (hopen : r.isRecorded = false)
      (hmanual : r.trigger = .manual) (hticks : ∀ k, s'.tickOf k = s.tickOf k) :
      Change s now [⟨number, r.job, Run.infoAt r ending now⟩] s'

theorem beginRun_none (s : Scheduler) (id : String) (trigger : Trigger) (now : Nat) :
    s.beginRun id trigger now = none ↔ id ∈ s.board.running := by
  rw [beginRun, Option.map_eq_none_iff, Board.beginRun_eq_none_iff]

theorem beginRun_begins (s s' : Scheduler) (id : String) (trigger : Trigger) (now : Nat)
    (h : s.beginRun id trigger now = some s') :
    Begins s s' id trigger now ∧ s'.timers = s.timers ∧ s'.manual = s.manual := by
  obtain ⟨board, hb, rfl⟩ := Option.map_eq_some_iff.mp h
  unfold Board.beginRun at hb
  split at hb
  · cases hb
  · rename_i hfree
    cases hb
    refine ⟨⟨?_,rfl,rfl,rfl,rfl⟩, rfl, rfl⟩
    intro hid
    exact hfree (List.contains_iff_mem.mpr hid)

theorem fireTimer_change (s s' : Scheduler) (timer now : Nat)
    (h : s.fireTimer? timer now = some s') : Change s now [] s' := by
  obtain ⟨t, ht, hidle, -, rfl | ⟨began, hb, rfl⟩⟩ := fireTimer_eq_some s s' timer now h
  · exact .still _ (onTimer_still s timer _ fun _ _ => rfl)
  · obtain ⟨⟨hfree, hruns, hrunning, hlast, hstage⟩, htimers, hmanual⟩ :=
      beginRun_begins s began t.job .timer now hb
    refine .fired _ timer t.job ⟨hfree,hruns,hrunning,hlast,hstage⟩ hmanual ?_ ?_
    · rw [tickOf, ht]
      simp [Timer.tick?, Timer.run?, hidle]
    · intro k
      rw [tickOf_onTimer]
      split
      · rename_i hk
        rw [htimers, hk, ht]
        rfl
      · rw [tickOf, htimers, tickOf]

theorem record_finishes (s : Scheduler) (number : Nat) (r : Run) (ending : Ending) (now : Nat)
    (hr : s.runs[number]? = some r) (he : r.ending = some ending) :
    Finishes s (s.record number ending now).1 number r ending now ∧
      (s.record number ending now).1.timers = s.timers := by
  unfold record
  rw [hr]
  exact ⟨⟨hr,he,rfl,rfl,rfl,rfl⟩,rfl⟩

theorem finishTick_change (s s' : Scheduler) (timer now : Nat)
    (h : (s.finishTick? timer now).map Prod.fst = some s') :
    ∃ number id r ending, s.tickOf timer = some (id, number) ∧ s.runs[number]? = some r ∧
      r.ending = some ending ∧ Change s now [⟨number, r.job, Run.infoAt r ending now⟩] s' := by
  obtain ⟨result, hresult, rfl⟩ := Option.map_eq_some_iff.mp h
  obtain ⟨t, number, r, ending, ht, hticking, hr, he, heq⟩ :=
    finishTick_eq_some s timer now result hresult
  obtain ⟨hf, htimers⟩ := record_finishes s number r ending now hr he
  have howner : s.tickOf timer = some (t.job, number) := by
    rw [tickOf, ht]
    simp [Timer.tick?, Timer.run?, hticking]
  refine ⟨number, t.job, r, ending, howner, hr, he, ?_⟩
  rw [heq]
  refine .ticked _ timer number t.job r ending ⟨hr,he,hf.runs,hf.board,hf.stage,hf.manual⟩ howner ?_
  intro k
  rw [tickOf_onTimer]
  split
  · rw [htimers]
    cases s.timers[k]? <;> rfl
  · rw [tickOf, htimers, tickOf]

theorem finishRun_change (s s' : Scheduler) (number now : Nat)
    (hmanual : (s.runs[number]?).any (fun r => r.trigger = .manual) = true)
    (h : (s.advanceRun number now).map Prod.fst = some s') :
    ∃ r ending, s.runs[number]? = some r ∧ r.ending = some ending ∧
      Change s now [⟨number, r.job, Run.infoAt r ending now⟩] s' := by
  obtain ⟨result, hresult, rfl⟩ := Option.map_eq_some_iff.mp h
  obtain ⟨r, ending, hr, he, hopen, heq⟩ := advanceRun_eq_some s number now result hresult
  obtain ⟨hf, htimers⟩ := record_finishes s number r ending now hr he
  rw [hr] at hmanual
  have hmanual : r.trigger = .manual := of_decide_eq_true hmanual
  rw [heq]
  refine ⟨r, ending, hr, he, .finished _ number r ending hf hopen hmanual ?_⟩
  intro k
  rw [tickOf, htimers, tickOf]

theorem trigger_cases (s : Scheduler) (id : String) (now : Nat) :
    (s.trigger id now).2 = s ∨ ∃ began, s.beginRun id .manual now = some began ∧
      (s.trigger id now).2 = { began with manual := s.manual ++ [s.runs.length] } := by
  unfold trigger
  split
  · exact Or.inl rfl
  · cases s.beginRun id .manual now with
    | none => exact Or.inl rfl
    | some began => exact Or.inr ⟨began,rfl,rfl⟩

/-- A call that is handled has the effect of its trigger; the answer is noted besides. -/
theorem handleCall_eq_some (s s' : Scheduler) (now : Nat) (h : s.handleCall? now = some s') :
    s.stage = .serving ∧ ∃ number id rest, s.commands = (number, id) :: rest ∧
      s' = { (s.trigger id now).2 with commands := rest }.answer number (s.trigger id now).1 := by
  unfold handleCall? at h
  split at h
  · rename_i number id rest hstage hcommands
    exact ⟨hstage,number,id,rest,hcommands,(Option.some.inj h).symm⟩
  · cases h

theorem handleCall_change (s s' : Scheduler) (now : Nat) (h : s.handleCall? now = some s') :
    Change s now [] s' := by
  obtain ⟨hserving, number, id, rest, -, rfl⟩ := handleCall_eq_some s s' now h
  rcases trigger_cases s id now with heq | ⟨began, hb, heq⟩
  · rw [heq]
    exact .still _ ⟨⟨rfl,rfl,rfl,fun _ => rfl⟩,rfl,rfl⟩
  · rw [heq]
    obtain ⟨⟨hfree, hruns, hrunning, hlast, hstage⟩, htimers, -⟩ :=
      beginRun_begins s began id .manual now hb
    refine .triggered _ id ⟨hfree,hruns,hrunning,hlast,hstage⟩ hserving rfl ?_
    intro k
    change (began.timers[k]?).bind Timer.tick? = _
    rw [htimers]
    rfl

theorem ordered_eq_some (s next s' : Scheduler) (h : s.ordered next = some s') : next = s' := by
  unfold ordered at h
  split at h
  · exact Option.some.inj h
  · cases h

theorem endRun_change (s s' : Scheduler) (now number : Nat) (ending : Ending)
    (h : (if (s.endingOf number).isNone then some (s.endRun number ending) else none) = some s') :
    Change s now [] s' := by
  split at h
  · cases h
    exact .worked number ending
  · cases h

end Scheduler

namespace Moment

open Scheduler

/-- What a move that can be made does, when it is not one that records a tick. -/
theorem finish_of_finishing_eq_none (m : Moment) (move : Move)
    (h : move.finishing? m.scheduler = none) : m.finish? move = none := by
  rw [finish?, h]
  cases m.scheduler.step? m.now move <;> rfl

theorem finish_of_step (m : Moment) (move : Move) (s' : Scheduler) (number : Nat) (r : Run)
    (ending : Ending) (h : m.scheduler.step? m.now move = some s')
    (hn : move.finishing? m.scheduler = some number) (hr : m.scheduler.runs[number]? = some r)
    (he : r.ending = some ending) :
    m.finish? move = some ⟨number, r.job, Run.infoAt r ending m.now⟩ := by
  simp [finish?, h, hn, hr, he]

theorem step_change (m : Moment) (move : Move) (s' : Scheduler)
    (h : m.scheduler.step? m.now move = some s') :
    Change m.scheduler m.now (m.finish? move).toList s' := by
  have hstill : move.finishing? m.scheduler = none → Still m.scheduler s' →
      Change m.scheduler m.now (m.finish? move).toList s' := by
    intro hnone hs
    rw [finish_of_finishing_eq_none m move hnone]
    exact .still s' hs
  have hstaged : move.finishing? m.scheduler = none → Staged m.scheduler m.now s' →
      Change m.scheduler m.now (m.finish? move).toList s' := by
    intro hnone hs
    rw [finish_of_finishing_eq_none m move hnone]
    exact .staged s' hs
  cases move with
  | pass millis =>
    cases h
    exact hstill rfl (.refl _)
  | register job =>
    cases ordered_eq_some _ _ _ h
    exact hstill rfl (register_still _ job)
  | schedule id period =>
    cases ordered_eq_some _ _ _ h
    exact hstill rfl (schedule_still _ id period _)
  | cancel id =>
    cases ordered_eq_some _ _ _ h
    exact hstill rfl (cancel_still _ id)
  | apply settings =>
    cases ordered_eq_some _ _ _ h
    exact hstill rfl (applySettings_still _ settings _)
  | start =>
    simp only [step?] at h
    split at h
    · rename_i hidle
      exact hstaged rfl (.started hidle (Option.some.inj h).symm)
    · cases h
  | drop =>
    simp only [step?] at h
    split at h
    · rename_i hidle
      exact hstaged rfl (.dropped hidle (Option.some.inj h).symm)
    · cases h
  | call id =>
    cases h
    exact hstill rfl (call_still _ id)
  | shutdown =>
    cases h
    exact hstill rfl (shutdown_still _)
  | enter => exact hstaged rfl (.entered h)
  | reconfigure change =>
    simp only [step?] at h
    split at h
    · cases h
      exact hstill rfl (reconfigure_still _ change _)
    · cases h
  | beginClosing => exact hstaged rfl (.closing h)
  | handleCall =>
    rw [finish_of_finishing_eq_none m _ rfl]
    exact handleCall_change _ s' _ h
  | closeNext => exact hstaged rfl (.next h)
  | stopTimer timer => exact hstill rfl (stopTimer_still _ s' timer h)
  | fireTimer timer =>
    rw [finish_of_finishing_eq_none m _ rfl]
    exact fireTimer_change _ s' timer _ h
  | finishTick timer =>
    obtain ⟨number, id, r, ending, howner, hr, he, hchange⟩ := finishTick_change _ s' timer _ h
    have hn : Move.finishing? m.scheduler (.finishTick timer) = some number := by
      rw [Move.finishing?, howner]
      rfl
    rw [finish_of_step m _ s' number r ending h hn hr he]
    exact hchange
  | endRun number ending =>
    rw [finish_of_finishing_eq_none m _ rfl]
    exact endRun_change _ s' _ number ending h
  | finishRun number =>
    have hstep := h
    simp only [step?] at h
    split at h
    · rename_i hmanual
      obtain ⟨r, ending, hr, he, hchange⟩ := finishRun_change _ s' number _ hmanual h
      rw [finish_of_step m _ s' number r ending hstep rfl hr he]
      exact hchange
    · cases h

/-- Every move goes one of these ways. -/
theorem play_change (m : Moment) (move : Move) :
    Change m.scheduler m.now (m.finish? move).toList (m.play move).scheduler := by
  cases h : m.scheduler.step? m.now move with
  | none =>
    have hnone : m.finish? move = none := by
      rw [finish?, h]
      rfl
    simp only [play, h, hnone]
    exact .still _ (.refl _)
  | some s' =>
    simp only [play, h]
    exact step_change m move s' h

end Moment
end VmFleet.Jobs
