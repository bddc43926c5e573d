import VmFleet.Proofs.Jobs.Moves

/-!
# The beats of one timer

Whatever a scheduler goes through, little can happen to one timer of it: time passes, the timer is
cancelled, it stops, it starts a tick, or its tick is over. A view of the timer keeps these beats
apart, together with the times of all its ticks so far, so that what holds of them can be proved
without another look at the scheduler.
-/

set_option autoImplicit false

namespace VmFleet.Jobs

/-- When a tick started, and when it was over, if it is. -/
structure TickSpan where
  start : Nat
  stop : Option Nat
  deriving DecidableEq, Repr

/-- The latest of these ticks, which come latest first, is over. -/
def closeLatest (now : Nat) : List TickSpan → List TickSpan
  | [] => []
  | tick :: rest => { tick with stop := some now } :: rest

/-- The timer that takes a step. -/
def Move.timer? : Move → Option Nat
  | .stopTimer timer => some timer
  | .fireTimer timer => some timer
  | .finishTick timer => some timer
  | _ => none

/-- How long an idle timer may wait: until its time has come, and not at all once it is cancelled. -/
def Timer.patience (t : Timer) : Nat := if t.isCancelled then 0 else t.due

theorem Timer.patience_le (t : Timer) : t.patience ≤ t.due := by
  unfold patience
  split <;> omega

namespace Moment

/-- The ticks of a timer, latest first, after a move. A tick that finds its job in progress is over
at once. -/
def log (timer : Nat) (m : Moment) (spans : List TickSpan) : Move → List TickSpan
  | .fireTimer k =>
    match if k = timer then m.scheduler.fireTimer? timer m.now else none with
    | none => spans
    | some s => ⟨m.now, if (s.tickOf timer).isSome then none else some m.now⟩ :: spans
  | .finishTick k =>
    match if k = timer then m.scheduler.finishTick? timer m.now else none with
    | none => spans
    | some _ => closeLatest m.now spans
  | _ => spans

def spans (timer : Nat) (m : Moment) (spansBefore : List TickSpan) : List Move → List TickSpan
  | [] => spansBefore
  | move :: moves => (m.play move).spans timer (m.log timer spansBefore move) moves

/-- The ticks that a timer starts while these moves are made, in order. -/
def ticks (timer : Nat) (m : Moment) (moves : List Move) : List TickSpan :=
  (m.spans timer [] moves).reverse

/-- The move lets no time pass beyond that at which the timer can go on. -/
def heeds (timer : Nat) (m : Moment) (move : Move) : Bool :=
  (m.scheduler.timers[timer]?).all fun t =>
    decide (t.phase = .idle → (m.play move).now ≤ max m.now t.patience)

/-- The timer goes on as soon as it can while these moves are made. -/
def isPrompt (timer : Nat) (m : Moment) : List Move → Bool
  | [] => true
  | move :: moves => m.heeds timer move && (m.play move).isPrompt timer moves

theorem spans_append (timer : Nat) (m : Moment) (spansBefore : List TickSpan)
    (moves rest : List Move) :
    m.spans timer spansBefore (moves ++ rest) =
      (m.after moves).spans timer (m.spans timer spansBefore moves) rest := by
  induction moves generalizing m spansBefore with
  | nil => rfl
  | cons move moves ih => exact ih (m.play move) (m.log timer spansBefore move)

end Moment

/-! ## Timers that are left alone -/

namespace Scheduler

/-- The timer of this number stays as it is, or is cancelled. -/
def Spares (timer : Nat) (s s' : Scheduler) : Prop :=
  ∀ t, s.timers[timer]? = some t → s'.timers[timer]? = some t ∨ s'.timers[timer]? = some t.cancel

variable {timer : Nat} {s s' : Scheduler}

theorem spares_of_timers (h : s'.timers = s.timers) : Spares timer s s' :=
  fun t ht => Or.inl (by rw [h, ht])

theorem Spares.trans {next : Scheduler} (h : Spares timer s s') (k : Spares timer s' next) :
    Spares timer s next := by
  intro t ht
  rcases h t ht with ht | ht
  · exact k t ht
  · exact Or.inr ((k t.cancel ht).elim id id)

theorem onTimer_of_ne {k : Nat} (f : Timer → Timer) (h : k ≠ timer) :
    (s.onTimer k f).timers[timer]? = s.timers[timer]? := List.getElem?_modify_ne f s.timers h

theorem onTimer_self {t : Timer} (f : Timer → Timer) (h : s.timers[timer]? = some t) :
    (s.onTimer timer f).timers[timer]? = some (f t) := by
  rw [onTimer, List.getElem?_modify_eq, h]
  rfl

theorem schedule_spares (s : Scheduler) (id : String) (period now : Nat) :
    Spares timer s (s.schedule id period now).2 := by
  unfold schedule
  split
  · exact spares_of_timers rfl
  · exact spares_of_timers rfl
  · split
    · exact spares_of_timers rfl
    · intro t ht
      exact Or.inl ((List.getElem?_append_left (List.getElem?_eq_some_iff.mp ht).1).trans ht)

theorem cancel_spares (s : Scheduler) (id : String) : Spares timer s (s.cancel id).2 := by
  unfold cancel
  split
  · exact spares_of_timers rfl
  · rename_i number _
    intro t ht
    have hs : (s.setTimer id none).timers[timer]? = some t := ht
    by_cases hk : number = timer
    · subst hk
      exact Or.inr (onTimer_self Timer.cancel hs)
    · exact Or.inl ((onTimer_of_ne Timer.cancel hk).trans hs)

theorem applySettings_spares (s : Scheduler) (settings : Config.JobsSettings) (now : Nat) :
    Spares timer s (s.applySettings settings now) :=
  visits_keep (Spares timer) (fun _ => spares_of_timers rfl) Spares.trans schedule_spares cancel_spares settings
    now s.jobs s

theorem reconfigure_spares (s : Scheduler) (change : Config.Change Config.JobsSettings)
    (now : Nat) : Spares timer s (s.reconfigure change now) := by
  unfold reconfigure
  split
  · exact applySettings_spares s _ now
  · exact spares_of_timers rfl

theorem shutdown_spares (s : Scheduler) : Spares timer s s.shutdown := by
  intro t ht
  exact Or.inr (by rw [shutdown, List.getElem?_map, ht]; rfl)

theorem beginClosing_spares (s : Scheduler) : Spares timer s s.beginClosing := by
  intro t ht
  rw [timers_beginClosing, ht, Option.map_some]
  split
  · exact Or.inr rfl
  · exact Or.inl rfl

theorem handleCall_spares (now : Nat) (h : s.handleCall? now = some s') : Spares timer s s' := by
  obtain ⟨-, number, id, rest, -, rfl⟩ := handleCall_eq_some s s' now h
  refine spares_of_timers ?_
  change (s.trigger id now).2.timers = s.timers
  rcases trigger_cases s id now with heq | ⟨began, hb, heq⟩
  · rw [heq]
  · rw [heq]
    exact (beginRun_begins s began id .manual now hb).2.1

/-- A timer takes no step but its own; others may cancel it. -/
theorem step_spares {now : Nat} (move : Move) (hne : move.timer? ≠ some timer)
    (h : s.step? now move = some s') : Spares timer s s' := by
  have hself : ∀ t, s.timers[timer]? = some t → s.timers[timer]? = some t ∨
      s.timers[timer]? = some t.cancel := fun t ht => Or.inl ht
  cases move with
  | pass millis =>
    cases h
    exact hself
  | register job =>
    cases ordered_eq_some _ _ _ h
    unfold register
    split <;> exact hself
  | schedule id period =>
    cases ordered_eq_some _ _ _ h
    exact schedule_spares s id period now
  | cancel id =>
    cases ordered_eq_some _ _ _ h
    exact cancel_spares s id
  | apply settings =>
    cases ordered_eq_some _ _ _ h
    exact applySettings_spares s settings now
  | start =>
    simp only [step?] at h
    split at h
    · cases h
      exact hself
    · cases h
  | drop =>
    simp only [step?] at h
    split at h
    · cases h
      exact hself
    · cases h
  | call id =>
    cases h
    unfold call
    dsimp only
    split <;> exact hself
  | shutdown =>
    cases h
    exact shutdown_spares s
  | enter =>
    rw [(enter_eq_some s s' now h).2]
    exact applySettings_spares s s.settings now
  | reconfigure change =>
    simp only [step?] at h
    split at h
    · cases h
      exact reconfigure_spares s change now
    · cases h
  | beginClosing =>
    rw [(beginClosing_eq_some s s' h).2.2]
    exact beginClosing_spares s
  | handleCall => exact handleCall_spares now h
  | closeNext =>
    rcases closeNext_cases s s' now h with ⟨-, rfl⟩ | ⟨_, _, _, -, ⟨-, rfl⟩ | rfl⟩ <;> exact hself
  | stopTimer k =>
    have hk : k ≠ timer := fun hk => hne (congrArg some hk)
    obtain ⟨-, -, -, -, rfl⟩ := stopTimer_eq_some s s' k h
    exact fun t ht => Or.inl ((onTimer_of_ne _ hk).trans ht)
  | fireTimer k =>
    have hk : k ≠ timer := fun hk => hne (congrArg some hk)
    obtain ⟨u, -, -, -, rfl | ⟨began, hb, rfl⟩⟩ := fireTimer_eq_some s s' k now h
    · exact fun t ht => Or.inl ((onTimer_of_ne _ hk).trans ht)
    · have htimers := (beginRun_begins s began u.job .timer now hb).2.1
      exact fun t ht => Or.inl ((onTimer_of_ne _ hk).trans (by rw [htimers, ht]))
  | finishTick k =>
    have hk : k ≠ timer := fun hk => hne (congrArg some hk)
    obtain ⟨result, hresult, rfl⟩ := Option.map_eq_some_iff.mp h
    obtain ⟨-, number, r, ending, -, -, hr, he, heq⟩ := finishTick_eq_some s k now result hresult
    have htimers := (record_finishes s number r ending now hr he).2
    rw [heq]
    exact fun t ht => Or.inl ((onTimer_of_ne _ hk).trans (by rw [htimers, ht]))
  | endRun number ending =>
    simp only [step?] at h
    split at h
    · cases h
      exact hself
    · cases h
  | finishRun number =>
    simp only [step?] at h
    split at h
    · obtain ⟨result, hresult, rfl⟩ := Option.map_eq_some_iff.mp h
      obtain ⟨r, ending, hr, he, -, heq⟩ := advanceRun_eq_some s number now result hresult
      rw [heq]
      exact spares_of_timers (record_finishes s number r ending now hr he).2
    · cases h

end Scheduler

/-! ## Views and beats -/

/-- A timer at some time, with its ticks so far, latest first. -/
structure View where
  now : Nat
  timer : Timer
  spans : List TickSpan

/-- What can happen to a timer. -/
inductive Beat (v : View) : View → Prop
  | passed (millis : Nat) : Beat v ⟨v.now + millis, v.timer, v.spans⟩
  | cancelled : Beat v ⟨v.now, v.timer.cancel, v.spans⟩
  | stopped (hidle : v.timer.phase = .idle) (hcancelled : v.timer.isCancelled = true) :
      Beat v ⟨v.now, v.timer.stop, v.spans⟩
  | skipped (hidle : v.timer.phase = .idle) (hdue : v.timer.due ≤ v.now) :
      Beat v ⟨v.now, v.timer.skip v.now, ⟨v.now, some v.now⟩ :: v.spans⟩
  | fired (run : Nat) (hidle : v.timer.phase = .idle) (hdue : v.timer.due ≤ v.now) :
      Beat v ⟨v.now, v.timer.fire v.now run, ⟨v.now, none⟩ :: v.spans⟩
  | rested (run : Nat) (hticking : v.timer.phase = .ticking run) :
      Beat v ⟨v.now, v.timer.rest, closeLatest v.now v.spans⟩

namespace Moment

open Scheduler

variable {timer : Nat} {t : Timer}

theorem log_of_timer_ne (m : Moment) (spans : List TickSpan) (move : Move)
    (h : move.timer? ≠ some timer) : m.log timer spans move = spans := by
  cases move with
  | fireTimer k => simp [log, show k ≠ timer from fun hk => h (congrArg some hk)]
  | finishTick k => simp [log, show k ≠ timer from fun hk => h (congrArg some hk)]
  | _ => rfl

theorem log_of_step_eq_none (m : Moment) (spans : List TickSpan) (move : Move)
    (h : m.scheduler.step? m.now move = none) : m.log timer spans move = spans := by
  cases move with
  | fireTimer k =>
    rw [step?] at h
    by_cases hk : k = timer
    · subst hk
      simp [log, h]
    · simp [log, hk]
  | finishTick k =>
    rw [step?, Option.map_eq_none_iff] at h
    by_cases hk : k = timer
    · subst hk
      simp [log, h]
    · simp [log, hk]
  | _ => rfl

theorem now_of_step_eq_none (m : Moment) (move : Move)
    (h : m.scheduler.step? m.now move = none) : (m.play move).now = m.now := by
  cases move with
  | pass millis => cases h
  | _ => rfl

theorem now_of_timer (m : Moment) (move : Move) (h : move.timer? = some timer) :
    (m.play move).now = m.now := by
  cases move with
  | pass millis => cases h
  | _ => rfl

/-- A move of others is no beat of the timer but that time passes, or that it is cancelled. -/
theorem play_beat_of_ne (m : Moment) (spans : List TickSpan) (move : Move) (s' : Scheduler)
    (ht : m.scheduler.timers[timer]? = some t) (hne : move.timer? ≠ some timer)
    (h : m.scheduler.step? m.now move = some s') :
    ∃ t', s'.timers[timer]? = some t' ∧
      Beat ⟨m.now, t, spans⟩ ⟨(m.play move).now, t', spans⟩ := by
  rcases step_spares move hne h t ht with hs | hs
  · refine ⟨t, hs, ?_⟩
    cases move with
    | pass millis => exact .passed millis
    | _ => exact .passed 0
  · refine ⟨t.cancel, hs, ?_⟩
    cases move with
    | pass millis =>
      cases h
      -- time alone cancels no timer
      have hsame : t = t.cancel := Option.some.inj (ht.symm.trans hs)
      rw [← hsame]
      exact .passed millis
    | _ => exact .cancelled

theorem play_beat_own (m : Moment) (spans : List TickSpan) (move : Move) (s' : Scheduler)
    (ht : m.scheduler.timers[timer]? = some t) (hown : move.timer? = some timer)
    (h : m.scheduler.step? m.now move = some s') :
    ∃ t', s'.timers[timer]? = some t' ∧
      Beat ⟨m.now, t, spans⟩ ⟨m.now, t', m.log timer spans move⟩ := by
  cases move with
  | stopTimer k =>
    cases hown
    obtain ⟨u, hu, hidle, hcancelled, rfl⟩ := stopTimer_eq_some _ s' timer h
    cases ht.symm.trans hu
    exact ⟨t.stop,onTimer_self _ ht,.stopped hidle hcancelled⟩
  | fireTimer k =>
    cases hown
    have hfire : m.scheduler.fireTimer? timer m.now = some s' := h
    obtain ⟨u, hu, hidle, hdue, rfl | ⟨began, hb, rfl⟩⟩ := fireTimer_eq_some _ s' timer m.now h
    all_goals cases ht.symm.trans hu
    · have hself := onTimer_self (s := m.scheduler) (fun t => t.skip m.now) ht
      refine ⟨t.skip m.now, hself, ?_⟩
      have hnone : (m.scheduler.onTimer timer fun t => t.skip m.now).tickOf timer = none := by
        rw [tickOf, hself]
        simp [Timer.tick?, Timer.run?, Timer.skip, hidle]
      simp only [log, if_true, hfire, hnone, Option.isSome_none, Bool.false_eq_true, if_false]
      exact .skipped hidle hdue
    · have htimers := (beginRun_begins _ began t.job .timer m.now hb).2.1
      have hself := onTimer_self (s := began) (fun t => t.fire m.now m.scheduler.runs.length)
        (htimers ▸ ht)
      refine ⟨t.fire m.now m.scheduler.runs.length, hself, ?_⟩
      have hsome : (began.onTimer timer fun t => t.fire m.now m.scheduler.runs.length).tickOf timer
          = some (t.job, m.scheduler.runs.length) := by
        rw [tickOf, hself]
        rfl
      simp only [log, if_true, hfire, hsome, Option.isSome_some]
      exact .fired m.scheduler.runs.length hidle hdue
  | finishTick k =>
    cases hown
    obtain ⟨result, hresult, rfl⟩ := Option.map_eq_some_iff.mp h
    obtain ⟨u, run, r, ending, hu, hticking, hr, he, heq⟩ :=
      finishTick_eq_some _ timer m.now result hresult
    cases ht.symm.trans hu
    have htimers := (record_finishes m.scheduler run r ending m.now hr he).2
    refine ⟨t.rest, ?_, ?_⟩
    · rw [heq]
      exact onTimer_self _ (htimers ▸ ht)
    · simp only [log, if_true, hresult]
      exact .rested run hticking
  | _ => cases hown

/-- Whatever move is made, it comes to one beat of the timer. -/
theorem play_beat (m : Moment) (spans : List TickSpan) (move : Move)
    (ht : m.scheduler.timers[timer]? = some t) :
    ∃ t', (m.play move).scheduler.timers[timer]? = some t' ∧
      Beat ⟨m.now, t, spans⟩ ⟨(m.play move).now, t', m.log timer spans move⟩ := by
  cases h : m.scheduler.step? m.now move with
  | none =>
    have hsame : (m.play move).scheduler = m.scheduler := by simp only [play, h, Option.getD_none]
    rw [hsame, now_of_step_eq_none m move h, log_of_step_eq_none m spans move h]
    exact ⟨t,ht,.passed 0⟩
  | some s' =>
    have hnext : (m.play move).scheduler = s' := by simp only [play, h, Option.getD_some]
    rw [hnext]
    by_cases hown : move.timer? = some timer
    · rw [now_of_timer m move hown]
      exact play_beat_own m spans move s' ht hown h
    · rw [log_of_timer_ne m spans move hown]
      exact play_beat_of_ne m spans move s' ht hown h

/-- What every beat of a timer keeps holds of it at all times. -/
theorem after_view (Holds : View → Prop) (hbeat : ∀ v v', Beat v v' → Holds v → Holds v')
    (m : Moment) (spans : List TickSpan) (moves : List Move)
    (ht : m.scheduler.timers[timer]? = some t) (h : Holds ⟨m.now, t, spans⟩) :
    ∃ t', (m.after moves).scheduler.timers[timer]? = some t' ∧
      Holds ⟨(m.after moves).now, t', m.spans timer spans moves⟩ := by
  induction moves generalizing m t spans with
  | nil => exact ⟨t,ht,h⟩
  | cons move moves ih =>
    obtain ⟨next, hnext, hone⟩ := play_beat m spans move ht
    exact ih (m.play move) _ hnext (hbeat _ _ hone h)

/-- The beats of a timer that goes on as soon as it can. -/
theorem after_prompt_view (Holds : View → Prop)
    (hbeat : ∀ v v', Beat v v' →
      (v.timer.phase = .idle → v'.now ≤ max v.now v.timer.patience) → Holds v → Holds v')
    (m : Moment) (spans : List TickSpan) (moves : List Move)
    (ht : m.scheduler.timers[timer]? = some t) (hprompt : m.isPrompt timer moves = true)
    (h : Holds ⟨m.now, t, spans⟩) :
    ∃ t', (m.after moves).scheduler.timers[timer]? = some t' ∧
      Holds ⟨(m.after moves).now, t', m.spans timer spans moves⟩ := by
  induction moves generalizing m t spans with
  | nil => exact ⟨t,ht,h⟩
  | cons move moves ih =>
    obtain ⟨next, hnext, hone⟩ := play_beat m spans move ht
    rw [isPrompt, Bool.and_eq_true] at hprompt
    have hheeds := hprompt.1
    rw [heeds, ht, Option.all_some, decide_eq_true_eq] at hheeds
    exact ih (m.play move) _ hnext hprompt.2 (hbeat _ _ hone hheeds h)

end Moment
end VmFleet.Jobs
