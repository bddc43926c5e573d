import VmFleet.Proofs.Jobs.Turns
import VmFleet.Proofs.Metrics.Counting

/-!
# What is recorded of ticks

A move that records a tick comes with one event, which tells of the job, of the outcome and of the
time that it took; all other moves come without. So there are as many events about a job as ticks
of it were recorded, and the last of them tells how its last tick ended.
-/

set_option autoImplicit false

namespace VmFleet.Jobs

/-- What is counted of the last tick of a job. -/
def RunInfo.event (job : String) (info : RunInfo) : Metrics.Event :=
  .tick job info.outcome.name info.durationMillis

/-- All moves but one take no time. -/
def Move.isInstant : Move → Bool
  | .pass _ => false
  | _ => true

def Finish.event (f : Finish) : Metrics.Event := f.info.event f.job

namespace Scheduler

/-! ## Moves and their events -/

/-- The step that a move is, with the events that come with it. -/
def stepWith? (s : Scheduler) (now : Nat) : Move → Option (Scheduler × List Metrics.Event)
  | .finishTick timer => s.finishTick? timer now
  | .finishRun number =>
    if (s.runs[number]?).any fun r => r.trigger = .manual then s.advanceRun number now else none
  | move => (s.step? now move).map (·, [])

theorem stepWith_step (s : Scheduler) (now : Nat) (move : Move) :
    (s.stepWith? now move).map Prod.fst = s.step? now move := by
  cases move with
  | finishTick timer => rfl
  | finishRun number =>
    simp only [stepWith?, step?]
    split <;> rfl
  | _ => simp [stepWith?, Function.comp_def]

theorem record_events (s : Scheduler) (number : Nat) (r : Run) (ending : Ending) (now : Nat)
    (hr : s.runs[number]? = some r) :
    (s.record number ending now).2 = [Finish.event ⟨number, r.job, Run.infoAt r ending now⟩] := by
  unfold record
  rw [hr]
  rfl

variable {s s' : Scheduler} {now : Nat}

theorem finishTick_events {timer : Nat} {events : List Metrics.Event}
    (h : s.finishTick? timer now = some (s', events)) :
    ∃ id number ending, s.tickOf timer = some (id, number) ∧
      s.endingOf number = some ending ∧ events = (s.record number ending now).2 := by
  simp only [finishTick?, Option.bind_eq_bind, Option.bind_eq_some_iff] at h
  obtain ⟨t, ht, number, hrun, ending, hending, h⟩ := h
  cases h
  refine ⟨t.job, number, ending, ?_, hending, rfl⟩
  rw [tickOf, ht, Option.bind_some, Timer.tick?, hrun, Option.map_some]

theorem advanceRun_events {number : Nat} {events : List Metrics.Event}
    (h : s.advanceRun number now = some (s', events)) :
    ∃ ending, s.endingOf number = some ending ∧ events = (s.record number ending now).2 := by
  simp only [advanceRun, Option.bind_eq_bind, Option.bind_eq_some_iff] at h
  obtain ⟨ending, hending, h⟩ := h
  split at h
  · cases h
  · exact ⟨ending,hending,(congrArg Prod.snd (Option.some.inj h)).symm⟩

/-- A step comes with events exactly if it is to record a tick, which has then ended. -/
theorem stepWith_events {move : Move} {events : List Metrics.Event}
    (h : s.stepWith? now move = some (s', events)) :
    move.finishing? s = none ∧ events = [] ∨
      ∃ number ending, move.finishing? s = some number ∧ s.endingOf number = some ending ∧
        events = (s.record number ending now).2 := by
  cases move with
  | finishTick timer =>
    obtain ⟨id, number, ending, htick, hending, rfl⟩ := finishTick_events h
    exact Or.inr ⟨number,ending,by rw [Move.finishing?, htick]; rfl,hending,rfl⟩
  | finishRun number =>
    simp only [stepWith?] at h
    split at h
    · obtain ⟨ending, hending, rfl⟩ := advanceRun_events h
      exact Or.inr ⟨number,ending,rfl,hending,rfl⟩
    · cases h
  | _ =>
    simp only [stepWith?, Option.map_eq_some_iff] at h
    obtain ⟨_, -, heq⟩ := h
    exact Or.inl ⟨rfl,(congrArg Prod.snd heq).symm⟩

/-- A step, with its events, that takes no time. -/
def Makes (s : Scheduler) (now : Nat) (next : Scheduler × List Metrics.Event) : Prop :=
  ∃ move, s.stepWith? now move = some next ∧ move.isInstant = true

theorem makes_of_step (move : Move) (h : s.step? now move = some s')
    (hfinish : move.finishing? s = none) (hinstant : move.isInstant = true) :
    s.Makes now (s', []) := by
  rw [← stepWith_step] at h
  obtain ⟨⟨next, events⟩, hw, rfl⟩ := Option.map_eq_some_iff.mp h
  rcases stepWith_events hw with ⟨-, rfl⟩ | ⟨number, -, hn, -⟩
  · exact ⟨move,hw,hinstant⟩
  · rw [hfinish] at hn
    cases hn

theorem advanceTimer_makes {timer : Nat} {next : Scheduler × List Metrics.Event}
    (h : s.advanceTimer timer now = some next) : s.Makes now next := by
  simp only [advanceTimer, Option.or_eq_some_iff, Option.map_eq_some_iff] at h
  rcases h with ⟨s', h | ⟨-, h⟩, rfl⟩ | ⟨-, h⟩
  · exact makes_of_step (.fireTimer timer) h rfl rfl
  · exact makes_of_step (.stopTimer timer) h rfl rfl
  · exact ⟨.finishTick timer,h,rfl⟩

theorem advanceRun_makes {number : Nat} {r : Run} {next : Scheduler × List Metrics.Event}
    (hr : s.runs[number]? = some r) (hmanual : r.trigger = .manual)
    (h : s.advanceRun number now = some next) : s.Makes now next :=
  ⟨.finishRun number,by simp [stepWith?, hr, hmanual, h],rfl⟩

theorem advance_makes (h : s.advance now = some s') : s.Makes now (s', []) := by
  simp only [advance, Option.or_eq_some_iff] at h
  rcases h with h | ⟨-, h | ⟨-, h | ⟨-, h⟩⟩⟩
  · exact makes_of_step .enter h rfl rfl
  · exact makes_of_step .beginClosing h rfl rfl
  · exact makes_of_step .handleCall h rfl rfl
  · exact makes_of_step .closeNext h rfl rfl

/-! ## Ticks that were recorded -/

/-- Nothing is recorded of a tick before its work is over. -/
def Ended (s : Scheduler) : Prop :=
  ∀ (n : Nat) (r : Run), s.runs[n]? = some r → r.isRecorded = true → r.ending.isSome = true

theorem ended_begins {id : String} {trigger : Trigger} (hb : Begins s s' id trigger now)
    (h : s.Ended) : s'.Ended := by
  intro n r hr hrec
  rw [hb.runs, List.getElem?_append] at hr
  split at hr
  · exact h n r hr hrec
  · rw [List.getElem?_singleton] at hr
    split at hr
    · cases hr
      cases hrec
    · cases hr

theorem ended_modify {k : Nat} {f : Run → Run} (hruns : s'.runs = s.runs.modify k f)
    (hf : ∀ r, s.runs[k]? = some r → (f r).ending.isSome = true) (h : s.Ended) : s'.Ended := by
  intro n r hr hrec
  rw [hruns, List.getElem?_modify] at hr
  obtain ⟨q, hq, rfl⟩ := Option.map_eq_some_iff.mp hr
  by_cases hk : k = n
  · subst hk
    simpa using hf q hq
  · simp only [hk, if_false] at hrec ⊢
    exact h n q hq hrec

theorem ended_finishes {number : Nat} {r : Run} {ending : Ending}
    (hf : Finishes s s' number r ending now) (h : s.Ended) : s'.Ended := by
  apply ended_modify hf.runs _ h
  intro q hq
  cases Option.some.inj (hq.symm.trans hf.run)
  exact Option.isSome_of_eq_some hf.ended

theorem change_ended {fs : List Finish} (hc : Change s now fs s') (h : s.Ended) : s'.Ended := by
  cases hc with
  | still _ hs => rw [Ended, hs.runs]; exact h
  | staged _ hs => rw [Ended, (staged_quiet s s' now hs).runs]; exact h
  | fired _ timer id hb => exact ended_begins hb h
  | triggered _ id hb => exact ended_begins hb h
  | worked number ending => exact ended_modify rfl (fun _ _ => rfl) h
  | ticked _ timer number id r ending hf => exact ended_finishes hf h
  | finished _ number r ending hf => exact ended_finishes hf h

/-- How many ticks of the job have been recorded. -/
def recordedOf (s : Scheduler) (job : String) : Nat :=
  s.runs.countP fun r => r.job = job ∧ r.isRecorded = true

theorem recordedOf_begins {id : String} {trigger : Trigger} (hb : Begins s s' id trigger now)
    (job : String) : s'.recordedOf job = s.recordedOf job := by
  simp [recordedOf, hb.runs]

theorem recordedOf_worked (number : Nat) (ending : Ending) (job : String) :
    (s.endRun number ending).recordedOf job = s.recordedOf job := by
  unfold recordedOf endRun
  cases hr : s.runs[number]? with
  | none => rw [List.modify_eq_self (List.getElem?_eq_none_iff.mp hr)]
  | some r =>
    have hcount := Metrics.countP_modify (fun r => r.job = job ∧ r.isRecorded = true)
      (fun r => { r with ending := some ending }) s.runs number r hr
    exact Nat.add_right_cancel hcount

theorem recordedOf_finishes {number : Nat} {r : Run} {ending : Ending}
    (hf : Finishes s s' number r ending now) (hopen : r.isRecorded = false) (job : String) :
    s'.recordedOf job = s.recordedOf job + if r.job = job then 1 else 0 := by
  have hcount := Metrics.countP_modify (fun r => r.job = job ∧ r.isRecorded = true)
    (fun r => { r with isRecorded := true }) s.runs number r hf.run
  rw [recordedOf, hf.runs, recordedOf]
  simpa [hopen] using hcount

/-- A move adds to the ticks of a job that were recorded those that it records. -/
theorem change_recordedOf {fs : List Finish} (hc : Change s now fs s') (hatt : s.Attended)
    (job : String) :
    s'.recordedOf job = s.recordedOf job + fs.countP fun f => f.job = job := by
  cases hc with
  | still _ hs => rw [recordedOf, hs.runs]; rfl
  | staged _ hs => rw [recordedOf, (staged_quiet s s' now hs).runs]; rfl
  | fired _ timer id hb => exact recordedOf_begins hb job
  | triggered _ id hb => exact recordedOf_begins hb job
  | worked number ending => exact recordedOf_worked number ending job
  | ticked _ timer number id r ending hf howner =>
    obtain ⟨q, hopen, -⟩ := hatt.ticking timer id number howner
    cases Option.some.inj (hopen.1.symm.trans hf.run)
    rw [recordedOf_finishes hf hopen.2]
    simp [List.countP_singleton]
  | finished _ number r ending hf hopen =>
    rw [recordedOf_finishes hf hopen]
    simp [List.countP_singleton]

end Scheduler

namespace Moment

open Scheduler

def recorded (m : Moment) (move : Move) : List Metrics.Event :=
  ((m.scheduler.stepWith? m.now move).map Prod.snd).getD []

/-- The events of a move are those of the tick that it records. -/
theorem recorded_eq (m : Moment) (move : Move) :
    m.recorded move = (m.finish? move).toList.map Finish.event := by
  have hstep := stepWith_step m.scheduler m.now move
  unfold recorded
  cases hw : m.scheduler.stepWith? m.now move with
  | none =>
    rw [hw] at hstep
    have hnone : m.finish? move = none := by
      rw [finish?, ← hstep]
      rfl
    rw [hnone]
    rfl
  | some result =>
    obtain ⟨s', events⟩ := result
    rw [hw] at hstep
    rcases stepWith_events hw with ⟨hnone, rfl⟩ | ⟨number, ending, hn, hending, rfl⟩
    · rw [finish_of_finishing_eq_none m move hnone]
      rfl
    · obtain ⟨r, hr, he⟩ := endingOf_eq_some _ number ending hending
      rw [finish_of_step m move s' number r ending hstep.symm hn hr he]
      exact record_events _ number r ending m.now hr

theorem after_ended (m : Moment) (h : m.scheduler.Ended) (moves : List Move) :
    (m.after moves).scheduler.Ended := by
  induction moves using List.reverseRecOn with
  | nil => exact h
  | append_singleton moves move ih =>
    rw [after_concat]
    exact change_ended (play_change _ move) ih

theorem after_recordedOf (m : Moment) (h : m.scheduler.Orderly []) (moves : List Move)
    (job : String) : (m.after moves).scheduler.recordedOf job =
      m.scheduler.recordedOf job + (m.finishes moves).countP fun f => f.job = job := by
  induction moves using List.reverseRecOn with
  | nil => rfl
  | append_singleton moves move ih =>
    rw [after_concat, finishes_concat, List.countP_append, ← Nat.add_assoc, ← ih]
    exact change_recordedOf (play_change _ move) (after_orderly m h moves).attended job

/-- The last event about a job is about the last tick of it that is known. -/
theorem last_event (m : Moment) (h : m.scheduler.Orderly []) (moves : List Move) (job : String) :
    (((m.finishes moves).map Finish.event).filter fun event =>
        event.tick?.any (·.1 = job)).getLast? =
      ((m.after moves).scheduler.board.lastRuns.lookup job).map (RunInfo.event job) := by
  have hjob : (fun event : Metrics.Event => event.tick?.any (·.1 = job)) ∘ Finish.event =
      fun f => decide (f.job = job) := rfl
  rw [(after_orderly m h moves).told.last, List.filter_map, hjob, List.getLast?_map]
  cases hlast : ((m.finishes moves).filter fun f => f.job = job).getLast? with
  | none => rfl
  | some f =>
    obtain ⟨-, hf⟩ := List.mem_filter.mp (List.mem_of_getLast? hlast)
    rw [← of_decide_eq_true hf]
    rfl

end Moment
end VmFleet.Jobs
