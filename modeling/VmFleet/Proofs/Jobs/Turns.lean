import Mathlib.Data.List.Induction
import VmFleet.Proofs.Jobs.Moves

/-!
# The ticks of a job take turns

Whatever moves a scheduler makes, a job has at most one tick in progress, and it is marked as running
exactly as long as it has one. Whoever began a tick can record it as soon as its work is over,
however that went; it is recorded once, and what is known of the last tick of a job is what was
recorded last.
-/

set_option autoImplicit false

namespace VmFleet.Jobs

namespace Scheduler

/-! ## Ticks in progress -/

section

variable {s s' : Scheduler}

theorem underway_unique {number : Nat} {r q : Run} (hr : s.Underway number r)
    (hq : s.Underway number q) : r = q := Option.some.inj (hr.1.symm.trans hq.1)

theorem underway_append {new : Run} (h : s'.runs = s.runs ++ [new]) (hopen : new.isRecorded = false)
    (number : Nat) (r : Run) :
    s'.Underway number r ↔ s.Underway number r ∨ number = s.runs.length ∧ r = new := by
  unfold Underway
  rw [h, List.getElem?_append]
  constructor
  · rintro ⟨hr, hrec⟩
    split at hr
    · exact Or.inl ⟨hr,hrec⟩
    · rw [List.getElem?_singleton] at hr
      split at hr
      · cases hr
        exact Or.inr ⟨by omega,rfl⟩
      · cases hr
  · rintro (⟨hr, hrec⟩ | ⟨rfl, rfl⟩)
    · rw [if_pos (List.getElem?_eq_some_iff.mp hr).1]
      exact ⟨hr,hrec⟩
    · simp [hopen]

theorem underway_worked {k : Nat} {ending : Ending}
    (h : s'.runs = s.runs.modify k fun r => { r with ending := some ending }) (number : Nat)
    (r : Run) : s'.Underway number r ↔ ∃ q, s.Underway number q ∧
      r = if k = number then { q with ending := some ending } else q := by
  unfold Underway
  rw [h, List.getElem?_modify]
  cases s.runs[number]? with
  | none => simp
  | some q =>
    by_cases hk : k = number
    · simp only [hk, if_true]
      constructor
      · rintro ⟨hr, hrec⟩
        cases hr
        exact ⟨q,⟨rfl,hrec⟩,rfl⟩
      · rintro ⟨_, ⟨hq, hrec⟩, rfl⟩
        cases hq
        exact ⟨rfl,hrec⟩
    · simp only [hk, if_false]
      constructor
      · rintro ⟨hr, hrec⟩
        cases hr
        exact ⟨q,⟨rfl,hrec⟩,rfl⟩
      · rintro ⟨_, ⟨hq, hrec⟩, rfl⟩
        cases hq
        exact ⟨rfl,hrec⟩

theorem underway_recorded {k : Nat}
    (h : s'.runs = s.runs.modify k fun r => { r with isRecorded := true }) (number : Nat) (r : Run) :
    s'.Underway number r ↔ s.Underway number r ∧ number ≠ k := by
  unfold Underway
  rw [h, List.getElem?_modify]
  cases s.runs[number]? with
  | none => simp
  | some q =>
    by_cases hk : k = number
    · subst hk
      simp only [if_true, ne_eq, not_true_eq_false, and_false, iff_false]
      rintro ⟨hr, hrec⟩
      cases hr
      cases hrec
    · simp [hk, Ne.symm hk]

end

/-! ## One tick at a time -/

structure InTurn (s : Scheduler) : Prop where
  alone : ∀ n k r q, s.Underway n r → s.Underway k q → r.job = q.job → n = k
  marked : ∀ job, job ∈ s.board.running ↔ ∃ n r, s.Underway n r ∧ r.job = job

/-- Every tick in progress that a timer began is waited for by one timer, and timers wait for no
other ticks. -/
structure Attended (s : Scheduler) : Prop where
  owned : ∀ n r, s.Underway n r → r.trigger = .timer → ∃ k, s.tickOf k = some (r.job, n)
  ticking : ∀ k job n, s.tickOf k = some (job, n) →
    ∃ r, s.Underway n r ∧ r.job = job ∧ r.trigger = .timer
  single : ∀ k l job job' n, s.tickOf k = some (job, n) → s.tickOf l = some (job', n) → k = l

/-- The same ticks of the same jobs are in progress. -/
def SameTicks (s s' : Scheduler) : Prop :=
  ∀ n job trigger, (∃ r, s'.Underway n r ∧ r.job = job ∧ r.trigger = trigger) ↔
    ∃ r, s.Underway n r ∧ r.job = job ∧ r.trigger = trigger

section

variable {s s' : Scheduler}

theorem sameTicks_of_runs (h : s'.runs = s.runs) : SameTicks s s' := by
  intro n job trigger
  simp only [Underway, h]

theorem sameTicks_worked {number : Nat} {ending : Ending}
    (h : s'.runs = s.runs.modify number fun r => { r with ending := some ending }) :
    SameTicks s s' := by
  intro n job trigger
  simp only [underway_worked h]
  constructor
  · rintro ⟨r, ⟨q, hq, rfl⟩, hjob, htrigger⟩
    refine ⟨q, hq, ?_, ?_⟩
    · split at hjob <;> exact hjob
    · split at htrigger <;> exact htrigger
  · rintro ⟨q, hq, hjob, htrigger⟩
    refine ⟨_, ⟨q,hq,rfl⟩, ?_, ?_⟩
    · split <;> exact hjob
    · split <;> exact htrigger

theorem inTurn_same (hsame : SameTicks s s') (hrunning : s'.board.running = s.board.running)
    (h : s.InTurn) : s'.InTurn := by
  have hback : ∀ n r, s'.Underway n r → ∃ q, s.Underway n q ∧ q.job = r.job := by
    intro n r hr
    obtain ⟨q, hq, hjob, -⟩ := (hsame n r.job r.trigger).mp ⟨r,hr,rfl,rfl⟩
    exact ⟨q,hq,hjob⟩
  have hforth : ∀ n q, s.Underway n q → ∃ r, s'.Underway n r ∧ r.job = q.job := by
    intro n q hq
    obtain ⟨r, hr, hjob, -⟩ := (hsame n q.job q.trigger).mpr ⟨q,hq,rfl,rfl⟩
    exact ⟨r,hr,hjob⟩
  constructor
  · intro n k r q hr hq hjob
    obtain ⟨r', hr', hrjob⟩ := hback n r hr
    obtain ⟨q', hq', hqjob⟩ := hback k q hq
    exact h.alone n k r' q' hr' hq' (by rw [hrjob, hqjob, hjob])
  · intro job
    rw [hrunning, h.marked job]
    constructor
    · rintro ⟨n, r, hr, rfl⟩
      obtain ⟨r', hr', hjob⟩ := hforth n r hr
      exact ⟨n,r',hr',hjob⟩
    · rintro ⟨n, r, hr, rfl⟩
      obtain ⟨r', hr', hjob⟩ := hback n r hr
      exact ⟨n,r',hr',hjob⟩

theorem inTurn_begins {id : String} {trigger : Trigger} {now : Nat}
    (hb : Begins s s' id trigger now) (h : s.InTurn) : s'.InTurn := by
  have hunder := underway_append hb.runs rfl
  have hother : ∀ n r, s.Underway n r → r.job ≠ id := by
    rintro n r hr rfl
    exact hb.free ((h.marked _).mpr ⟨n,r,hr,rfl⟩)
  constructor
  · intro n k r q hr hq hjob
    rcases (hunder n r).mp hr with hr | ⟨rfl, rfl⟩
    · rcases (hunder k q).mp hq with hq | ⟨rfl, rfl⟩
      · exact h.alone n k r q hr hq hjob
      · exact absurd hjob (hother n r hr)
    · rcases (hunder k q).mp hq with hq | ⟨rfl, rfl⟩
      · exact absurd hjob.symm (hother k q hq)
      · rfl
  · intro job
    rw [hb.running, List.mem_append, List.mem_singleton, h.marked job]
    constructor
    · rintro (⟨n, r, hr, rfl⟩ | rfl)
      · exact ⟨n,r,(hunder n r).mpr (Or.inl hr),rfl⟩
      · exact ⟨_,_,(hunder _ _).mpr (Or.inr ⟨rfl,rfl⟩),rfl⟩
    · rintro ⟨n, r, hr, rfl⟩
      rcases (hunder n r).mp hr with hr | ⟨rfl, rfl⟩
      · exact Or.inl ⟨n,r,hr,rfl⟩
      · exact Or.inr rfl

theorem inTurn_finishes {number : Nat} {r : Run} {ending : Ending} {now : Nat}
    (hf : Finishes s s' number r ending now) (hopen : s.Underway number r) (h : s.InTurn) :
    s'.InTurn := by
  have hunder := underway_recorded hf.runs
  constructor
  · intro n k p q hp hq hjob
    exact h.alone n k p q ((hunder n p).mp hp).1 ((hunder k q).mp hq).1 hjob
  · intro job
    have hrunning : job ∈ s'.board.running ↔ job ∈ s.board.running ∧ job ≠ r.job := by
      rw [hf.board]
      simp [Board.finishRun]
    rw [hrunning, h.marked job]
    constructor
    · rintro ⟨⟨n, q, hq, rfl⟩, hne⟩
      refine ⟨n, q, (hunder n q).mpr ⟨hq,?_⟩, rfl⟩
      rintro rfl
      exact hne (by rw [underway_unique hq hopen])
    · rintro ⟨n, q, hq, rfl⟩
      obtain ⟨hq, hne⟩ := (hunder n q).mp hq
      exact ⟨⟨n,q,hq,rfl⟩,fun hjob => hne (h.alone n number q r hq hopen hjob)⟩

theorem attended_same (hsame : SameTicks s s') (hticks : ∀ k, s'.tickOf k = s.tickOf k)
    (h : s.Attended) : s'.Attended := by
  constructor
  · intro n r hr htimer
    obtain ⟨q, hq, hjob, htrigger⟩ := (hsame n r.job r.trigger).mp ⟨r,hr,rfl,rfl⟩
    obtain ⟨k, hk⟩ := h.owned n q hq (htrigger.trans htimer)
    exact ⟨k,by rw [hticks, hk, hjob]⟩
  · intro k job n hk
    rw [hticks] at hk
    exact (hsame n job .timer).mpr (h.ticking k job n hk)
  · intro k l job job' n hk hl
    rw [hticks] at hk hl
    exact h.single k l job job' n hk hl

theorem attended_fired {id : String} {timer now : Nat} (hb : Begins s s' id .timer now)
    (hidle : s.tickOf timer = none) (hticks : ∀ k, s'.tickOf k =
      if k = timer then some (id, s.runs.length) else s.tickOf k) (h : s.Attended) :
    s'.Attended := by
  have hunder := underway_append hb.runs rfl
  -- no timer can wait for a tick that only now gets its number
  have hnew : ∀ k job, s.tickOf k ≠ some (job, s.runs.length) := by
    intro k job hk
    obtain ⟨r, hr, -⟩ := h.ticking k job _ hk
    exact absurd (List.getElem?_eq_some_iff.mp hr.1).1 (Nat.lt_irrefl _)
  constructor
  · intro n r hr htimer
    rcases (hunder n r).mp hr with hr | ⟨rfl, rfl⟩
    · obtain ⟨k, hk⟩ := h.owned n r hr htimer
      refine ⟨k, ?_⟩
      rw [hticks, if_neg]
      · exact hk
      · rintro rfl
        rw [hidle] at hk
        cases hk
    · exact ⟨timer,by rw [hticks, if_pos rfl]⟩
  · intro k job n hk
    rw [hticks] at hk
    split at hk
    · cases hk
      exact ⟨_,(hunder _ _).mpr (Or.inr ⟨rfl,rfl⟩),rfl,rfl⟩
    · obtain ⟨r, hr, hjob, htimer⟩ := h.ticking k job n hk
      exact ⟨r,(hunder n r).mpr (Or.inl hr),hjob,htimer⟩
  · intro k l job job' n hk hl
    rw [hticks] at hk hl
    split at hk
    · split at hl
      · rename_i hk' hl'
        rw [hk', hl']
      · cases hk
        exact absurd hl (hnew l job')
    · split at hl
      · cases hl
        exact absurd hk (hnew k job)
      · exact h.single k l job job' n hk hl

theorem attended_triggered {id : String} {now : Nat} (hb : Begins s s' id .manual now)
    (hticks : ∀ k, s'.tickOf k = s.tickOf k) (h : s.Attended) : s'.Attended := by
  have hunder := underway_append hb.runs rfl
  constructor
  · intro n r hr htimer
    rcases (hunder n r).mp hr with hr | ⟨rfl, rfl⟩
    · obtain ⟨k, hk⟩ := h.owned n r hr htimer
      exact ⟨k,(hticks k).trans hk⟩
    · cases htimer
  · intro k job n hk
    obtain ⟨r, hr, hjob, htimer⟩ := h.ticking k job n ((hticks k).symm.trans hk)
    exact ⟨r,(hunder n r).mpr (Or.inl hr),hjob,htimer⟩
  · intro k l job job' n hk hl
    exact h.single k l job job' n ((hticks k).symm.trans hk) ((hticks l).symm.trans hl)

theorem attended_ticked {number timer : Nat} {id : String} {r : Run} {ending : Ending} {now : Nat}
    (hf : Finishes s s' number r ending now) (howner : s.tickOf timer = some (id, number))
    (hticks : ∀ k, s'.tickOf k = if k = timer then none else s.tickOf k) (h : s.Attended) :
    s'.Attended := by
  have hunder := underway_recorded hf.runs
  have hrest : ∀ k job n, s'.tickOf k = some (job, n) → s.tickOf k = some (job, n) ∧ k ≠ timer := by
    intro k job n hk
    rw [hticks] at hk
    split at hk
    · cases hk
    · rename_i hne
      exact ⟨hk,hne⟩
  constructor
  · intro n q hq htimer
    obtain ⟨hq, hne⟩ := (hunder n q).mp hq
    obtain ⟨k, hk⟩ := h.owned n q hq htimer
    refine ⟨k, ?_⟩
    rw [hticks, if_neg]
    · exact hk
    · rintro rfl
      rw [howner] at hk
      cases hk
      exact hne rfl
  · intro k job n hk
    obtain ⟨hk, hne⟩ := hrest k job n hk
    obtain ⟨q, hq, hjob, htimer⟩ := h.ticking k job n hk
    refine ⟨q, (hunder n q).mpr ⟨hq,?_⟩, hjob, htimer⟩
    rintro rfl
    exact hne (h.single k timer job id n hk howner)
  · intro k l job job' n hk hl
    exact h.single k l job job' n (hrest k job n hk).1 (hrest l job' n hl).1

theorem attended_finished {number : Nat} {r : Run} {ending : Ending} {now : Nat}
    (hf : Finishes s s' number r ending now) (hopen : s.Underway number r)
    (hmanual : r.trigger = .manual) (hticks : ∀ k, s'.tickOf k = s.tickOf k) (h : s.Attended) :
    s'.Attended := by
  have hunder := underway_recorded hf.runs
  constructor
  · intro n q hq htimer
    obtain ⟨k, hk⟩ := h.owned n q ((hunder n q).mp hq).1 htimer
    exact ⟨k,(hticks k).trans hk⟩
  · intro k job n hk
    obtain ⟨q, hq, hjob, htimer⟩ := h.ticking k job n ((hticks k).symm.trans hk)
    refine ⟨q, (hunder n q).mpr ⟨hq,?_⟩, hjob, htimer⟩
    rintro rfl
    rw [underway_unique hq hopen, hmanual] at htimer
    cases htimer
  · intro k l job job' n hk hl
    exact h.single k l job job' n ((hticks k).symm.trans hk) ((hticks l).symm.trans hl)

/-! ## What is kept of the ticks -/

def isOver (s : Scheduler) (number : Nat) : Bool := (s.runs[number]?).any Run.isRecorded

/-- The ticks of this list, in this order, are what the scheduler has recorded. -/
structure Told (s : Scheduler) (log : List Finish) : Prop where
  once : ∀ n, (log.map Finish.number).count n = if s.isOver n then 1 else 0
  last : ∀ job, s.board.lastRuns.lookup job =
    ((log.filter fun f => f.job = job).getLast?).map Finish.info

theorem isOver_of_underway {number : Nat} {r : Run} (h : s.Underway number r) :
    s.isOver number = false := by
  rw [isOver, h.1]
  exact h.2

theorem told_still {log : List Finish} (hover : ∀ n, s'.isOver n = s.isOver n)
    (hlast : s'.board.lastRuns = s.board.lastRuns) (h : s.Told log) : s'.Told log := by
  constructor
  · intro n
    rw [hover]
    exact h.once n
  · intro job
    rw [hlast]
    exact h.last job

theorem isOver_begins {id : String} {trigger : Trigger} {now : Nat}
    (hb : Begins s s' id trigger now) (n : Nat) : s'.isOver n = s.isOver n := by
  unfold isOver
  rw [hb.runs, List.getElem?_append]
  split
  · rfl
  · rename_i hlen
    rw [List.getElem?_eq_none (Nat.le_of_not_lt hlen), List.getElem?_singleton]
    split <;> rfl

theorem isOver_worked {number : Nat} {ending : Ending}
    (h : s'.runs = s.runs.modify number fun r => { r with ending := some ending }) (n : Nat) :
    s'.isOver n = s.isOver n := by
  unfold isOver
  rw [h, List.getElem?_modify]
  cases s.runs[n]? with
  | none => rfl
  | some r => by_cases hn : number = n <;> simp [hn]

theorem isOver_finishes {number : Nat} {r : Run} {ending : Ending} {now : Nat}
    (hf : Finishes s s' number r ending now) (n : Nat) :
    s'.isOver n = if n = number then true else s.isOver n := by
  unfold isOver
  rw [hf.runs, List.getElem?_modify]
  by_cases hn : n = number
  · subst hn
    simp [hf.run]
  · cases s.runs[n]? with
    | none => simp [hn]
    | some r => simp [hn, Ne.symm hn]

theorem told_finishes {number : Nat} {r : Run} {ending : Ending} {now : Nat} {log : List Finish}
    (hf : Finishes s s' number r ending now) (hopen : s.Underway number r) (h : s.Told log) :
    s'.Told (log ++ [⟨number, r.job, Run.infoAt r ending now⟩]) := by
  constructor
  · intro n
    rw [List.map_append, List.count_append, h.once, isOver_finishes hf]
    by_cases hn : n = number
    · subst hn
      simp [isOver_of_underway hopen]
    · simp [hn, Ne.symm hn]
  · intro job
    rw [hf.board, List.filter_append]
    by_cases hjob : job = r.job
    · subst hjob
      simp [Board.finishRun, lookup_insertEntry_self]
    · simp [Board.finishRun, lookup_insertEntry_of_ne hjob, Ne.symm hjob, h.last job]

/-! ## Any moves -/

structure Orderly (s : Scheduler) (log : List Finish) : Prop where
  inTurn : s.InTurn
  attended : s.Attended
  told : s.Told log

theorem orderly_new (settings : Config.JobsSettings) : (new settings).Orderly [] := by
  refine ⟨⟨?_,?_⟩, ⟨?_,?_,?_⟩, ⟨fun n => rfl,fun job => rfl⟩⟩
  · intro n k r q hr
    cases hr.1
  · intro job
    constructor
    · intro hjob
      cases hjob
    · rintro ⟨n, r, hr, -⟩
      cases hr.1
  · intro n r hr
    cases hr.1
  · intro k job n hk
    cases hk
  · intro k l job job' n hk
    cases hk

theorem change_orderly {now : Nat} {log fs : List Finish} (hc : Change s now fs s')
    (h : s.Orderly log) : s'.Orderly (log ++ fs) := by
  obtain ⟨hturn, hatt, htold⟩ := h
  have hquiet : Quiet s s' → s'.Orderly log := by
    intro hq
    have hsame := sameTicks_of_runs hq.runs
    exact ⟨inTurn_same hsame hq.running hturn,attended_same hsame hq.ticks hatt,
      told_still (fun n => by rw [isOver, hq.runs]; rfl) hq.lastRuns htold⟩
  cases hc with
  | still _ hs =>
    rw [List.append_nil]
    exact hquiet hs.toQuiet
  | staged _ hs =>
    rw [List.append_nil]
    exact hquiet (staged_quiet s s' now hs)
  | fired _ timer id hb _ hidle hticks =>
    rw [List.append_nil]
    exact ⟨inTurn_begins hb hturn,attended_fired hb hidle hticks hatt,
      told_still (isOver_begins hb) hb.lastRuns htold⟩
  | triggered _ id hb _ _ hticks =>
    rw [List.append_nil]
    exact ⟨inTurn_begins hb hturn,attended_triggered hb hticks hatt,
      told_still (isOver_begins hb) hb.lastRuns htold⟩
  | worked number ending =>
    rw [List.append_nil]
    have hsame : SameTicks s (s.endRun number ending) := sameTicks_worked rfl
    exact ⟨inTurn_same hsame rfl hturn,attended_same hsame (fun _ => rfl) hatt,
      told_still (isOver_worked rfl) rfl htold⟩
  | ticked _ timer number id r ending hf howner hticks =>
    obtain ⟨q, hopen, -⟩ := hatt.ticking timer id number howner
    cases Option.some.inj (hopen.1.symm.trans hf.run)
    exact ⟨inTurn_finishes hf hopen hturn,attended_ticked hf howner hticks hatt,
      told_finishes hf hopen htold⟩
  | finished _ number r ending hf hopen hmanual hticks =>
    have hopen : s.Underway number r := ⟨hf.run,hopen⟩
    exact ⟨inTurn_finishes hf hopen hturn,attended_finished hf hopen hmanual hticks hatt,
      told_finishes hf hopen htold⟩

end

end Scheduler

namespace Moment

open Scheduler

theorem after_orderly (m : Moment) (h : m.scheduler.Orderly []) (moves : List Move) :
    (m.after moves).scheduler.Orderly (m.finishes moves) := by
  induction moves using List.reverseRecOn with
  | nil => exact h
  | append_singleton moves move ih =>
    rw [after_concat, finishes_concat]
    exact change_orderly (play_change _ move) ih

/-- A tick whose work is over can be recorded at once, by whoever began it. -/
theorem can_finish (m : Moment) (h : m.scheduler.Attended) (number : Nat) (r : Run)
    (ending : Ending) (hr : m.scheduler.Underway number r) (he : r.ending = some ending) :
    ∃ move, m.finish? move = some ⟨number, r.job, Run.infoAt r ending m.now⟩ := by
  have hending : m.scheduler.endingOf number = some ending := by
    rw [endingOf, hr.1]
    exact he
  cases htrigger : r.trigger with
  | timer =>
    obtain ⟨k, hk⟩ := h.owned number r hr htrigger
    obtain ⟨t, ht, htick⟩ := Option.bind_eq_some_iff.mp hk
    obtain ⟨n, hrun, hn⟩ := Option.map_eq_some_iff.mp htick
    obtain ⟨-, rfl⟩ := Prod.mk.inj hn
    have hstep : ∃ s', m.scheduler.step? m.now (.finishTick k) = some s' := by
      simp [step?, finishTick?, ht, hrun, hending]
    obtain ⟨s', hstep⟩ := hstep
    refine ⟨.finishTick k, finish_of_step m _ s' _ r ending hstep ?_ hr.1 he⟩
    rw [Move.finishing?, hk]
    rfl
  | manual =>
    have hstep : ∃ s', m.scheduler.step? m.now (.finishRun number) = some s' := by
      have hrec : m.scheduler.isRecorded number = false := by
        rw [isRecorded, hr.1]
        exact hr.2
      simp [step?, advanceRun, hr.1, htrigger, hending, hrec]
    obtain ⟨s', hstep⟩ := hstep
    exact ⟨.finishRun number,finish_of_step m _ s' number r ending hstep rfl hr.1 he⟩

/-- A timer that fires while its job is running only waits for its next time. -/
theorem fire_refused (m : Moment) (timer : Nat) (t : Timer)
    (ht : m.scheduler.timers[timer]? = some t) (hrun : t.job ∈ m.scheduler.board.running) :
    (m.play (.fireTimer timer)).scheduler.runs = m.scheduler.runs ∧
      (m.play (.fireTimer timer)).scheduler.board = m.scheduler.board := by
  have hnone := (beginRun_none m.scheduler t.job .timer m.now).mpr hrun
  simp only [play, step?, fireTimer?, ht, Option.bind_eq_bind, Option.bind_some, hnone]
  split <;> exact ⟨rfl,rfl⟩

/-- A call for a job that is running is only answered. -/
theorem call_refused (m : Moment) (number : Nat) (id : String) (rest : List (Nat × String))
    (hcommands : m.scheduler.commands = (number, id) :: rest)
    (hrun : id ∈ m.scheduler.board.running) :
    (m.play .handleCall).scheduler.runs = m.scheduler.runs ∧
      (m.play .handleCall).scheduler.board = m.scheduler.board := by
  cases h : m.scheduler.handleCall? m.now with
  | none =>
    simp only [play, step?, h]
    exact ⟨rfl,rfl⟩
  | some s' =>
    obtain ⟨-, number', id', rest', hcommands', rfl⟩ := handleCall_eq_some _ s' _ h
    cases hcommands.symm.trans hcommands'
    simp only [play, step?, h]
    rcases trigger_cases m.scheduler id m.now with heq | ⟨began, hb, -⟩
    · rw [heq]
      exact ⟨rfl,rfl⟩
    · rw [(beginRun_none m.scheduler id .manual m.now).mpr hrun] at hb
      cases hb

/-! ## Main statement -/

/-- After any moves of a new scheduler, no two ticks of one job are in progress, and a job is marked
as running exactly while it has one. Each tick has been recorded once or, as long as it is in
progress, not at all; what is known of the last tick of a job was recorded last; and a tick whose
work is over can be recorded, however it ended. A timer that fires or a call that asks for a tick
while the job is running begins none and leaves the board as it was. -/
theorem ticks_take_turns (settings : Config.JobsSettings) (now : Nat) (moves : List Move) :
    let m := (new settings now).after moves
    let log := (new settings now).finishes moves
    (∀ n k r q, m.scheduler.Underway n r → m.scheduler.Underway k q → r.job = q.job → n = k) ∧
    (∀ job, job ∈ m.scheduler.board.running ↔ ∃ n r, m.scheduler.Underway n r ∧ r.job = job) ∧
    (∀ n r, m.scheduler.runs[n]? = some r →
      (log.map Finish.number).count n = if r.isRecorded then 1 else 0) ∧
    (∀ job, m.scheduler.board.lastRuns.lookup job =
      ((log.filter fun f => f.job = job).getLast?).map Finish.info) ∧
    (∀ n r ending, m.scheduler.Underway n r → r.ending = some ending →
      ∃ move, m.finish? move = some ⟨n, r.job, Run.infoAt r ending m.now⟩) ∧
    (∀ timer t, m.scheduler.timers[timer]? = some t → t.job ∈ m.scheduler.board.running →
      (m.play (.fireTimer timer)).scheduler.runs = m.scheduler.runs ∧
        (m.play (.fireTimer timer)).scheduler.board = m.scheduler.board) ∧
    ∀ number id rest, m.scheduler.commands = (number, id) :: rest →
      id ∈ m.scheduler.board.running →
      (m.play .handleCall).scheduler.runs = m.scheduler.runs ∧
        (m.play .handleCall).scheduler.board = m.scheduler.board := by
  intro m log
  obtain ⟨hturn, hatt, htold⟩ := after_orderly (new settings now) (orderly_new settings) moves
  refine ⟨hturn.alone, hturn.marked, ?_, htold.last, can_finish m hatt, fire_refused m, call_refused m⟩
  intro n r hr
  have honce := htold.once n
  rw [isOver, hr] at honce
  exact honce

end Moment
end VmFleet.Jobs
