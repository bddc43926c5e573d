import Mathlib.Data.List.Nodup
import Mathlib.Logic.Relation
import Mathlib.Tactic.Set
import VmFleet.Proofs.Jobs.Moves

/-!
# The timetable of a scheduler

Which jobs are scheduled, and at what period, stands in three places: each registered job has an entry
that may name a timer, the board shows a period, and the timers themselves are live or cancelled.
Whatever a scheduler is told to do, and whichever ticks come in between, the three agree. Jobs are
visited in any order when settings are applied; the timetable that comes of it is the same.
-/

set_option autoImplicit false

namespace VmFleet.Jobs

/-- What a timer was started for, and whether it still counts. -/
def Timer.plan (t : Timer) : String × Nat × Bool := (t.job, t.period, t.isCancelled)

/-- The period that settings give a job; none when they disable it, or when the period is zero. -/
def Job.planned? (job : Job) (settings : Config.JobsSettings) : Option Nat :=
  let own := job.settings settings
  if own.disabled || own.periodMillis = 0 then none else some own.periodMillis

theorem Job.planned_eq_some_iff (job : Job) (settings : Config.JobsSettings) (period : Nat) :
    job.planned? settings = some period ↔ (job.settings settings).disabled = false ∧
      (job.settings settings).periodMillis = period ∧ 0 < period := by
  unfold planned?
  by_cases hd : (job.settings settings).disabled = true
  · simp [hd]
  · by_cases hp : (job.settings settings).periodMillis = 0
    · simp [hd, hp]
      omega
    · simp [hd, hp]
      omega

/-- Moves that neither give orders nor end the scheduler: time, ticks, and calls for a tick. -/
def Move.isTick : Move → Bool
  | .pass _ => true
  | .call _ => true
  | .handleCall => true
  | .stopTimer _ => true
  | .fireTimer _ => true
  | .finishTick _ => true
  | .endRun _ _ => true
  | .finishRun _ => true
  | _ => false

namespace Scheduler

/-- The timer of this number was started for the job and is not cancelled. -/
def Live (timers : List Timer) (id : String) (n : Nat) : Prop :=
  ∃ t, timers[n]? = some t ∧ t.job = id ∧ t.isCancelled = false

def periodAt (timers : List Timer) (n : Nat) : Option Nat := (timers[n]?).map Timer.period

/-- The period of the timer that a job has. -/
def periodOf (s : Scheduler) (id : String) : Option Nat := (s.timerOf id).bind (periodAt s.timers)

/-- The settings are applied job by job, in the order given. -/
def applyVia (s : Scheduler) (visit : List Job) (settings : Config.JobsSettings) (now : Nat) :
    Scheduler :=
  { visit.foldl (reschedule settings now) s with settings }

theorem applySettings_eq (s : Scheduler) (settings : Config.JobsSettings) (now : Nat) :
    s.applySettings settings now = s.applyVia s.jobs settings now := rfl

def reconfigureVia (s : Scheduler) (visit : List Job) (change : Config.Change Config.JobsSettings)
    (now : Nat) : Scheduler :=
  match change.both with
  | some (_, current) => s.applyVia visit current now
  | none => s

/-- Here the jobs are visited as they were registered, which is one of the orders that may be. -/
theorem reconfigure_eq (s : Scheduler) (change : Config.Change Config.JobsSettings) (now : Nat) :
    s.reconfigure change now = s.reconfigureVia s.jobs change now := rfl

/-- A call on a scheduler, with any arguments, or a move of its ticks between two calls. -/
inductive Step : Scheduler → Scheduler → Prop
  | register (s : Scheduler) (job : Job) : Step s (s.register job)
  | schedule (s : Scheduler) (id : String) (period now : Nat) : Step s (s.schedule id period now).2
  | cancel (s : Scheduler) (id : String) : Step s (s.cancel id).2
  | apply (s : Scheduler) (visit : List Job) (settings : Config.JobsSettings) (now : Nat)
      (h : visit.Perm s.jobs) : Step s (s.applyVia visit settings now)
  | change (s : Scheduler) (visit : List Job) (change : Config.Change Config.JobsSettings)
      (now : Nat) (h : visit.Perm s.jobs) : Step s (s.reconfigureVia visit change now)
  | tick (s s' : Scheduler) (now : Nat) (move : Move) (h : move.isTick = true)
      (hs : s.step? now move = some s') : Step s s'

def Leads : Scheduler → Scheduler → Prop := Relation.ReflTransGen Step

/-! ## Entries -/

theorem lookup_setTimer (s : Scheduler) (id other : String) (number : Option Nat) :
    (s.setTimer id number).schedules.lookup other =
      if other = id then (s.schedules.lookup id).map fun _ => number
      else s.schedules.lookup other := by
  unfold setTimer
  dsimp only
  induction s.schedules with
  | nil => simp
  | cons entry rest ih =>
    rw [List.map_cons, List.lookup_cons, List.lookup_cons, List.lookup_cons]
    by_cases he : entry.1 = id
    · by_cases ho : other = id
      · simp [he, ho]
      · have hne : (other == id) = false := beq_eq_false_iff_ne.mpr ho
        rw [if_neg ho] at ih
        simpa [he, ho, hne] using ih
    · by_cases ho : other = id
      · have hne : (id == entry.1) = false := beq_eq_false_iff_ne.mpr (Ne.symm he)
        rw [if_pos ho] at ih
        simpa [he, ho, hne] using ih
      · rw [if_neg ho] at ih
        simp [he, ho, ih]

theorem setTimer_names (s : Scheduler) (id : String) (number : Option Nat) :
    (s.setTimer id number).schedules.map Prod.fst = s.schedules.map Prod.fst := by
  simp only [setTimer, List.map_map]
  apply List.map_congr_left
  intro entry _
  by_cases h : entry.1 = id
  · simp [h]
  · simp [h]

theorem lookup_isSome_iff {α : Type} (entries : List (String × α)) (id : String) :
    (entries.lookup id).isSome = true ↔ id ∈ entries.map Prod.fst := by
  induction entries with
  | nil => simp
  | cons entry rest ih =>
    rw [List.lookup_cons]
    by_cases h : id = entry.1
    · simp [h]
    · simp [beq_eq_false_iff_ne.mpr h, h, ih]

theorem job_isSome_iff (s : Scheduler) (id : String) :
    (s.job? id).isSome = true ↔ id ∈ s.jobs.map Job.id := by
  simp [job?, List.find?_isSome]

/-! ## Timers -/

theorem live_lt (timers : List Timer) (id : String) (n : Nat) (h : Live timers id n) :
    n < timers.length := by
  obtain ⟨t, ht, -⟩ := h
  exact (List.getElem?_eq_some_iff.mp ht).1

theorem live_job (timers : List Timer) (id other : String) (n : Nat) (h : Live timers id n)
    (k : Live timers other n) : id = other := by
  obtain ⟨t, ht, hjob, -⟩ := h
  obtain ⟨u, hu, hjob', -⟩ := k
  have htu : t = u := Option.some.inj (ht.symm.trans hu)
  rw [← hjob, ← hjob', htu]

theorem live_start (timers : List Timer) (id other : String) (now period n : Nat) :
    Live (timers ++ [.start id now period false]) other n ↔
      Live timers other n ∨ n = timers.length ∧ id = other := by
  unfold Live
  by_cases hlt : n < timers.length
  · have hne : n ≠ timers.length := by omega
    simp [List.getElem?_append_left hlt, hne]
  · have hnone : timers[n]? = none := List.getElem?_eq_none (by omega)
    by_cases heq : n = timers.length
    · simp [heq, Timer.start]
    · have hbeyond : (timers ++ [Timer.start id now period false])[n]? = none :=
        List.getElem?_eq_none (by simp; omega)
      simp [hnone, hbeyond, heq]

theorem live_cancel (timers : List Timer) (other : String) (n k : Nat) :
    Live (timers.modify n Timer.cancel) other k ↔ Live timers other k ∧ k ≠ n := by
  unfold Live
  rw [List.getElem?_modify]
  by_cases hk : n = k
  · simp [hk, Timer.cancel]
  · simp [hk, Ne.symm hk]

theorem periodAt_start (timers : List Timer) (t : Timer) (n : Nat) (h : n < timers.length) :
    periodAt (timers ++ [t]) n = periodAt timers n := by
  rw [periodAt, List.getElem?_append_left h, periodAt]

theorem periodAt_cancel (timers : List Timer) (n k : Nat) :
    periodAt (timers.modify n Timer.cancel) k = periodAt timers k := by
  rw [periodAt, List.getElem?_modify, Option.map_eq_map, Option.map_map, periodAt]
  congr 1
  funext t
  by_cases hk : n = k
  · simp [hk, Timer.cancel]
  · simp [hk]

/-- A timer keeps its number, its job and its period, and once cancelled it stays so. -/
def Grown (timers timers' : List Timer) : Prop :=
  ∀ (n : Nat) (t : Timer), timers[n]? = some t → ∃ t', timers'[n]? = some t' ∧
    t'.job = t.job ∧ t'.period = t.period ∧ (t.isCancelled = true → t'.isCancelled = true)

theorem Grown.refl (timers : List Timer) : Grown timers timers :=
  fun _ t h => ⟨t,h,rfl,rfl,fun hc => hc⟩

theorem Grown.trans {first next last : List Timer} (h : Grown first next) (k : Grown next last) :
    Grown first last := by
  intro n a ha
  obtain ⟨b, hb, hjob, hperiod, hcancelled⟩ := h n a ha
  obtain ⟨c, hc, hjob', hperiod', hcancelled'⟩ := k n b hb
  exact ⟨c,hc,hjob'.trans hjob,hperiod'.trans hperiod,fun ha => hcancelled' (hcancelled ha)⟩

theorem grown_start (timers : List Timer) (t : Timer) : Grown timers (timers ++ [t]) := by
  intro n u hu
  have hlt := (List.getElem?_eq_some_iff.mp hu).1
  exact ⟨u,(List.getElem?_append_left hlt).trans hu,rfl,rfl,fun hc => hc⟩

theorem grown_cancel (timers : List Timer) (n : Nat) :
    Grown timers (timers.modify n Timer.cancel) := by
  intro k u hu
  rw [List.getElem?_modify, hu]
  by_cases hk : n = k
  · exact ⟨u.cancel,by simp [hk],rfl,rfl,fun _ => rfl⟩
  · exact ⟨u,by simp [hk],rfl,rfl,fun hc => hc⟩

/-! ## The three places agree -/

structure Kept (s : Scheduler) : Prop where
  ids : (s.jobs.map Job.id).Nodup
  entries : s.schedules.map Prod.fst = s.jobs.map Job.id
  noted : ∀ id, s.board.scheduled.lookup id = s.periodOf id
  live : ∀ id n, s.timerOf id = some n ↔ Live s.timers id n
  uncancelled : s.isCancelled = false

variable {s s' : Scheduler}

theorem Kept.entry_iff (h : s.Kept) (id : String) :
    (s.schedules.lookup id).isSome = true ↔ id ∈ s.jobs.map Job.id := by
  rw [lookup_isSome_iff, h.entries]

theorem entry_of_timer (id : String) (n : Nat) (hn : s.timerOf id = some n) :
    (s.schedules.lookup id).isSome = true := by
  unfold timerOf at hn
  cases hl : s.schedules.lookup id with
  | none => simp [hl] at hn
  | some entry => rfl

theorem new_kept (settings : Config.JobsSettings) : (new settings).Kept := by
  constructor
  · exact List.nodup_nil
  · rfl
  · intro id
    rfl
  · intro id n
    simp [new, timerOf, Live]
  · rfl

/-! ## Orders -/

theorem register_kept (job : Job) (h : s.Kept) : (s.register job).Kept := by
  unfold register
  by_cases hknown : (s.job? job.id).isSome = true
  · rw [if_pos hknown]
    exact h
  · rw [if_neg hknown]
    have hnew : job.id ∉ s.jobs.map Job.id := fun hin => hknown ((job_isSome_iff s job.id).mpr hin)
    -- a job that was not registered had no entry, and hence no timer
    have htimer : ∀ id, ((s.schedules ++ [(job.id, none)]).lookup id).join = s.timerOf id := by
      intro id
      rw [lookup_append_singleton, timerOf]
      by_cases hid : id = job.id
      · have hnone : s.schedules.lookup id = none := by
          rw [← Option.not_isSome_iff_eq_none, h.entry_iff, hid]
          exact hnew
        rw [hnone, if_pos hid]
        rfl
      · simp [hid]
    constructor
    · rw [List.map_append]
      have hone : ∀ a ∈ s.jobs.map Job.id, a ≠ job.id := fun a ha he => hnew (he ▸ ha)
      exact List.nodup_append.mpr ⟨h.ids,by simp,by simpa using hone⟩
    · simp [h.entries]
    · intro id
      rw [periodOf, timerOf, htimer id]
      exact h.noted id
    · intro id n
      rw [timerOf, htimer id]
      exact h.live id n
    · exact h.uncancelled

theorem timerOf_setTimer (s : Scheduler) (id other : String) (number : Option Nat)
    (h : (s.schedules.lookup id).isSome = true) :
    (s.setTimer id number).timerOf other = if other = id then number else s.timerOf other := by
  obtain ⟨entry, hentry⟩ := Option.isSome_iff_exists.mp h
  simp only [timerOf, lookup_setTimer]
  by_cases ho : other = id
  · simp [ho, hentry]
  · simp [ho]

/-- What scheduling comes to: an error and no change at all, or a timer with a new number. -/
inductive Scheduled (s : Scheduler) (id : String) (period now : Nat) :
    Except JobError Nat × Scheduler → Prop
  | unknown (h : s.schedules.lookup id = none) : Scheduled s id period now (.error (.notFound id), s)
  | already (n : Nat) (h : s.schedules.lookup id = some (some n)) :
      Scheduled s id period now (.error (.alreadyScheduled id), s)
  | zero (h : s.schedules.lookup id = some none) (hzero : period = 0) :
      Scheduled s id period now (.error (.invalidPeriod id), s)
  | started (h : s.schedules.lookup id = some none) (hpos : 0 < period) :
      Scheduled s id period now (.ok s.timers.length,
        { s.setTimer id (some s.timers.length) with
          timers := s.timers ++ [.start id now period s.isCancelled]
          board := s.board.schedule id period })

theorem schedule_cases (s : Scheduler) (id : String) (period now : Nat) :
    Scheduled s id period now (s.schedule id period now) := by
  unfold schedule
  split
  · rename_i hentry
    exact .unknown hentry
  · rename_i n hentry
    exact .already n hentry
  · rename_i hentry
    by_cases hzero : period = 0
    · rw [if_pos hzero]
      exact .zero hentry hzero
    · rw [if_neg hzero]
      exact .started hentry (Nat.pos_of_ne_zero hzero)

/-- At most this job has another period than before, or none any more. -/
structure Replanned (s s' : Scheduler) (id : String) (period : Option Nat) : Prop where
  kept : s'.Kept
  grown : Grown s.timers s'.timers
  jobs : s'.jobs = s.jobs
  isCancelled : s'.isCancelled = s.isCancelled
  periods : ∀ other, s'.periodOf other = if other = id then period else s.periodOf other

theorem replanned_refl (h : s.Kept) (id : String) : Replanned s s id (s.periodOf id) := by
  have hperiods : ∀ other, s.periodOf other =
      if other = id then s.periodOf id else s.periodOf other := by
    intro other
    by_cases ho : other = id
    · simp [ho]
    · simp [ho]
  exact ⟨h,.refl s.timers,rfl,rfl,hperiods⟩

theorem started_replanned (id : String) (period now : Nat) (h : s.Kept)
    (hentry : s.schedules.lookup id = some none) :
    Replanned s { s.setTimer id (some s.timers.length) with
      timers := s.timers ++ [.start id now period s.isCancelled]
      board := s.board.schedule id period } id (some period) := by
  set next : Scheduler := { s.setTimer id (some s.timers.length) with
    timers := s.timers ++ [.start id now period s.isCancelled]
    board := s.board.schedule id period }
  have hnone : s.timerOf id = none := by simp [timerOf, hentry]
  have htimer : ∀ other, next.timerOf other =
      if other = id then some s.timers.length else s.timerOf other :=
    fun other => timerOf_setTimer s id other _ (by rw [hentry]; rfl)
  have hperiods : ∀ other, next.periodOf other =
      if other = id then some period else s.periodOf other := by
    intro other
    rw [periodOf, htimer other]
    by_cases ho : other = id
    · simp [ho, next, periodAt, Timer.start]
    · rw [if_neg ho, if_neg ho, periodOf]
      cases hn : s.timerOf other with
      | none => rfl
      | some n => exact periodAt_start s.timers _ n (live_lt _ _ _ ((h.live other n).mp hn))
  refine ⟨⟨h.ids,?_,?_,?_,h.uncancelled⟩,grown_start s.timers _,rfl,rfl,hperiods⟩
  · exact (setTimer_names s id (some s.timers.length)).trans h.entries
  · intro other
    rw [hperiods other]
    by_cases ho : other = id
    · rw [ho, if_pos rfl]
      exact lookup_insertEntry_self id period s.board.scheduled
    · rw [if_neg ho, ← h.noted other]
      exact lookup_insertEntry_of_ne ho period s.board.scheduled
  · intro other n
    have hlive : Live next.timers other n ↔ Live s.timers other n ∨ n = s.timers.length ∧ id = other := by
      change Live (s.timers ++ [.start id now period s.isCancelled]) other n ↔ _
      rw [h.uncancelled]
      exact live_start s.timers id other now period n
    rw [htimer other, hlive, ← h.live other n]
    by_cases ho : other = id
    · simp [ho, hnone, eq_comm]
    · simp [ho, Ne.symm ho]

theorem cancel_replanned (id : String) (h : s.Kept) : Replanned s (s.cancel id).2 id none := by
  unfold cancel
  cases hn : s.timerOf id with
  | none =>
    have hsame := replanned_refl h id
    rw [periodOf, hn] at hsame
    exact hsame
  | some n =>
    dsimp only
    set next : Scheduler := { (s.setTimer id none).onTimer n Timer.cancel with
      board := s.board.unschedule id }
    have htimer : ∀ other, next.timerOf other = if other = id then none else s.timerOf other :=
      fun other => timerOf_setTimer s id other none (entry_of_timer id n hn)
    have hperiods : ∀ other, next.periodOf other =
        if other = id then none else s.periodOf other := by
      intro other
      have hat : periodAt next.timers = periodAt s.timers := funext (periodAt_cancel s.timers n)
      rw [periodOf, htimer other, hat]
      by_cases ho : other = id
      · simp [ho]
      · simp [ho, periodOf]
    refine ⟨⟨h.ids,?_,?_,?_,h.uncancelled⟩,grown_cancel s.timers n,rfl,rfl,hperiods⟩
    · exact (setTimer_names s id none).trans h.entries
    · intro other
      rw [hperiods other]
      by_cases ho : other = id
      · rw [ho, if_pos rfl]
        exact lookup_eraseEntry_self id s.board.scheduled
      · rw [if_neg ho, ← h.noted other]
        exact lookup_eraseEntry_of_ne ho s.board.scheduled
    · intro other k
      have hlive : Live next.timers other k ↔ Live s.timers other k ∧ k ≠ n :=
        live_cancel s.timers other n k
      rw [htimer other, hlive, ← h.live other k]
      by_cases ho : other = id
      · simp [ho, hn, eq_comm]
      · -- the timer that was cancelled was that of the other job
        have hother : s.timerOf other ≠ some n := fun hn' =>
          ho (live_job s.timers other id n ((h.live other n).mp hn') ((h.live id n).mp hn))
        rw [if_neg ho]
        constructor
        · intro hk
          exact ⟨hk,fun heq => hother (heq ▸ hk)⟩
        · exact And.left

/-- A registered job without a timer gets the period that it is scheduled at, unless that is zero. -/
theorem schedule_replanned (id : String) (period now : Nat) (h : s.Kept)
    (hentry : s.schedules.lookup id = some none) :
    Replanned s (s.schedule id period now).2 id (if period = 0 then none else some period) := by
  have hcases := schedule_cases s id period now
  generalize s.schedule id period now = result at hcases
  cases hcases with
  | unknown hnone => simp [hentry] at hnone
  | already n hn => simp [hentry] at hn
  | zero _ hzero =>
    have hsame := replanned_refl h id
    rw [periodOf, timerOf, hentry] at hsame
    rw [if_pos hzero]
    exact hsame
  | started _ hpos =>
    rw [if_neg (Nat.ne_of_gt hpos)]
    exact started_replanned id period now h hentry

/-! ## Applying settings -/

/-- The entry of a job that has just been cancelled names no timer. -/
theorem cancel_entry (id : String) (h : (s.schedules.lookup id).isSome = true) :
    (s.cancel id).2.schedules.lookup id = some none := by
  obtain ⟨entry, hentry⟩ := Option.isSome_iff_exists.mp h
  unfold cancel timerOf
  rw [hentry]
  cases entry with
  | none => exact hentry
  | some n =>
    change (s.setTimer id none).schedules.lookup id = some none
    rw [lookup_setTimer, if_pos rfl, hentry]
    rfl

theorem reschedule_replanned (settings : Config.JobsSettings) (now : Nat) (job : Job) (h : s.Kept)
    (hjob : job.id ∈ s.jobs.map Job.id) :
    Replanned s (reschedule settings now s job) job.id (job.planned? settings) := by
  have hcancel := cancel_replanned job.id h
  unfold reschedule Job.planned?
  dsimp only
  by_cases hd : (job.settings settings).disabled = true
  · simp only [hd, if_true, Bool.true_or]
    exact hcancel
  · have hschedule := schedule_replanned job.id (job.settings settings).periodMillis now
      hcancel.kept (cancel_entry job.id ((h.entry_iff job.id).mpr hjob))
    simp only [hd, Bool.false_eq_true, if_false, Bool.false_or, decide_eq_true_eq]
    refine ⟨hschedule.kept,hcancel.grown.trans hschedule.grown,hschedule.jobs.trans hcancel.jobs,
      hschedule.isCancelled.trans hcancel.isCancelled,?_⟩
    intro other
    rw [hschedule.periods other, hcancel.periods other]
    by_cases ho : other = job.id
    · simp [ho]
    · simp [ho]

/-- The jobs are all visited, and the periods of those visited are the planned ones. -/
theorem visit_replanned (settings : Config.JobsSettings) (now : Nat) (visit : List Job)
    (s : Scheduler) (h : s.Kept) (hids : (visit.map Job.id).Nodup)
    (hin : ∀ job ∈ visit, job.id ∈ s.jobs.map Job.id) :
    let next := visit.foldl (reschedule settings now) s
    next.Kept ∧ Grown s.timers next.timers ∧ next.jobs = s.jobs ∧
      next.isCancelled = s.isCancelled ∧
      ∀ id, next.periodOf id = match visit.find? fun job => job.id = id with
        | some job => job.planned? settings
        | none => s.periodOf id := by
  induction visit generalizing s with
  | nil => exact ⟨h,.refl s.timers,rfl,rfl,fun _ => rfl⟩
  | cons job visit ih =>
    have hjob := reschedule_replanned settings now job h (hin job List.mem_cons_self)
    obtain ⟨hnotin, hids⟩ := List.nodup_cons.mp hids
    have hrest : ∀ other ∈ visit,
        other.id ∈ (reschedule settings now s job).jobs.map Job.id := by
      intro other hother
      rw [hjob.jobs]
      exact hin other (List.mem_cons_of_mem _ hother)
    obtain ⟨hkept, hgrown, hjobs, hcancelled, hperiods⟩ := ih _ hjob.kept hids hrest
    refine ⟨hkept,hjob.grown.trans hgrown,hjobs.trans hjob.jobs,
      hcancelled.trans hjob.isCancelled,?_⟩
    intro id
    have hp := hperiods id
    rw [List.foldl_cons, hp, List.find?_cons]
    by_cases hid : job.id = id
    · have hnone : visit.find? (fun other => other.id = id) = none := by
        rw [List.find?_eq_none]
        intro other hother heq
        have hsame : other.id = job.id := (of_decide_eq_true heq).trans hid.symm
        exact hnotin (hsame ▸ List.mem_map_of_mem hother)
      rw [hnone, hjob.periods id]
      simp [hid]
    · rw [hjob.periods id, if_neg (Ne.symm hid)]
      simp [hid]

theorem find_job_iff (jobs : List Job) (hids : (jobs.map Job.id).Nodup) (id : String) (job : Job) :
    jobs.find? (fun job => job.id = id) = some job ↔ job ∈ jobs ∧ job.id = id := by
  constructor
  · intro hjob
    exact ⟨List.mem_of_find?_eq_some hjob,by simpa using List.find?_some hjob⟩
  · rintro ⟨hmem, hid⟩
    cases hother : jobs.find? (fun job => job.id = id) with
    | none => simpa [hid] using List.find?_eq_none.mp hother job hmem
    | some other =>
      have hmem' := List.mem_of_find?_eq_some hother
      have hid' : other.id = id := by simpa using List.find?_some hother
      rw [List.inj_on_of_nodup_map hids hmem' hmem (hid'.trans hid.symm)]

/-- Whichever way the jobs are visited, a job is found by its id. -/
theorem find_perm (visit jobs : List Job) (h : visit.Perm jobs) (hids : (jobs.map Job.id).Nodup)
    (id : String) :
    visit.find? (fun job => job.id = id) = jobs.find? (fun job => job.id = id) := by
  have hvisit : (visit.map Job.id).Nodup := (h.map Job.id).nodup_iff.mpr hids
  apply Option.ext
  intro job
  rw [find_job_iff visit hvisit, find_job_iff jobs hids, h.mem_iff]

theorem applyVia_replanned (visit : List Job) (settings : Config.JobsSettings) (now : Nat)
    (h : s.Kept) (hvisit : visit.Perm s.jobs) :
    (s.applyVia visit settings now).Kept ∧
      Grown s.timers (s.applyVia visit settings now).timers ∧
      (s.applyVia visit settings now).jobs = s.jobs ∧
      (s.applyVia visit settings now).isCancelled = s.isCancelled ∧
      ∀ id, (s.applyVia visit settings now).periodOf id =
        (s.job? id).bind fun job => job.planned? settings := by
  have hids : (visit.map Job.id).Nodup := (hvisit.map Job.id).nodup_iff.mpr h.ids
  have hin : ∀ job ∈ visit, job.id ∈ s.jobs.map Job.id :=
    fun job hjob => List.mem_map_of_mem (hvisit.mem_iff.mp hjob)
  obtain ⟨hkept, hgrown, hjobs, hcancelled, hperiods⟩ :=
    visit_replanned settings now visit s h hids hin
  refine ⟨⟨hkept.ids,hkept.entries,hkept.noted,hkept.live,hkept.uncancelled⟩,hgrown,hjobs,hcancelled,?_⟩
  intro id
  have hperiod := hperiods id
  rw [find_perm visit s.jobs hvisit h.ids id] at hperiod
  refine Eq.trans hperiod ?_
  change _ = (s.jobs.find? fun job => job.id = id).bind _
  cases hjob : s.jobs.find? fun job => job.id = id with
  | some job => rfl
  | none =>
    -- who is not registered has no timer
    have hnone : s.timerOf id = none := by
      cases hn : s.timerOf id with
      | none => rfl
      | some n =>
        have hreg := (h.entry_iff id).mp (entry_of_timer id n hn)
        rw [← job_isSome_iff, job?, hjob] at hreg
        cases hreg
    simp [periodOf, hnone]

/-! ## Ticks in between -/

/-- Nothing that the timetable is about has changed. -/
structure Untouched (s s' : Scheduler) : Prop where
  jobs : s'.jobs = s.jobs
  schedules : s'.schedules = s.schedules
  scheduled : s'.board.scheduled = s.board.scheduled
  settings : s'.settings = s.settings
  stage : s'.stage = s.stage
  isCancelled : s'.isCancelled = s.isCancelled
  plans : s'.timers.map Timer.plan = s.timers.map Timer.plan

theorem Untouched.refl (s : Scheduler) : Untouched s s := ⟨rfl,rfl,rfl,rfl,rfl,rfl,rfl⟩

theorem Untouched.trans {t u : Scheduler} (h : Untouched s t) (k : Untouched t u) :
    Untouched s u where
  jobs := k.jobs.trans h.jobs
  schedules := k.schedules.trans h.schedules
  scheduled := k.scheduled.trans h.scheduled
  settings := k.settings.trans h.settings
  stage := k.stage.trans h.stage
  isCancelled := k.isCancelled.trans h.isCancelled
  plans := k.plans.trans h.plans

theorem onTimer_untouched (s : Scheduler) (number : Nat) (f : Timer → Timer)
    (hf : ∀ t, (f t).plan = t.plan) : Untouched s (s.onTimer number f) := by
  have hplans : (s.timers.modify number f).map Timer.plan = s.timers.map Timer.plan := by
    apply List.ext_getElem?
    intro k
    rw [List.getElem?_map, List.getElem?_map, List.getElem?_modify]
    by_cases hk : number = k
    · simp [hk, hf, Function.comp_def]
    · simp [hk]
  exact ⟨rfl,rfl,rfl,rfl,rfl,rfl,hplans⟩

theorem beginRun_untouched (id : String) (trigger : Trigger) (now : Nat)
    (h : s.beginRun id trigger now = some s') : Untouched s s' := by
  obtain ⟨board, hboard, rfl⟩ := Option.map_eq_some_iff.mp h
  unfold Board.beginRun at hboard
  by_cases hrunning : s.board.isRunning id = true
  · simp [hrunning] at hboard
  · simp only [hrunning, Bool.false_eq_true, if_false, Option.some.injEq] at hboard
    rw [← hboard]
    exact ⟨rfl,rfl,rfl,rfl,rfl,rfl,rfl⟩

theorem record_untouched (s : Scheduler) (number : Nat) (ending : Ending) (now : Nat) :
    Untouched s (s.record number ending now).1 := by
  unfold record
  cases s.runs[number]? with
  | none => exact .refl s
  | some r => exact ⟨rfl,rfl,rfl,rfl,rfl,rfl,rfl⟩

theorem fireTimer_untouched (timer now : Nat) (h : s.fireTimer? timer now = some s') :
    Untouched s s' := by
  obtain ⟨t, -, -, -, rfl | ⟨began, hb, rfl⟩⟩ := fireTimer_eq_some s s' timer now h
  · exact onTimer_untouched s timer _ fun _ => rfl
  · have hbegan := beginRun_untouched t.job .timer now hb
    exact hbegan.trans (onTimer_untouched began timer _ fun _ => rfl)

theorem stopTimer_untouched (timer : Nat) (h : s.stopTimer? timer = some s') : Untouched s s' := by
  obtain ⟨t, -, -, -, rfl⟩ := stopTimer_eq_some s s' timer h
  exact onTimer_untouched s timer _ fun _ => rfl

theorem finishTick_untouched (timer now : Nat) (result : Scheduler × List Metrics.Event)
    (h : s.finishTick? timer now = some result) : Untouched s result.1 := by
  obtain ⟨-, number, -, ending, -, -, -, -, heq⟩ := finishTick_eq_some s timer now result h
  rw [heq]
  exact (record_untouched s number ending now).trans (onTimer_untouched _ timer _ fun _ => rfl)

theorem advanceRun_untouched (number now : Nat) (result : Scheduler × List Metrics.Event)
    (h : s.advanceRun number now = some result) : Untouched s result.1 := by
  obtain ⟨-, ending, -, -, -, heq⟩ := advanceRun_eq_some s number now result h
  rw [heq]
  exact record_untouched s number ending now

theorem handleCall_untouched (now : Nat) (h : s.handleCall? now = some s') : Untouched s s' := by
  obtain ⟨-, number, id, rest, -, rfl⟩ := handleCall_eq_some s s' now h
  rcases trigger_cases s id now with heq | ⟨began, hb, heq⟩
  · rw [heq]
    exact ⟨rfl,rfl,rfl,rfl,rfl,rfl,rfl⟩
  · rw [heq]
    obtain ⟨hjobs, hschedules, hscheduled, hsettings, hstage, hcancelled, hplans⟩ :=
      beginRun_untouched id .manual now hb
    exact ⟨hjobs,hschedules,hscheduled,hsettings,hstage,hcancelled,hplans⟩

theorem call_untouched (s : Scheduler) (id : String) : Untouched s (s.call id).2 := by
  unfold call
  by_cases hover : s.stage = .over
  · simp only [hover, if_true]
    exact ⟨rfl,rfl,rfl,rfl,hover.symm,rfl,rfl⟩
  · simp only [hover, if_false]
    exact ⟨rfl,rfl,rfl,rfl,rfl,rfl,rfl⟩

theorem tick_untouched (now : Nat) (move : Move) (h : move.isTick = true)
    (hs : s.step? now move = some s') : Untouched s s' := by
  cases move with
  | pass millis =>
    cases hs
    exact .refl s
  | call id =>
    cases hs
    exact call_untouched s id
  | handleCall => exact handleCall_untouched now hs
  | stopTimer timer => exact stopTimer_untouched timer hs
  | fireTimer timer => exact fireTimer_untouched timer now hs
  | finishTick timer =>
    obtain ⟨result, hresult, rfl⟩ := Option.map_eq_some_iff.mp hs
    exact finishTick_untouched timer now result hresult
  | endRun number ending =>
    simp only [step?] at hs
    split at hs
    · cases hs
      exact ⟨rfl,rfl,rfl,rfl,rfl,rfl,rfl⟩
    · cases hs
  | finishRun number =>
    simp only [step?] at hs
    split at hs
    · obtain ⟨result, hresult, rfl⟩ := Option.map_eq_some_iff.mp hs
      exact advanceRun_untouched number now result hresult
    · cases hs
  | _ => cases h

/-! The timetable only depends on what the timers were started for and which are cancelled. -/

theorem live_iff_plan (timers : List Timer) (id : String) (n : Nat) :
    Live timers id n ↔ ∃ period, (timers.map Timer.plan)[n]? = some (id, period, false) := by
  unfold Live
  rw [List.getElem?_map]
  cases timers[n]? with
  | none => simp
  | some t => simp [Timer.plan]

theorem periodAt_eq_plan (timers : List Timer) (n : Nat) :
    periodAt timers n = ((timers.map Timer.plan)[n]?).map fun plan => plan.2.1 := by
  rw [periodAt, List.getElem?_map, Option.map_map]
  rfl

theorem Untouched.periodOf (h : Untouched s s') (id : String) : s'.periodOf id = s.periodOf id := by
  have hat : periodAt s'.timers = periodAt s.timers := by
    funext n
    rw [periodAt_eq_plan, periodAt_eq_plan, h.plans]
  rw [Scheduler.periodOf, Scheduler.periodOf, hat, timerOf, timerOf, h.schedules]

theorem Untouched.kept (h : Untouched s s') (hs : s.Kept) : s'.Kept := by
  constructor
  · rw [h.jobs]
    exact hs.ids
  · rw [h.schedules, h.jobs]
    exact hs.entries
  · intro id
    rw [h.scheduled, h.periodOf]
    exact hs.noted id
  · intro id n
    rw [live_iff_plan, h.plans, ← live_iff_plan, timerOf, h.schedules]
    exact hs.live id n
  · exact h.isCancelled.trans hs.uncancelled

theorem Untouched.grown (h : Untouched s s') : Grown s.timers s'.timers := by
  intro n t ht
  have hplan := congrArg (fun plans => plans[n]?) h.plans
  simp only [List.getElem?_map, ht, Option.map_some] at hplan
  obtain ⟨t', ht', hsame⟩ := Option.map_eq_some_iff.mp hplan
  simp only [Timer.plan, Prod.mk.injEq] at hsame
  obtain ⟨hjob, hperiod, hcancelled⟩ := hsame
  exact ⟨t',ht',hjob,hperiod,fun hc => hcancelled.trans hc⟩

/-! ## Main statement -/

theorem reconfigureVia_kept (visit : List Job) (change : Config.Change Config.JobsSettings)
    (now : Nat) (h : s.Kept) (hvisit : visit.Perm s.jobs) :
    (s.reconfigureVia visit change now).Kept ∧
      Grown s.timers (s.reconfigureVia visit change now).timers := by
  unfold reconfigureVia
  cases change.both with
  | none => exact ⟨h,.refl s.timers⟩
  | some sides =>
    obtain ⟨hkept, hgrown, -⟩ := applyVia_replanned visit sides.2 now h hvisit
    exact ⟨hkept,hgrown⟩

theorem step_kept (hs : Step s s') (h : s.Kept) : s'.Kept ∧ Grown s.timers s'.timers := by
  cases hs with
  | register job =>
    refine ⟨register_kept job h,?_⟩
    unfold register
    by_cases hknown : (s.job? job.id).isSome = true
    · rw [if_pos hknown]
      exact .refl s.timers
    · rw [if_neg hknown]
      exact .refl s.timers
  | schedule id period now =>
    have hcases := schedule_cases s id period now
    generalize s.schedule id period now = result at hcases
    cases hcases with
    | started hentry _ =>
      have hstarted := started_replanned id period now h hentry
      exact ⟨hstarted.kept,hstarted.grown⟩
    | _ => exact ⟨h,.refl s.timers⟩
  | cancel id =>
    have hcancel := cancel_replanned id h
    exact ⟨hcancel.kept,hcancel.grown⟩
  | apply visit settings now hvisit =>
    obtain ⟨hkept, hgrown, -⟩ := applyVia_replanned visit settings now h hvisit
    exact ⟨hkept,hgrown⟩
  | change visit change now hvisit => exact reconfigureVia_kept visit change now h hvisit
  | tick _ now move hmove hs =>
    have huntouched := tick_untouched now move hmove hs
    exact ⟨huntouched.kept h,huntouched.grown⟩

theorem leads_kept (hs : Leads s s') (h : s.Kept) : s'.Kept ∧ Grown s.timers s'.timers := by
  induction hs with
  | refl => exact ⟨h,.refl s.timers⟩
  | tail _ hstep ih =>
    obtain ⟨hkept, hgrown⟩ := ih
    obtain ⟨hkept', hgrown'⟩ := step_kept hstep hkept
    exact ⟨hkept',hgrown.trans hgrown'⟩

/-- What can be told of the timetable between two calls. -/
structure Timetable (s : Scheduler) : Prop where
  entries : ∀ id, (s.schedules.lookup id).isSome = true ↔ (s.job? id).isSome = true
  board : ∀ id period, s.periodOf id = some period ↔ s.board.scheduled.lookup id = some period
  /-- Of all timers that were ever started only those that jobs have are not cancelled. -/
  timers : ∀ id n, s.timerOf id = some n ↔ Live s.timers id n
  single : ∀ id m n, Live s.timers id m → Live s.timers id n → m = n
  /-- A number stays with its timer, whatever is called from now on. -/
  numbers : ∀ s', Leads s s' → Grown s.timers s'.timers
  refused : ∀ id period now e, (s.schedule id period now).1 = .error e →
    (s.schedule id period now).2 = s ∧
      (e = .notFound id ∧ s.job? id = none ∨
        e = .alreadyScheduled id ∧ (s.timerOf id).isSome = true ∨
        e = .invalidPeriod id ∧ period = 0)
  started : ∀ id period now n, (s.schedule id period now).1 = .ok n → s.timers[n]? = none ∧
    (s.schedule id period now).2.timerOf id = some n ∧
    ∀ other, (s.schedule id period now).2.periodOf other =
      if other = id then some period else s.periodOf other
  /-- In whichever order the jobs are visited. -/
  applied : ∀ visit settings now, visit.Perm s.jobs → ∀ id period,
    (s.applyVia visit settings now).periodOf id = some period ↔
      ∃ job, s.job? id = some job ∧ (job.settings settings).disabled = false ∧
        (job.settings settings).periodMillis = period ∧ 0 < period

theorem Kept.refused (h : s.Kept) (id : String) (period now : Nat) (e : JobError)
    (he : (s.schedule id period now).1 = .error e) :
    (s.schedule id period now).2 = s ∧
      (e = .notFound id ∧ s.job? id = none ∨
        e = .alreadyScheduled id ∧ (s.timerOf id).isSome = true ∨
        e = .invalidPeriod id ∧ period = 0) := by
  have hcases := schedule_cases s id period now
  generalize s.schedule id period now = result at hcases he
  cases hcases with
  | unknown hnone =>
    cases he
    have hjob : ¬ (s.job? id).isSome = true := by
      rw [job_isSome_iff, ← h.entry_iff, hnone]
      simp
    exact ⟨rfl,Or.inl ⟨rfl,Option.not_isSome_iff_eq_none.mp hjob⟩⟩
  | already n hn =>
    cases he
    have htimer : (s.timerOf id).isSome = true := by simp [timerOf, hn]
    exact ⟨rfl,Or.inr (Or.inl ⟨rfl,htimer⟩)⟩
  | zero _ hzero =>
    cases he
    exact ⟨rfl,Or.inr (Or.inr ⟨rfl,hzero⟩)⟩
  | started => cases he

theorem Kept.started (h : s.Kept) (id : String) (period now n : Nat)
    (hn : (s.schedule id period now).1 = .ok n) :
    s.timers[n]? = none ∧ (s.schedule id period now).2.timerOf id = some n ∧
      ∀ other, (s.schedule id period now).2.periodOf other =
        if other = id then some period else s.periodOf other := by
  have hcases := schedule_cases s id period now
  generalize s.schedule id period now = result at hcases hn
  cases hcases with
  | started hentry _ =>
    cases hn
    have hfree : s.timers[s.timers.length]? = none := List.getElem?_eq_none (Nat.le_refl _)
    have hstarted := started_replanned id period now h hentry
    have htimer := timerOf_setTimer s id id (some s.timers.length) (by rw [hentry]; rfl)
    rw [if_pos rfl] at htimer
    exact ⟨hfree,htimer,hstarted.periods⟩
  | _ => cases hn

/-- Whatever a scheduler has been told to do since it was made, and whichever of its ticks came in
between, its timetable holds. -/
theorem calls_keep_timetable (first : Config.JobsSettings) (s : Scheduler)
    (hs : Leads (new first) s) : s.Timetable := by
  obtain ⟨h, -⟩ := leads_kept hs (new_kept first)
  constructor
  · intro id
    rw [h.entry_iff, job_isSome_iff]
  · intro id period
    rw [h.noted id]
  · exact h.live
  · intro id m n hm hn
    have hfirst := (h.live id m).mpr hm
    have hsecond := (h.live id n).mpr hn
    exact Option.some.inj (hfirst.symm.trans hsecond)
  · intro s' hs'
    exact (leads_kept hs' h).2
  · exact h.refused
  · exact h.started
  · intro visit settings now hvisit id period
    obtain ⟨-, -, -, -, hperiods⟩ := applyVia_replanned visit settings now h hvisit
    simp only [hperiods, Option.bind_eq_some_iff, Job.planned_eq_some_iff]

/-- Two jobs are scheduled, the later one first, and the first is then taken off again. -/
theorem two_jobs_keep_timetable :
    let first : Job := updateStatusJob
    let second : Job := { updateStatusJob with id := "second", settings := fun _ => ⟨false, 300⟩ }
    let registered := ((new ⟨⟨false, 100⟩⟩).register first).register second
    let applied := registered.applyVia [second, first] ⟨⟨false, 100⟩⟩ 0
    let s := (applied.cancel first.id).2
    (applied.periodOf first.id = some 100 ∧ applied.periodOf second.id = some 300) ∧
      (s.periodOf first.id = none ∧ s.periodOf second.id = some 300) ∧
      Leads (new ⟨⟨false, 100⟩⟩) s ∧ s.Timetable := by
  intro first second registered applied s
  have hjobs : registered.jobs = [first, second] := by rfl
  have hvisit : [second, first].Perm registered.jobs := hjobs ▸ List.Perm.swap first second []
  have hregistered : Leads (new ⟨⟨false, 100⟩⟩) registered :=
    .tail (.single (.register _ first)) (.register _ second)
  have hs : Leads (new ⟨⟨false, 100⟩⟩) s :=
    .tail (.tail hregistered (.apply _ _ _ 0 hvisit)) (.cancel applied first.id)
  exact ⟨by decide +kernel,by decide +kernel,hs,calls_keep_timetable _ s hs⟩

end Scheduler
end VmFleet.Jobs
