import VmFleet.Proofs.Jobs.Timetable

/-!
# What comes of scheduling the jobs

When settings are applied each job that they enable is scheduled, one job after another in any order.
At any moment in the life of a scheduler, also when it is about to end, this fails for no other reason
than that the settings of a job give it a period of zero.
-/

set_option autoImplicit false

namespace VmFleet.Jobs.Scheduler

/-- A job that settings enable, and what came of scheduling it. -/
structure Attempt where
  job : Job
  outcome : Except JobError Nat

/-- The attempts that are made while the jobs are visited in this order. -/
def attempts (settings : Config.JobsSettings) (now : Nat) : Scheduler → List Job → List Attempt
  | _, [] => []
  | s, job :: rest =>
    let own := job.settings settings
    let attempt : Attempt := ⟨job,((s.cancel job.id).2.schedule job.id own.periodMillis now).1⟩
    (if own.disabled then [] else [attempt]) ++
      attempts settings now (reschedule settings now s job) rest

/-- What may come to pass with a scheduler. It visits its jobs in any order when it enters its loop. -/
inductive Goes : Scheduler → Scheduler → Prop
  | step (s s' : Scheduler) (h : Step s s') : Goes s s'
  | shutdown (s : Scheduler) : Goes s s.shutdown
  | staged (s s' : Scheduler) (now : Nat) (h : Staged s now s') : Goes s s'
  | enter (s : Scheduler) (visit : List Job) (now : Nat) (h : visit.Perm s.jobs) :
      Goes s { s.applyVia visit s.settings now with stage := .serving }

/-- States that a new scheduler can come to. -/
def Reached (s : Scheduler) : Prop := ∃ first, Relation.ReflTransGen Goes (new first) s

/-! ## Everybody has an entry -/

/-- The entries are those of the registered jobs. -/
def Enrolled (s : Scheduler) : Prop := s.schedules.map Prod.fst = s.jobs.map Job.id

/-- Nobody is registered, and no entry is made or removed. -/
structure SameRoll (s s' : Scheduler) : Prop where
  jobs : s'.jobs = s.jobs
  entries : s'.schedules.map Prod.fst = s.schedules.map Prod.fst

variable {s s' : Scheduler} {settings : Config.JobsSettings} {now : Nat}

theorem SameRoll.refl (s : Scheduler) : SameRoll s s := ⟨rfl,rfl⟩

theorem SameRoll.trans {t u : Scheduler} (h : SameRoll s t) (k : SameRoll t u) : SameRoll s u :=
  ⟨k.jobs.trans h.jobs,k.entries.trans h.entries⟩

theorem SameRoll.enrolled (h : SameRoll s s') (hs : s.Enrolled) : s'.Enrolled := by
  rw [Enrolled, h.entries, h.jobs]
  exact hs

theorem schedule_roll (s : Scheduler) (id : String) (period now : Nat) :
    SameRoll s (s.schedule id period now).2 := by
  have hcases := schedule_cases s id period now
  generalize s.schedule id period now = result at hcases
  cases hcases with
  | started => exact ⟨rfl,setTimer_names s id _⟩
  | _ => exact .refl s

theorem cancel_roll (s : Scheduler) (id : String) : SameRoll s (s.cancel id).2 := by
  unfold cancel
  split
  · exact .refl s
  · exact ⟨rfl,setTimer_names s id none⟩

theorem reschedule_roll (settings : Config.JobsSettings) (now : Nat) (s : Scheduler) (job : Job) :
    SameRoll s (reschedule settings now s job) :=
  reschedule_keeps SameRoll SameRoll.trans schedule_roll cancel_roll settings now s job

theorem applyVia_roll (s : Scheduler) (visit : List Job) (settings : Config.JobsSettings)
    (now : Nat) : SameRoll s (s.applyVia visit settings now) := by
  have hvisited :=
    visits_keep SameRoll SameRoll.refl SameRoll.trans schedule_roll cancel_roll settings now visit s
  exact ⟨hvisited.jobs,hvisited.entries⟩

theorem register_enrolled (job : Job) (h : s.Enrolled) : (s.register job).Enrolled := by
  unfold register
  split
  · exact h
  · rw [Enrolled, List.map_append, List.map_append, show _ = _ from h]
    rfl

theorem step_enrolled (hs : Step s s') (h : s.Enrolled) : s'.Enrolled := by
  cases hs with
  | register job => exact register_enrolled job h
  | schedule id period now => exact (schedule_roll s id period now).enrolled h
  | cancel id => exact (cancel_roll s id).enrolled h
  | apply visit settings now _ => exact (applyVia_roll s visit settings now).enrolled h
  | change visit change now _ =>
    unfold reconfigureVia
    split
    · exact (applyVia_roll s visit _ now).enrolled h
    · exact h
  | tick _ now move hmove hs =>
    have huntouched := tick_untouched now move hmove hs
    rw [Enrolled, huntouched.schedules, huntouched.jobs]
    exact h

theorem staged_roll (h : Staged s now s') : SameRoll s s' := by
  cases h with
  | started _ h => exact h ▸ ⟨rfl,rfl⟩
  | dropped _ h => exact h ▸ ⟨rfl,rfl⟩
  | entered h =>
    obtain ⟨-, rfl⟩ := enter_eq_some s s' now h
    have hroll := applyVia_roll s s.jobs s.settings now
    exact ⟨hroll.jobs,hroll.entries⟩
  | closing h =>
    obtain ⟨-, -, rfl⟩ := beginClosing_eq_some s s' h
    exact ⟨rfl,by simp [beginClosing, Function.comp_def]⟩
  | next h =>
    rcases closeNext_cases s s' now h with ⟨-, rfl⟩ | ⟨_, _, _, -, ⟨-, rfl⟩ | rfl⟩ <;> exact ⟨rfl,rfl⟩

theorem goes_enrolled (hs : Goes s s') (h : s.Enrolled) : s'.Enrolled := by
  cases hs with
  | step _ h' => exact step_enrolled h' h
  | shutdown => exact h
  | staged _ now h' => exact (staged_roll h').enrolled h
  | enter visit now _ => exact (applyVia_roll s visit s.settings now).enrolled h

theorem Reached.enrolled (h : s.Reached) : s.Enrolled := by
  obtain ⟨first, hs⟩ := h
  induction hs with
  | refl => rfl
  | tail _ hgoes ih => exact goes_enrolled hgoes ih

/-! ## Main statement -/

/-- A registered job that is scheduled right after it was cancelled gets a timer, unless the period is
zero. -/
theorem schedule_cancelled (h : s.Enrolled) (id : String) (hid : id ∈ s.jobs.map Job.id)
    (period now : Nat) :
    (∃ number, ((s.cancel id).2.schedule id period now).1 = .ok number) ∨
      ((s.cancel id).2.schedule id period now).1 = .error (.invalidPeriod id) ∧ period = 0 := by
  have hentry := cancel_entry id ((lookup_isSome_iff s.schedules id).mpr (show _ from h ▸ hid))
  have hcases := schedule_cases (s.cancel id).2 id period now
  generalize (s.cancel id).2.schedule id period now = result at hcases
  cases hcases with
  | unknown hnone => simp [hentry] at hnone
  | already n hn => simp [hentry] at hn
  | zero _ hzero => exact Or.inr ⟨rfl,hzero⟩
  | started => exact Or.inl ⟨_,rfl⟩

/-- Whatever the settings are, only periods of zero cannot be scheduled. -/
theorem attempts_fail_at_zero (h : s.Enrolled) (visit : List Job)
    (hvisit : ∀ job ∈ visit, job.id ∈ s.jobs.map Job.id) :
    ∀ a ∈ attempts settings now s visit, (a.job.settings settings).disabled = false ∧
      ((∃ number, a.outcome = .ok number) ∨ a.outcome = .error (.invalidPeriod a.job.id) ∧
        (a.job.settings settings).periodMillis = 0) := by
  induction visit generalizing s with
  | nil => simp [attempts]
  | cons job rest ih =>
    obtain ⟨hjob, hrest⟩ := List.forall_mem_cons.mp hvisit
    have hroll := reschedule_roll settings now s job
    have hlater := ih (hroll.enrolled h) (by rwa [hroll.jobs])
    intro a ha
    rcases List.mem_append.mp ha with ha | ha
    · split at ha
      · cases ha
      · rename_i henabled
        cases List.mem_singleton.mp ha
        exact ⟨Bool.eq_false_iff.mpr henabled,schedule_cancelled h job.id hjob _ now⟩
    · exact hlater a ha

end VmFleet.Jobs.Scheduler
