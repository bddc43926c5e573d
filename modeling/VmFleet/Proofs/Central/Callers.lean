import VmFleet.Jobs.Script
import VmFleet.Proofs.Central.Tallies

/-!
# The central side as an office

A program submits tasks and asks for other effects in between; it records nothing about tasks on its
own. So do all programs of the central side. However far the central side gets with such a program,
an office can get as far, while what others have submitted stays as it is; and what a timer or a tick
started by hand does is a move there, with the same events.
-/

set_option autoImplicit false

namespace VmFleet

open Tasks

/-- A task as somebody submits it. -/
inductive Tasks.Submission.IsNew : Submission → Prop
  | trust (t : Task) (p : Security.Principal) : IsNew (.trust t p)
  | submit (t : Task) (accountId : String) : IsNew (.submit t accountId)

theorem Tasks.Submission.IsNew.effect_isSome {b : Submission} (h : b.IsNew) :
    b.effect?.isSome = true := by
  cases h with
  | trust t p => exact Submission.effect_of_reports t _ true (submitTrusted_reports t p)
  | submit t accountId => rfl

namespace Program

variable {α β : Type}

/-- All that the program records, besides requests, are tasks that it has submitted. -/
inductive Submits : Program α → Prop
  | done (a : α) : Submits (.done a)
  | other (e : Effect) (next : e.Answer → Program α) (h : e.isAside = true)
      (hnext : ∀ answer, Submits (next answer)) : Submits (.perform e next)
  | task (p : Program α) (b : Submission) (hb : b.IsNew)
      (next : Except TaskError b.task.Result → Program α) (hp : p = b.rest.bind next)
      (hnext : ∀ result, Submits (next result)) : Submits p

theorem submits_bind (p : Program α) (f : α → Program β) (h : p.Submits)
    (hf : ∀ a, (f a).Submits) : (p.bind f).Submits := by
  induction h with
  | done a => exact hf a
  | other e next haside _ ih => exact .other e _ haside ih
  | task p b hb next hp _ ih =>
    exact .task _ b hb (fun result => (next result).bind f) (by rw [hp, bind_bind]) ih

theorem submits_new (b : Submission) (hb : b.IsNew) : b.rest.Submits :=
  .task _ b hb .done (bind_done b.rest).symm .done

def aside : Terms := ⟨fun e => e.isAside = true,fun _ _ => True⟩

theorem submits_of_within (p : Program α) (h : p.Within aside) : p.Submits := by
  induction p with
  | done a => exact .done a
  | perform e next ih => exact .other e next h.1 fun answer => ih answer (h.2 answer trivial)

end Program

/-! ## Programs of the central side -/

namespace Tasks

theorem submitTrusted_submits (t : Task) (p : Security.Principal) :
    (t.submitTrusted p).run.Submits := Program.submits_new _ (.trust t p)

theorem submit_submits (t : Task) (accountId : String) : (t.submit accountId).run.Submits :=
  Program.submits_new _ (.submit t accountId)

theorem provision_submits (m : Machine) : (provision m).run.Submits :=
  Program.submits_of_within _
    (provision_within _ m (fun _ _ => rfl) (fun _ _ => rfl) fun _ _ _ => rfl)

end Tasks

namespace Jobs

variable {α β : Type}

theorem submits_steps (a : Steps α) (f : α → Steps β) (h : a.run.Submits)
    (hf : ∀ x, (f x).run.Submits) : (a >>= f).run.Submits := by
  apply Program.submits_bind _ _ h
  intro result
  cases result with
  | ok x => exact hf x
  | error e => exact .done _

theorem stopIfCancelled_submits : stopIfCancelled.run.Submits := by
  refine .other .isCancelled _ rfl fun isCancelled => ?_
  cases isCancelled <;> exact .done _

theorem perform_submits (t : Task) : (perform t).run.Submits :=
  Program.submits_bind _ _ (submitTrusted_submits t jobPrincipal) fun _ => .done _

theorem updateStatuses_submits : updateStatuses.run.Submits := by
  apply submits_steps _ _ stopIfCancelled_submits
  intro _
  apply submits_steps _ _ (perform_submits .getAllVms)
  intro machines
  dsimp only
  split
  · exact .done _
  · apply submits_steps _ _ stopIfCancelled_submits
    intro _
    exact submits_steps _ _ (perform_submits _) fun _ => .done _

theorem updateStatusJob_submits (n : Nat) : (updateStatusJob.work n).Submits :=
  Program.submits_bind _ _ updateStatuses_submits fun _ => .done _

theorem waitRounds_submits (millis rounds : Nat) : (waitRounds millis rounds).run.Submits := by
  induction rounds with
  | zero => exact .done _
  | succ rounds ih =>
    apply submits_steps _ _ stopIfCancelled_submits
    intro _
    exact submits_steps _ _ (.other _ _ rfl fun _ => .done _) fun _ => ih

theorem behaviour_submits (b : Behaviour) : b.work.Submits := by
  have hsteps : b.steps.run.Submits := by
    cases b with
    | slow millis => exact .other _ _ rfl fun _ => .done _
    | untilCancelled rounds millis => exact waitRounds_submits millis rounds
    | getVm id => exact submits_steps _ _ (perform_submits _) fun _ => .done _
    | child => exact .other _ _ rfl fun _ => .done _
    | _ => exact .done _
  cases b with
  | panic message => exact .done _
  | _ => exact Program.submits_bind _ _ hsteps fun _ => .done _

end Jobs

namespace Central

open Jobs Delegation

namespace Office

variable {α : Type}

/-! ## Programs in an office -/

/-- How far the office is with a program: it goes on by itself, or it is in the middle of the
submission with this number. -/
inductive Serves (o : Office) : Option Nat → Program α → Prop
  | free (p : Program α) (h : p.Submits) : Serves o none p
  | within (p : Program α) (n : Nat) (b : Submission) (hb : o.submissions[n]? = some b)
      (next : Except TaskError b.task.Result → Program α) (hp : p = b.rest.bind next)
      (hnext : ∀ result, (next result).Submits) : Serves o (some n) p

/-- The office has gone on with at most this submission, and with new ones. -/
structure Goes (o o' : Office) (own own' : Option Nat) : Prop where
  moment : o'.moment = o.moment
  length : o.submissions.length ≤ o'.submissions.length
  others : ∀ k < o.submissions.length, own ≠ some k → o'.submissions[k]? = o.submissions[k]?
  own : ∀ k, own' = some k → own = some k ∨ o.submissions.length ≤ k

theorem Goes.refl (o : Office) (own : Option Nat) : Goes o o own own :=
  ⟨rfl,Nat.le_refl _,fun _ _ _ => rfl,fun _ => Or.inl⟩

theorem Goes.trans {o o' o'' : Office} {own own' own'' : Option Nat} (h : Goes o o' own own')
    (h' : Goes o' o'' own' own'') : Goes o o'' own own'' := by
  refine ⟨h'.moment.trans h.moment,Nat.le_trans h.length h'.length,?_,?_⟩
  · intro k hk hne
    refine (h'.others k (Nat.lt_of_lt_of_le hk h.length) ?_).trans (h.others k hk hne)
    intro heq
    rcases h.own k heq with hown | hlen
    · exact hne hown
    · exact absurd hk (Nat.not_lt_of_le hlen)
  · intro k hk
    rcases h'.own k hk with hown | hlen
    · exact h.own k hown
    · exact Or.inr (Nat.le_trans h.length hlen)

theorem Goes.of_none {o o' : Office} {own' : Option Nat} (h : Goes o o' none own')
    (own : Option Nat) : Goes o o' own own' := by
  refine ⟨h.moment,h.length,fun k hk _ => h.others k hk (Option.some_ne_none k).symm,?_⟩
  intro k hk
  rcases h.own k hk with hnone | hlen
  · cases hnone
  · exact Or.inr hlen

/-- The office answers the next effect of a program and goes on with what comes then. -/
def Answers (o : Office) (own : Option Nat) (s : Supply) (e : Effect)
    (next : e.Answer → Program α) : Prop :=
  ∃ turns own', Goes o (o.after turns) own own' ∧
    (o.after turns).records = (o.records.respond s e).2.1 ∧
    (o.after turns).Serves own' (next (o.records.respond s e).1)

theorem within_answers (o : Office) (n : Nat) (s : Supply) (e : Effect) (t : Task)
    (isResolved : Bool) (rest : e.Answer → Program (Except TaskError t.Result))
    (hb : o.submissions[n]? = some ⟨t, .perform e rest, isResolved⟩)
    (f : Except TaskError t.Result → Program α) (hf : ∀ result, (f result).Submits) :
    o.Answers (some n) s e fun answer => (rest answer).bind f := by
  have hasked : o.asked? n = some e := by
    rw [asked?, hb]
    rfl
  have hplay : o.after [.go n s] = { o with
      records := (o.records.respond s e).2.1
      submissions := o.submissions.modify n
        (Submission.go fun e => (o.records.respond s e).1) } := by
    change o.play (.go n s) = _
    simp only [play, hasked]
  refine ⟨[.go n s],some n,?_,by rw [hplay],?_⟩
  · rw [hplay]
    refine ⟨rfl,Nat.le_of_eq (List.length_modify ..).symm,fun k _ hne => ?_,fun _ => Or.inl⟩
    exact List.getElem?_modify_ne _ _ fun hk => hne (congrArg some hk)
  · rw [hplay]
    refine .within _ n ⟨t,rest (o.records.respond s e).1,
      isResolved || Submission.finds e (o.records.respond s e).1⟩ ?_ f rfl hf
    rw [List.getElem?_modify_eq, hb]
    rfl

theorem new_turn (o : Office) (b : Submission) (hb : b.IsNew) :
    ∃ turn, o.play turn = { o with submissions := o.submissions ++ [b] } := by
  cases hb with
  | trust t p => exact ⟨.trust t p,rfl⟩
  | submit t accountId => exact ⟨.submit t accountId,rfl⟩

theorem free_answers (o : Office) (s : Supply) (e : Effect) (next : e.Answer → Program α)
    (h : (Program.perform e next).Submits) : o.Answers none s e next := by
  cases h with
  | other _ _ haside hnext =>
    have hplay : o.after [.other e s] = { o with records := (o.records.respond s e).2.1 } :=
      if_pos haside
    refine ⟨[.other e s],none,?_,by rw [hplay],.free _ (hnext _)⟩
    rw [hplay]
    exact ⟨rfl,Nat.le_refl _,fun _ _ _ => rfl,fun _ => Or.inl⟩
  | task _ b hb f hp hnext =>
    obtain ⟨turn, hturn⟩ := o.new_turn b hb
    obtain ⟨t, rest, isResolved⟩ := b
    cases rest with
    | done result => exact absurd hb.effect_isSome Bool.false_ne_true
    | perform e' rest =>
    cases hp
    have hlast : (o.play turn).submissions[o.submissions.length]? =
        some ⟨t, .perform e rest, isResolved⟩ := by
      rw [hturn]
      exact List.getElem?_concat_length
    obtain ⟨turns, own', hgoes, hrecords, hserves⟩ :=
      (o.play turn).within_answers _ s e t isResolved rest hlast f hnext
    have hbegun : Goes o (o.play turn) none (some o.submissions.length) := by
      rw [hturn]
      refine ⟨rfl,by simp,fun k hk _ => List.getElem?_append_left hk,fun k hk => ?_⟩
      exact Or.inr (Nat.le_of_eq (Option.some.inj hk))
    have hsame : (o.play turn).records = o.records := by rw [hturn]
    rw [hsame] at hrecords hserves
    exact ⟨turn :: turns,own',hbegun.trans hgoes,hrecords,hserves⟩

theorem serves_answers (o : Office) (own : Option Nat) (s : Supply) (e : Effect)
    (next : e.Answer → Program α) (h : o.Serves own (.perform e next)) :
    o.Answers own s e next := by
  cases h with
  | free _ h => exact free_answers o s e next h
  | within _ n b hb f hp hnext =>
    obtain ⟨t, rest, isResolved⟩ := b
    cases rest with
    | done result =>
      -- the submission has returned, and the program goes on by itself
      have hsubmits : (Program.perform e next).Submits := hp ▸ hnext result
      obtain ⟨turns, own', hgoes, hrest⟩ := free_answers o s e next hsubmits
      exact ⟨turns,own',hgoes.of_none (some n),hrest⟩
    | perform e' rest =>
      cases hp
      exact within_answers o n s e t isResolved rest hb f hnext

/-! ## The central side in an office -/

/-- The office has the records, the scheduler and the time of the central side. -/
structure Shows (o : Office) (w : World) : Prop where
  records : o.records = w.records
  scheduler : w.scheduler = some o.moment.scheduler
  now : o.moment.now = w.now

theorem proceed_records (isCancelled : Bool) (p : Program α) (wait : Wait) (w : World) (o : Office)
    (own : Option Nat) (hrecords : o.records = w.records) (h : o.Serves own p) :
    ∃ turns own', Goes o (o.after turns) own own' ∧
      (o.after turns).records = (proceed isCancelled p wait w).2.records ∧
      ∀ t, (proceed isCancelled p wait w).1 = .wait t → (o.after turns).Serves own' t.rest := by
  induction p generalizing wait w o own with
  | done a => exact ⟨[],own,.refl o own,hrecords,fun t ht => nomatch ht⟩
  | perform e next ih =>
    unfold proceed
    cases hr : w.react isCancelled e wait with
    | wait wait' w' =>
      refine ⟨[],own,.refl o own,?_,?_⟩
      · exact hrecords.trans (react_wait w isCancelled e wait wait' w' hr).1.symm
      · intro t ht
        cases ht
        exact h
    | answer answer w' =>
      obtain ⟨started, hreply, -⟩ := react_answer w isCancelled e wait answer w' hr
      obtain ⟨s, hs⟩ := hreply.supplied
      rw [← hrecords] at hs
      obtain ⟨turns, own', hgoes, hsame, hserves⟩ := serves_answers o own s e next h
      rw [hs] at hsame hserves
      obtain ⟨rest, own'', hgoes', hend⟩ :=
        ih answer .nothing w' (o.after turns) own' hsame hserves
      refine ⟨turns ++ rest,own'',?_⟩
      rw [after_append]
      exact ⟨hgoes.trans hgoes',hend⟩

/-- Neither the records nor the scheduler have changed, and no time has passed. -/
structure Apart (w w' : World) : Prop where
  records : w'.records = w.records
  scheduler : w'.scheduler = w.scheduler
  now : w'.now = w.now

theorem Shows.apart {o : Office} {w w' : World} (hs : o.Shows w) (h : Apart w w') : o.Shows w' :=
  ⟨hs.records.trans h.records.symm,h.scheduler.trans hs.scheduler,hs.now.trans h.now.symm⟩

theorem receive_apart (w : World) (name : String) : Apart w (w.receive name).2 := by
  unfold World.receive
  split <;> exact ⟨rfl,rfl,rfl⟩

theorem stepHandler_apart (w : World) (channel : String) (h : Handler) :
    Apart w (w.stepHandler channel h).2 := by
  unfold World.stepHandler
  split <;> exact ⟨rfl,rfl,rfl⟩

theorem notifyWorker_apart (w : World) (n : Nat) (worker : Worker) :
    Apart w (w.notifyWorker n worker).2 := by
  have hreceived := receive_apart w (World.workerName n)
  unfold World.notifyWorker
  split
  · split <;> rename_i hr <;> rw [hr] at hreceived <;>
      exact ⟨hreceived.records,hreceived.scheduler,hreceived.now⟩
  · exact ⟨rfl,rfl,rfl⟩

theorem stepWorker_apart (w : World) (n : Nat) : Apart w (w.stepWorker n).2 := by
  unfold World.stepWorker
  split
  · exact ⟨rfl,rfl,rfl⟩
  · rename_i worker _
    split
    · exact ⟨rfl,rfl,rfl⟩
    · exact ⟨rfl,rfl,rfl⟩
    · exact ⟨rfl,rfl,rfl⟩
    · exact notifyWorker_apart w n worker

theorem stepErrand_apart (w : World) (n errand : Nat) : Apart w (w.stepErrand n errand).2 := by
  unfold World.stepErrand
  split
  · exact ⟨rfl,rfl,rfl⟩
  · split <;> exact ⟨rfl,rfl,rfl⟩

theorem stepWatcher_apart (w : World) (watcher : Config.Watcher) (period due : Nat) :
    Apart w (w.stepWatcher watcher period due).2 := by
  unfold World.stepWatcher
  split
  · exact ⟨rfl,rfl,rfl⟩
  · split <;> exact ⟨rfl,rfl,rfl⟩

/-- No effect of a program is about the scheduler, and time does not pass meanwhile. -/
theorem react_scheduler (w : World) (isCancelled : Bool) (e : Effect) (wait : Wait) :
    (w.react isCancelled e wait).world.scheduler = w.scheduler ∧
      (w.react isCancelled e wait).world.now = w.now := by
  cases e with
  | delegate channel payload =>
    obtain ⟨x, -, hw⟩ := delegate_world w isCancelled channel payload wait
    rw [hw]
    exact ⟨rfl,rfl⟩
  | wait millis =>
    rw [wait_world]
    exact ⟨rfl,rfl⟩
  | _ => exact ⟨rfl,rfl⟩

/-- However far the central side gets with a program, the office can get as far. -/
theorem Shows.proceed {o : Office} {w : World} {own : Option Nat} (hs : o.Shows w)
    (isCancelled : Bool) (p : Program α) (wait : Wait) (h : o.Serves own p) :
    ∃ turns own', Goes o (o.after turns) own own' ∧
      (o.after turns).Shows (proceed isCancelled p wait w).2 ∧
      ∀ t, (Central.proceed isCancelled p wait w).1 = .wait t →
        (o.after turns).Serves own' t.rest := by
  obtain ⟨turns, own', hgoes, hrecords, hserves⟩ :=
    proceed_records isCancelled p wait w o own hs.records h
  obtain ⟨hscheduler, hnow⟩ := proceed_related
    (fun w w' => w'.scheduler = w.scheduler ∧ w'.now = w.now) (fun _ => ⟨rfl,rfl⟩)
    (fun _ _ _ h h' => ⟨h'.1.trans h.1,h'.2.trans h.2⟩) isCancelled
    (fun w => react_scheduler w isCancelled) p wait w
  refine ⟨turns,own',hgoes,⟨hrecords,?_,?_⟩,hserves⟩
  · rw [hscheduler, hs.scheduler, hgoes.moment]
  · rw [hgoes.moment, hs.now, hnow]

theorem Shows.makes {o : Office} {w : World} {next : Scheduler × List Metrics.Event}
    (hs : o.Shows w) (h : o.moment.scheduler.Makes w.now next) :
    ∃ turns, (o.after turns).Shows ((w.setScheduler next.1).record next.2) := by
  obtain ⟨move, hstep, hinstant⟩ := h
  rw [← hs.now] at hstep
  have hnext : o.moment.scheduler.step? o.moment.now move = some next.1 := by
    rw [← Scheduler.stepWith_step, hstep]
    rfl
  have hevents : o.moment.recorded move = next.2 := by
    rw [Moment.recorded, hstep]
    rfl
  refine ⟨[.move move],?_,?_,?_⟩
  · change (o.moment.recorded move).foldl Records.record o.records = _
    rw [hevents, hs.records]
    rfl
  · change _ = some (o.moment.play move).scheduler
    simp only [Moment.play, hnext]
    rfl
  · refine Eq.trans ?_ hs.now
    cases move with
    | pass millis => cases hinstant
    | _ => rfl

/-- An activity that the office can follow: its program is served, and the tick is one that is still to
be ended, or one that was started by hand. -/
def Follows (o : Office) (own : Option Nat) : Activity → Prop
  | .provisioning t => o.Serves own t.rest
  | .inquiry _ t => o.Serves own t.rest
  | .work run t => o.Serves own t.rest ∧ o.moment.scheduler.endingOf run = none
  | .manual run => ∀ r, o.moment.scheduler.runs[run]? = some r → r.trigger = .manual
  | _ => True

theorem stepTimer_shown {o : Office} {w : World} (hs : o.Shows w) (n : Nat) :
    ∃ turns, (o.after turns).Shows (w.stepTimer o.moment.scheduler n).2 := by
  unfold World.stepTimer
  cases ha : o.moment.scheduler.advanceTimer n w.now with
  | none => exact ⟨[],hs⟩
  | some next => exact hs.makes (Scheduler.advanceTimer_makes ha)

theorem stepManual_shown {o : Office} {w : World} (hs : o.Shows w) (run : Nat)
    (hmanual : ∀ r, o.moment.scheduler.runs[run]? = some r → r.trigger = .manual) :
    ∃ turns, (o.after turns).Shows (w.stepManual o.moment.scheduler run).2 := by
  unfold World.stepManual
  cases ha : o.moment.scheduler.advanceRun run w.now with
  | none => exact ⟨[],hs⟩
  | some next =>
    obtain ⟨r, -, hr, -⟩ := Scheduler.advanceRun_eq_some _ run w.now next ha
    exact hs.makes (Scheduler.advanceRun_makes hr (hmanual r hr) ha)

theorem stepScheduler_shown {o : Office} {w : World} (hs : o.Shows w) :
    ∃ turns, (o.after turns).Shows (w.stepScheduler o.moment.scheduler).2 := by
  unfold World.stepScheduler
  split
  · exact ⟨[],hs.apart ⟨rfl,rfl,rfl⟩⟩
  · cases ha : o.moment.scheduler.advance w.now with
    | some next => exact hs.makes (Scheduler.advance_makes ha)
    | none =>
      have hreceived := receive_apart w World.schedulerName
      unfold World.notifyScheduler
      dsimp only
      split
      · rename_i hnotified
        simp only [Bool.and_eq_true, decide_eq_true_eq] at hnotified
        split
        · rename_i change v hr
          rw [hr] at hreceived
          have hmakes : o.moment.scheduler.Makes v.now
              (o.moment.scheduler.reconfigure change v.now, []) :=
            Scheduler.makes_of_step (.reconfigure change) (if_pos hnotified.1) rfl rfl
          exact (hs.apart hreceived).makes hmakes
        · rename_i v hr
          rw [hr] at hreceived
          exact ⟨[],(hs.apart hreceived).apart ⟨rfl,rfl,rfl⟩⟩
        · rename_i v _ _ hr
          rw [hr] at hreceived
          exact ⟨[],hs.apart hreceived⟩
      · exact ⟨[],hs⟩

theorem endRun_shown {o : Office} {w : World} (hs : o.Shows w) (run : Nat) (ending : Ending)
    (hopen : o.moment.scheduler.endingOf run = none) :
    ∃ turns, (o.after turns).Shows (w.endRun run ending) := by
  have hmakes : o.moment.scheduler.Makes w.now (o.moment.scheduler.endRun run ending, []) :=
    Scheduler.makes_of_step (.endRun run ending) (if_pos (by rw [hopen]; rfl)) rfl rfl
  obtain ⟨turns, hturns⟩ := hs.makes hmakes
  refine ⟨turns,hturns.apart ?_⟩
  unfold World.endRun
  rw [hs.scheduler]
  exact ⟨rfl,rfl,rfl⟩

/-- Whatever activity has its turn on the central side, the office can take turns of its own to the
same effect. -/
theorem step_shown {o : Office} {w : World} {own : Option Nat} (hs : o.Shows w) (a : Activity)
    (ha : o.Follows own a) : ∃ turns, (o.after turns).Shows (w.step a).2 := by
  cases a with
  | handler channel h => exact ⟨[],hs.apart (stepHandler_apart w channel h)⟩
  | worker n => exact ⟨[],hs.apart (stepWorker_apart w n)⟩
  | errand n errand => exact ⟨[],hs.apart (stepErrand_apart w n errand)⟩
  | watcher watcher period due => exact ⟨[],hs.apart (stepWatcher_apart w watcher period due)⟩
  | provisioning t =>
    obtain ⟨turns, own', -, hshows, -⟩ := hs.proceed false t.rest t.wait ha
    refine ⟨turns,?_⟩
    simp only [World.step]
    split <;> rename_i hp <;> rw [hp] at hshows <;> exact hshows
  | inquiry n t =>
    obtain ⟨turns, own', -, hshows, -⟩ := hs.proceed false t.rest t.wait ha
    refine ⟨turns,?_⟩
    simp only [World.step]
    split <;> rename_i hp <;> rw [hp] at hshows
    · exact hshows.apart ⟨rfl,rfl,rfl⟩
    · exact hshows
  | scheduler =>
    simp only [World.step, World.withScheduler, hs.scheduler]
    exact stepScheduler_shown hs
  | timer n =>
    simp only [World.step, World.withScheduler, hs.scheduler]
    exact stepTimer_shown hs n
  | manual run =>
    simp only [World.step, World.withScheduler, hs.scheduler]
    exact stepManual_shown hs run ha
  | work run t =>
    obtain ⟨hserves, hopen⟩ := ha
    obtain ⟨turns, own', hgoes, hshows, -⟩ := hs.proceed w.isCancelled t.rest t.wait hserves
    simp only [World.step]
    split <;> rename_i hp <;> rw [hp] at hshows
    · rw [← hgoes.moment] at hopen
      obtain ⟨rest, hrest⟩ := endRun_shown hshows run _ hopen
      exact ⟨turns ++ rest,by rw [after_append]; exact hrest⟩
    · exact ⟨turns,hshows⟩

end Office
end Central
end VmFleet
