import VmFleet.Proofs.Jobs.Turns

/-!
# What a shutdown waits for

A scheduler that closes waits for the timers that its jobs have at that time and for the ticks that
were started by hand, and gives each of them time enough for any tick that is not too long. It does
not know of a timer that it has let go of before: such a timer can be amid its last tick when the
scheduler is over. The same goes for a tick that begins only while the scheduler is closing.
-/

set_option autoImplicit false

namespace VmFleet.Jobs

namespace Scheduler

/-- The handles that a closing scheduler has to wait for yet. -/
def remaining (s : Scheduler) : List Handle :=
  match s.stage with
  | .closing rest _ => rest
  | _ => []

def isClosing (s : Scheduler) : Bool :=
  match s.stage with
  | .closing _ _ => true
  | .over => true
  | _ => false

section

variable {s s' : Scheduler} {now : Nat} {fs : List Finish}

/-! ## Ticks in progress after a change -/

/-- A tick in progress was in progress before, or it began just now. -/
theorem change_underway (hc : Change s now fs s') (n : Nat) (r : Run) (hr : s'.Underway n r) :
    (∃ q, s.Underway n q ∧ r.trigger = q.trigger ∧ r.startedAt = q.startedAt) ∨
      r.startedAt = now ∧ (r.trigger = .manual → s.stage = .serving ∧ n ∈ s'.manual) := by
  have hsame : s'.runs = s.runs →
      ∃ q, s.Underway n q ∧ r.trigger = q.trigger ∧ r.startedAt = q.startedAt := by
    intro hruns
    rw [Underway, hruns] at hr
    exact ⟨r,hr,rfl,rfl⟩
  cases hc with
  | still _ hs => exact Or.inl (hsame hs.runs)
  | staged _ hs => exact Or.inl (hsame (staged_quiet s s' now hs).runs)
  | fired _ timer id hb _ _ _ =>
    rcases (underway_append hb.runs rfl n r).mp hr with hr | ⟨-, rfl⟩
    · exact Or.inl ⟨r,hr,rfl,rfl⟩
    · exact Or.inr ⟨rfl,fun hmanual => by cases hmanual⟩
  | triggered _ id hb hserving hmanual _ =>
    rcases (underway_append hb.runs rfl n r).mp hr with hr | ⟨rfl, rfl⟩
    · exact Or.inl ⟨r,hr,rfl,rfl⟩
    · exact Or.inr ⟨rfl,fun _ => ⟨hserving,by simp [hmanual]⟩⟩
  | worked number ending =>
    obtain ⟨q, hq, rfl⟩ := (underway_worked rfl n r).mp hr
    refine Or.inl ⟨q, hq, ?_, ?_⟩
    · split <;> rfl
    · split <;> rfl
  | ticked _ _ _ _ _ _ hf _ _ => exact Or.inl ⟨r,((underway_recorded hf.runs n r).mp hr).1,rfl,rfl⟩
  | finished _ _ _ _ hf _ _ _ => exact Or.inl ⟨r,((underway_recorded hf.runs n r).mp hr).1,rfl,rfl⟩

/-- As long as it does not close, a scheduler keeps hold of the ticks that were started by hand. -/
theorem change_manual (hc : Change s now fs s') (hopen : s'.isClosing = false) :
    s.isClosing = false ∧ ∀ n ∈ s.manual, n ∈ s'.manual := by
  have hsame : s'.stage = s.stage → s'.manual = s.manual →
      s.isClosing = false ∧ ∀ n ∈ s.manual, n ∈ s'.manual := by
    intro hstage hmanual
    rw [isClosing, hstage] at hopen
    exact ⟨hopen,fun n hn => hmanual ▸ hn⟩
  cases hc with
  | still _ hs => exact hsame hs.stage hs.manual
  | staged _ hs =>
    cases hs with
    | started hidle h =>
      rw [h]
      exact ⟨by rw [isClosing, hidle],fun n hn => hn⟩
    | dropped _ h =>
      rw [h] at hopen
      cases hopen
    | entered h =>
      obtain ⟨hstage, rfl⟩ := enter_eq_some s s' now h
      have hmanual := (applySettings_still s s.settings now).manual
      exact ⟨by rw [isClosing, hstage],fun n hn => hmanual ▸ hn⟩
    | closing h =>
      rw [(beginClosing_eq_some s s' h).2.2] at hopen
      cases hopen
    | next h =>
      rcases closeNext_cases s s' now h with ⟨-, rfl⟩ | ⟨_, _, _, -, ⟨-, rfl⟩ | rfl⟩ <;> cases hopen
  | fired _ _ _ hb hmanual _ _ => exact hsame hb.stage hmanual
  | triggered _ _ hb _ hmanual _ =>
    rw [isClosing, hb.stage] at hopen
    exact ⟨hopen,fun n hn => by rw [hmanual]; exact List.mem_append_left _ hn⟩
  | worked _ _ => exact ⟨hopen,fun n hn => hn⟩
  | ticked _ _ _ _ _ _ hf _ _ => exact hsame hf.stage hf.manual
  | finished _ _ _ _ hf _ _ _ => exact hsame hf.stage hf.manual

/-! ## Closing goes on -/

theorem change_closing (hc : Change s now fs s') (hclosing : s.isClosing = true) :
    s'.stage = s.stage ∨ s.closeNext? now = some s' := by
  cases hc with
  | still _ hs => exact Or.inl hs.stage
  | staged _ hs =>
    cases hs with
    | started hidle _ =>
      rw [isClosing, hidle] at hclosing
      cases hclosing
    | dropped hidle _ =>
      rw [isClosing, hidle] at hclosing
      cases hclosing
    | entered h =>
      rw [isClosing, (enter_eq_some s s' now h).1] at hclosing
      cases hclosing
    | closing h =>
      rw [isClosing, (beginClosing_eq_some s s' h).1] at hclosing
      cases hclosing
    | next h => exact Or.inr h
  | fired _ _ _ hb _ _ _ => exact Or.inl hb.stage
  | triggered _ _ hb _ _ _ => exact Or.inl hb.stage
  | worked _ _ => exact Or.inl rfl
  | ticked _ _ _ _ _ _ hf _ _ => exact Or.inl hf.stage
  | finished _ _ _ _ hf _ _ _ => exact Or.inl hf.stage

/-- Each handle is given its time from when the scheduler turns to it. -/
theorem change_deadline (hc : Change s now fs s') (hclosing : s.isClosing = true) :
    s'.isClosing = true ∧ ∀ rest due, s'.stage = .closing rest (some due) →
      s.stage = .closing rest (some due) ∨ due = now + graceMillis := by
  rcases change_closing hc hclosing with hstage | hnext
  · rw [isClosing, hstage]
    exact ⟨hclosing,fun _ _ hdue => Or.inl hdue⟩
  · rcases closeNext_cases s s' now hnext with ⟨-, rfl⟩ | ⟨_, _, _, -, ⟨-, rfl⟩ | rfl⟩
    · exact ⟨rfl,fun _ _ hdue => by cases hdue⟩
    · exact ⟨rfl,fun _ _ hdue => by cases hdue⟩
    · exact ⟨rfl,fun _ _ hdue => by cases hdue; exact Or.inr rfl⟩

/-- A handle is given up only when it is done or its time is up. -/
theorem remaining_change (hc : Change s now fs s') (hclosing : s.isClosing = true)
    (handle : Handle) (hmem : handle ∈ s.remaining) :
    handle ∈ s'.remaining ∨ s.isDone handle = true ∨
      ∃ rest due, s.stage = .closing rest (some due) ∧ due ≤ now := by
  rcases change_closing hc hclosing with hstage | hnext
  · rw [remaining, hstage]
    exact Or.inl hmem
  · rcases closeNext_cases s s' now hnext with ⟨⟨deadline, hstage⟩, -⟩ | ⟨first, rest, deadline, hstage, hcase⟩
    · rw [remaining, hstage] at hmem
      cases hmem
    · rw [remaining, hstage] at hmem
      rcases hcase with ⟨hdone, rfl⟩ | rfl
      · rcases List.mem_cons.mp hmem with rfl | hmem
        · rcases hdone with hdone | ⟨due, rfl, hdue⟩
          · exact Or.inr (Or.inl hdone)
          · exact Or.inr (Or.inr ⟨_,due,hstage,hdue⟩)
        · exact Or.inl hmem
      · exact Or.inl hmem

/-! ## Timers that have stopped -/

theorem onTimer_stopped (s : Scheduler) (number : Nat) (f : Timer → Timer)
    (hf : ∀ t, s.timers[number]? = some t → t.phase = .stopped → (f t).phase = .stopped) (k : Nat)
    (hk : s.isStopped k = true) : (s.onTimer number f).isStopped k = true := by
  unfold isStopped at hk ⊢
  simp only [onTimer, List.getElem?_modify]
  cases ht : s.timers[k]? with
  | none => rfl
  | some t =>
    rw [ht] at hk
    have hstopped : t.phase = .stopped := of_decide_eq_true hk
    by_cases hn : number = k
    · subst hn
      simp [hf t ht hstopped]
    · simp [hn, hstopped]

theorem isStopped_of_timers (h : s'.timers = s.timers) (k : Nat) : s'.isStopped k = s.isStopped k := by
  rw [isStopped, h, isStopped]

theorem ordered_closing (hclosing : s.isClosing = true) (next : Scheduler) :
    s.ordered next = none := by
  unfold isClosing at hclosing
  unfold ordered
  split at hclosing <;> simp_all

theorem fireTimer_stopped (timer : Nat) (h : s.fireTimer? timer now = some s') (k : Nat)
    (hk : s.isStopped k = true) : s'.isStopped k = true := by
  obtain ⟨t, ht, hidle, -, rfl | ⟨began, hb, rfl⟩⟩ := fireTimer_eq_some s s' timer now h
  · exact onTimer_stopped s timer (fun t => t.skip now) (fun _ _ hphase => hphase) k hk
  · obtain ⟨-, htimers, -⟩ := beginRun_begins s began t.job .timer now hb
    refine onTimer_stopped began timer _ ?_ k ((isStopped_of_timers htimers k).trans hk)
    intro u hu hphase
    rw [htimers, ht] at hu
    cases hu
    rw [hidle] at hphase
    cases hphase

theorem finishTick_stopped (timer : Nat) (h : (s.finishTick? timer now).map Prod.fst = some s')
    (k : Nat) (hk : s.isStopped k = true) : s'.isStopped k = true := by
  obtain ⟨result, hresult, rfl⟩ := Option.map_eq_some_iff.mp h
  obtain ⟨t, number, r, ending, ht, hticking, hr, he, heq⟩ :=
    finishTick_eq_some s timer now result hresult
  have htimers := (record_finishes s number r ending now hr he).2
  rw [heq]
  refine onTimer_stopped _ timer _ ?_ k ((isStopped_of_timers htimers k).trans hk)
  intro u hu hphase
  rw [htimers, ht] at hu
  cases hu
  rw [hticking] at hphase
  cases hphase

/-- Once no orders are taken any more, a timer that has stopped stays so. -/
theorem step_stopped (move : Move) (hclosing : s.isClosing = true)
    (h : s.step? now move = some s') (k : Nat) (hk : s.isStopped k = true) :
    s'.isStopped k = true := by
  have hstage : ∀ stage, s.stage = stage → stage = .idle ∨ stage = .starting ∨ stage = .serving →
      False := by
    intro stage hs ho
    rw [isClosing, hs] at hclosing
    rcases ho with rfl | rfl | rfl <;> cases hclosing
  cases move with
  | pass millis =>
    cases h
    exact hk
  | register job =>
    rw [step?, ordered_closing hclosing] at h
    cases h
  | schedule id period =>
    rw [step?, ordered_closing hclosing] at h
    cases h
  | cancel id =>
    rw [step?, ordered_closing hclosing] at h
    cases h
  | apply settings =>
    rw [step?, ordered_closing hclosing] at h
    cases h
  | start =>
    rw [step?] at h
    split at h
    · rename_i hidle
      exact (hstage _ hidle (Or.inl rfl)).elim
    · cases h
  | drop =>
    rw [step?] at h
    split at h
    · rename_i hidle
      exact (hstage _ hidle (Or.inl rfl)).elim
    · cases h
  | call id =>
    cases h
    refine (isStopped_of_timers ?_ k).trans hk
    unfold call
    dsimp only
    split <;> rfl
  | shutdown =>
    cases h
    simp only [isStopped, shutdown, List.getElem?_map, Option.map_map]
    exact hk
  | enter => exact (hstage _ (enter_eq_some s s' now h).1 (Or.inr (Or.inl rfl))).elim
  | reconfigure change =>
    rw [step?] at h
    split at h
    · rename_i hserving
      exact (hstage _ hserving (Or.inr (Or.inr rfl))).elim
    · cases h
  | beginClosing =>
    exact (hstage _ (beginClosing_eq_some s s' h).1 (Or.inr (Or.inr rfl))).elim
  | handleCall => exact (hstage _ (handleCall_eq_some s s' now h).1 (Or.inr (Or.inr rfl))).elim
  | closeNext =>
    rcases closeNext_cases s s' now h with ⟨-, rfl⟩ | ⟨_, _, _, -, ⟨-, rfl⟩ | rfl⟩ <;> exact hk
  | stopTimer timer =>
    obtain ⟨t, -, -, -, rfl⟩ := stopTimer_eq_some s s' timer h
    exact onTimer_stopped s timer _ (fun _ _ _ => rfl) k hk
  | fireTimer timer => exact fireTimer_stopped timer h k hk
  | finishTick timer => exact finishTick_stopped timer h k hk
  | endRun number ending =>
    rw [step?] at h
    split at h
    · cases h
      exact hk
    · cases h
  | finishRun number =>
    rw [step?] at h
    split at h
    · rename_i hmanual
      obtain ⟨result, hresult, rfl⟩ := Option.map_eq_some_iff.mp h
      obtain ⟨r, ending, hr, he, -, heq⟩ := advanceRun_eq_some s number now result hresult
      rw [heq]
      exact (isStopped_of_timers (record_finishes s number r ending now hr he).2 k).trans hk
    · cases h

end

end Scheduler

namespace Moment

open Scheduler

/-! ## Until it closes -/

structure Manned (m : Moment) : Prop where
  begun : ∀ n r, m.scheduler.Underway n r → r.startedAt ≤ m.now
  held : m.scheduler.isClosing = false → ∀ n r, m.scheduler.Underway n r → r.trigger = .manual →
    n ∈ m.scheduler.manual

theorem now_le_play (m : Moment) (move : Move) : m.now ≤ (m.play move).now := by
  cases move with
  | pass millis => exact Nat.le_add_right _ _
  | _ => exact Nat.le_refl _

theorem play_manned (m : Moment) (move : Move) (h : m.Manned) : (m.play move).Manned := by
  have hc := play_change m move
  have hnow := now_le_play m move
  constructor
  · intro n r hr
    rcases change_underway hc n r hr with ⟨q, hq, -, hstart⟩ | ⟨hstart, -⟩
    · rw [hstart]
      exact Nat.le_trans (h.begun n q hq) hnow
    · rw [hstart]
      exact hnow
  · intro hopen n r hr hmanual
    rcases change_underway hc n r hr with ⟨q, hq, htrigger, -⟩ | ⟨-, hheld⟩
    · obtain ⟨hbefore, hkept⟩ := change_manual hc hopen
      exact hkept n (h.held hbefore n q hq (htrigger.symm.trans hmanual))
    · exact (hheld hmanual).2

theorem after_manned (m : Moment) (h : m.Manned) (moves : List Move) : (m.after moves).Manned := by
  induction moves generalizing m with
  | nil => exact h
  | cons move moves ih => exact ih (m.play move) (play_manned m move h)

theorem new_manned (settings : Config.JobsSettings) (now : Nat) : (new settings now).Manned := by
  constructor
  · intro n r hr
    cases hr.1
  · intro _ n r hr
    cases hr.1

/-! ## While it closes -/

/-- Since it began to close, the scheduler waits for whatever it had a hold of and is not done, but
for no longer than the time it allows. -/
structure Waits (first m : Moment) : Prop where
  closing : m.scheduler.isClosing = true
  late : first.now ≤ m.now
  deadline : ∀ rest due, m.scheduler.stage = .closing rest (some due) →
    first.now + graceMillis ≤ due
  runs : ∀ n r, m.scheduler.Underway n r → r.trigger = .manual → r.startedAt ≤ first.now ∧
    (.run n ∈ m.scheduler.remaining ∨ first.now + graceMillis ≤ m.now)
  timers : ∀ k, .timer k ∈ first.scheduler.handles → .timer k ∈ m.scheduler.remaining ∨
    m.scheduler.isStopped k = true ∨ first.now + graceMillis ≤ m.now

theorem waits_begin (first : Moment) (h : first.Manned)
    (hbegin : first.scheduler.beginClosing?.isSome = true) :
    Waits first (first.play .beginClosing) := by
  obtain ⟨s', hs'⟩ := Option.isSome_iff_exists.mp hbegin
  obtain ⟨hserving, -, rfl⟩ := beginClosing_eq_some _ s' hs'
  have hplay : (first.play .beginClosing).scheduler = first.scheduler.beginClosing := by
    simp only [play, step?, hs', Option.getD_some]
  constructor
  · rw [hplay]
    rfl
  · exact Nat.le_refl _
  · intro rest due hstage
    rw [hplay] at hstage
    cases hstage
  · intro n r hr hmanual
    rw [hplay] at hr
    refine ⟨h.begun n r hr, Or.inl ?_⟩
    have hheld := h.held (by rw [isClosing, hserving]) n r hr hmanual
    have hopen : first.scheduler.isRecorded n = false := by
      rw [isRecorded, show first.scheduler.runs[n]? = some r from hr.1]
      exact hr.2
    rw [hplay]
    exact List.mem_append_right _ (List.mem_map_of_mem (List.mem_filter.mpr ⟨hheld,by simp [hopen]⟩))
  · intro k hk
    rw [hplay]
    exact Or.inl hk

theorem play_stopped (m : Moment) (move : Move) (hclosing : m.scheduler.isClosing = true) (k : Nat)
    (hk : m.scheduler.isStopped k = true) : (m.play move).scheduler.isStopped k = true := by
  cases hs : m.scheduler.step? m.now move with
  | none =>
    simp only [play, hs]
    exact hk
  | some s' =>
    simp only [play, hs]
    exact step_stopped move hclosing hs k hk

/-- A handle is still waited for, or it is done, or its time is up. -/
theorem Waits.still {first m : Moment} (h : Waits first m) (move : Move) (handle : Handle)
    (hmem : handle ∈ m.scheduler.remaining) :
    handle ∈ (m.play move).scheduler.remaining ∨ m.scheduler.isDone handle = true ∨
      first.now + graceMillis ≤ (m.play move).now := by
  have hnow := now_le_play m move
  rcases remaining_change (play_change m move) h.closing handle hmem with
    hin | hdone | ⟨rest, due, hstage, hdue⟩
  · exact Or.inl hin
  · exact Or.inr (Or.inl hdone)
  · have hlate := h.deadline rest due hstage
    exact Or.inr (Or.inr (by omega))

theorem play_waits (first m : Moment) (move : Move) (h : Waits first m) :
    Waits first (m.play move) := by
  have hc := play_change m move
  have hnow := now_le_play m move
  obtain ⟨hclosing, hdeadline⟩ := change_deadline hc h.closing
  refine ⟨hclosing, Nat.le_trans h.late hnow, ?_, ?_, ?_⟩
  · intro rest due hdue
    rcases hdeadline rest due hdue with hdue | rfl
    · exact h.deadline rest due hdue
    · exact Nat.add_le_add_right h.late _
  · intro n r hr hmanual
    rcases change_underway hc n r hr with ⟨q, hq, htrigger, hstart⟩ | ⟨-, hserving⟩
    · obtain ⟨hbegun, hheld⟩ := h.runs n q hq (htrigger.symm.trans hmanual)
      refine ⟨hstart ▸ hbegun, ?_⟩
      rcases hheld with hin | htime
      · rcases h.still move _ hin with hin | hdone | htime
        · exact Or.inl hin
        · rw [isDone, isRecorded, hq.1] at hdone
          exact absurd (hdone.symm.trans hq.2) Bool.noConfusion
        · exact Or.inr htime
      · exact Or.inr (Nat.le_trans htime hnow)
    · have hclosing := h.closing
      rw [isClosing, (hserving hmanual).1] at hclosing
      cases hclosing
  · intro k hk
    rcases h.timers k hk with hin | hstopped | htime
    · rcases h.still move _ hin with hin | hstopped | htime
      · exact Or.inl hin
      · exact Or.inr (Or.inl (play_stopped m move h.closing k hstopped))
      · exact Or.inr (Or.inr htime)
    · exact Or.inr (Or.inl (play_stopped m move h.closing k hstopped))
    · exact Or.inr (Or.inr (Nat.le_trans htime hnow))

theorem after_waits (first m : Moment) (h : Waits first m) (moves : List Move) :
    Waits first (m.after moves) := by
  induction moves generalizing m with
  | nil => exact h
  | cons move moves ih => exact ih (m.play move) (play_waits first m move h)

/-! ## Main statement -/

/-- A tick that a shutdown does not wait for: it began after the shutdown, or it belongs to a timer
that had been let go of by then. -/
def Straggles (first : Moment) (s : Scheduler) (number : Nat) (r : Run) : Prop :=
  first.now < r.startedAt ∨
    ∃ timer, s.tickOf timer = some (r.job, number) ∧ .timer timer ∉ first.scheduler.handles

theorem straggles_of_over (first m : Moment) (h : Waits first m) (hatt : m.scheduler.Attended)
    (hover : m.scheduler.stage = .over) (number : Nat) (r : Run)
    (hr : m.scheduler.Underway number r) (hbrief : m.now < r.startedAt + graceMillis) :
    first.Straggles m.scheduler number r := by
  have hnone : m.scheduler.remaining = [] := by rw [remaining, hover]
  rw [Straggles]
  cases htrigger : r.trigger with
  | manual =>
    obtain ⟨hbegun, hheld⟩ := h.runs number r hr htrigger
    rw [hnone] at hheld
    rcases hheld with hin | htime
    · cases hin
    · omega
  | timer =>
    obtain ⟨k, hk⟩ := hatt.owned number r hr htrigger
    by_cases hheld : .timer k ∈ first.scheduler.handles
    · left
      rcases h.timers k hheld with hin | hstopped | htime
      · rw [hnone] at hin
        cases hin
      · -- a timer amid a tick has not stopped
        obtain ⟨t, ht, htick⟩ := Option.bind_eq_some_iff.mp hk
        obtain ⟨n, hrun, -⟩ := Option.map_eq_some_iff.mp htick
        rw [isStopped, ht] at hstopped
        have hphase : t.phase = .stopped := of_decide_eq_true hstopped
        rw [Timer.run?, hphase] at hrun
        cases hrun
      · omega
    · exact Or.inr ⟨k,hk,hheld⟩

/-- When a scheduler is over after a shutdown, and no tick has gone on for as long as the scheduler
waits, then no job is running except for stragglers. -/
theorem shutdown_leaves_stragglers (settings : Config.JobsSettings) (now : Nat)
    (before later : List Move) :
    let first := (new settings now).after before
    let last := (new settings now).after (before ++ .beginClosing :: later)
    first.scheduler.beginClosing?.isSome = true → last.scheduler.stage = .over →
    (∀ r ∈ last.scheduler.runs, r.isRecorded = false → last.now < r.startedAt + graceMillis) →
    (last.scheduler.board.running = [] ↔
      ∀ n r, last.scheduler.Underway n r → ¬ first.Straggles last.scheduler n r) := by
  intro first last hbegin hover hbrief
  obtain ⟨hturn, hatt, -⟩ :=
    after_orderly (new settings now) (orderly_new settings) (before ++ .beginClosing :: later)
  have hwaits : Waits first last := by
    have hbegun := waits_begin first (after_manned _ (new_manned settings now) before) hbegin
    have h := after_waits first _ hbegun later
    rw [show last = ((first.play .beginClosing).after later) from after_append _ before _]
    exact h
  constructor
  · intro hnone n r hr
    have hmem := (hturn.marked r.job).mpr ⟨n,r,hr,rfl⟩
    rw [hnone] at hmem
    cases hmem
  · intro hno
    rw [List.eq_nil_iff_forall_not_mem]
    intro job hjob
    obtain ⟨n, r, hr, -⟩ := (hturn.marked job).mp hjob
    have hshort := hbrief r (List.mem_of_getElem? hr.1) hr.2
    exact hno n r hr (straggles_of_over first last hwaits hatt hover n r hr hshort)

/-- The scheduler enables its only job, and the timer of that job fires once. -/
def firstTick : List Move := [.register updateStatusJob, .start, .enter, .pass 100, .fireTimer 0]

def enabled : Config.JobsSettings := ⟨⟨false, 100⟩⟩

def disabled : Config.JobsSettings := ⟨⟨true, 100⟩⟩

/-- A timer that has a hold of its tick is waited for, and so is the tick. -/
theorem shutdown_awaits_tick :
    let before := firstTick ++ [.shutdown]
    let later := [.closeNext, .pass 50, .endRun 0 .finished, .finishTick 0, .stopTimer 0, .closeNext,
      .closeNext]
    let first := (new enabled 0).after before
    let last := (new enabled 0).after (before ++ .beginClosing :: later)
    first.scheduler.board.running = ["vm_update_status"] ∧
      (last.scheduler.board.running = [] ↔
        ∀ n r, last.scheduler.Underway n r → ¬ first.Straggles last.scheduler n r) :=
  ⟨by decide +kernel,
    shutdown_leaves_stragglers enabled 0 _ _ (by decide +kernel) (by decide +kernel)
      (by decide +kernel)⟩

/-- The job is disabled amid its tick, which lasts for 50 ms only. The scheduler lets go of the timer
and is over at once, with the job still running. -/
theorem disabled_job_outlasts_shutdown :
    let before := firstTick ++ [.reconfigure ⟨some enabled, some disabled⟩, .shutdown]
    let first := (new enabled 0).after before
    let last := (new enabled 0).after (before ++ .beginClosing :: [.closeNext])
    first.scheduler.beginClosing?.isSome = true ∧ last.scheduler.stage = .over ∧
      last.scheduler.board.running = ["vm_update_status"] ∧
      (last.finishes [.pass 50, .endRun 0 .finished, .finishTick 0]).map Finish.info =
        [⟨50, .success, none, .timer⟩] := by
  decide +kernel

end Moment
end VmFleet.Jobs
