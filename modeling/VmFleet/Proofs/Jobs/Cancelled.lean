import VmFleet.Proofs.Jobs.Rhythm

/-!
# What a cancelled timer still does

A timer that is cancelled amid a tick goes on until the tick is over, and from then on it lets no time
pass. When its next time has not come it can only stop. But when the tick went on past that time, the
timer may as well fire, and once the further tick is over it stands before the same choice.
-/

set_option autoImplicit false

namespace VmFleet.Jobs

namespace TickSpan

/-- A tick starts at a point of the grid that the one before had run past, or later, and at once: when
that one is over, or when the timer is cancelled. -/
def Overdue (start period since : Nat) (a b : TickSpan) : Prop :=
  ∃ e, a.stop = some e ∧ Timer.next start period a.start ≤ b.start ∧ b.start = max e since

theorem latest_append (base : TickSpan) (new kept : List TickSpan) :
    latest base (new ++ kept) = latest (latest base kept) new := by
  cases new <;> rfl

theorem getLastD_reverse (base : TickSpan) (spans : List TickSpan) :
    spans.reverse.getLastD base = latest base spans := by
  cases spans with
  | nil => rfl
  | cons tick rest => simp [latest, List.getLastD_eq_getLast?]

theorem closeLatest_starts (now : Nat) (spans : List TickSpan) :
    (closeLatest now spans).map TickSpan.start = spans.map TickSpan.start := by
  cases spans <;> rfl

/-- In order, the ticks from the latest one kept on. -/
theorem drop_kept (base : TickSpan) (new kept : List TickSpan) :
    (base :: (new ++ kept).reverse).drop kept.length = latest base kept :: new.reverse := by
  rw [List.reverse_append]
  cases kept with
  | nil => rfl
  | cons tick rest =>
    rw [List.reverse_cons, List.append_assoc, List.singleton_append, ← List.cons_append]
    exact List.drop_left' (by simp)

end TickSpan

open TickSpan

/-! ## From the cancellation on -/

/-- The timer was cancelled at some time, after these ticks, and has not waited since. -/
structure Fading (start period since : Nat) (old : List TickSpan) (v : View) : Prop
    extends Paced start period v where
  cancelled : v.timer.isCancelled = true
  since_le : since ≤ v.now
  waited : v.timer.phase = .idle → ∀ e, (latest (origin start) v.spans).stop = some e →
    v.now = max e since
  added : ∃ new kept, v.spans = new ++ kept ∧ kept.map TickSpan.start = old.map TickSpan.start ∧
    Linked (Overdue start period since) (latest (origin start) kept) new

theorem Paced.fading {start period : Nat} {v : View} (h : Paced start period v)
    (hcancelled : v.timer.isCancelled = true) : Fading start period v.now v.spans v where
  toPaced := h
  cancelled := hcancelled
  since_le := Nat.le_refl _
  waited hidle e hstop := by
    obtain ⟨_, hstop', -, he⟩ := h.settled_of_idle hidle
    cases hstop.symm.trans hstop'
    omega
  added := ⟨[],v.spans,rfl,rfl,linked_nil⟩

namespace Fading

variable {start period since : Nat} {old : List TickSpan} {v v' : View}

theorem fires (h : Fading start period since old v) (hidle : v.timer.phase = .idle)
    (hdue : v.timer.due ≤ v.now) (stop : Option Nat) :
    ∃ new kept, (⟨v.now, stop⟩ :: v.spans : List TickSpan) = new ++ kept ∧
      kept.map TickSpan.start = old.map TickSpan.start ∧
      Linked (Overdue start period since) (latest (origin start) kept) new := by
  obtain ⟨new, kept, hspans, hstarts, hnew⟩ := h.added
  obtain ⟨e, hstop, -, -⟩ := h.settled_of_idle hidle
  have hnow := h.waited hidle e hstop
  rw [h.due] at hdue
  rw [hspans, latest_append] at hstop hdue
  exact ⟨⟨v.now, stop⟩ :: new,kept,by rw [hspans]; rfl,hstarts,
    (linked_cons _ _).mpr ⟨⟨e,hstop,hdue,hnow⟩,hnew⟩⟩

theorem closes (h : Fading start period since old v) :
    ∃ new kept, closeLatest v.now v.spans = new ++ kept ∧
      kept.map TickSpan.start = old.map TickSpan.start ∧
      Linked (Overdue start period since) (latest (origin start) kept) new := by
  obtain ⟨new, kept, hspans, hstarts, hnew⟩ := h.added
  cases new with
  | nil =>
    exact ⟨[],closeLatest v.now kept,by rw [hspans]; rfl,
      (closeLatest_starts v.now kept).trans hstarts,linked_nil⟩
  | cons tick rest =>
    exact ⟨closeLatest v.now (tick :: rest),kept,by rw [hspans]; rfl,hstarts,
      linked_closeLatest (fun _ _ _ hoverdue => hoverdue) v.now _ hnew⟩

theorem beat (hp : 0 < period) (hb : Beat v v')
    (hheeds : v.timer.phase = .idle → v'.now ≤ max v.now v.timer.patience)
    (h : Fading start period since old v) : Fading start period since old v' := by
  have hpaced := h.toPaced.beat hp hb
  cases hb with
  | passed millis =>
    refine ⟨hpaced, h.cancelled, h.since_le.trans (Nat.le_add_right _ _), ?_, h.added⟩
    intro hidle e hstop
    have hwaited : v.now = max e since := h.waited hidle e hstop
    have hmore : v.now + millis ≤ max v.now v.timer.patience := hheeds hidle
    rw [Timer.patience, if_pos h.cancelled] at hmore
    change v.now + millis = max e since
    omega
  | cancelled => exact ⟨hpaced,rfl,h.since_le,h.waited,h.added⟩
  | stopped hidle hcancelled =>
    exact ⟨hpaced,h.cancelled,h.since_le,fun hs => (nomatch hs),h.added⟩
  | skipped hidle hdue =>
    refine ⟨hpaced, h.cancelled, h.since_le, ?_, h.fires hidle hdue (some v.now)⟩
    intro _ e hstop
    cases hstop
    exact (Nat.max_eq_left h.since_le).symm
  | fired run hidle hdue =>
    exact ⟨hpaced,h.cancelled,h.since_le,fun hs => (nomatch hs),h.fires hidle hdue none⟩
  | rested run hticking =>
    refine ⟨hpaced, h.cancelled, h.since_le, ?_, h.closes⟩
    intro _ e hstop
    obtain ⟨tick, rest, hspans, -⟩ := h.ongoing run hticking
    rw [hspans] at hstop
    cases hstop
    exact (Nat.max_eq_left h.since_le).symm

/-- In order: no tick is lost, and those that were added are overdue. -/
theorem in_order (h : Fading start period since old v) :
    old.reverse.map TickSpan.start <+: v.spans.reverse.map TickSpan.start ∧
      ((origin start :: v.spans.reverse).drop old.length).IsChain (Overdue start period since) := by
  obtain ⟨new, kept, hspans, hstarts, hnew⟩ := h.added
  have hlength : old.length = kept.length := by
    rw [← List.length_map TickSpan.start, ← hstarts, List.length_map]
  constructor
  · rw [hspans, List.reverse_append, List.map_append, List.map_reverse, List.map_reverse, hstarts]
    exact List.prefix_append _ _
  · rw [hspans, hlength, drop_kept]
    exact linked_reverse new hnew

end Fading

/-! ## A tick that was in progress -/

namespace Scheduler

/-- The timer is amid this tick. -/
def Awaits (timer run : Nat) (s : Scheduler) : Prop :=
  ∃ t, s.timers[timer]? = some t ∧ t.phase = .ticking run

variable {s s' : Scheduler} {number : Nat}

theorem endingOf_isSome_of_runs
    (hkeep : ∀ r, s.runs[number]? = some r →
      ∃ r', s'.runs[number]? = some r' ∧ (r.ending.isSome = true → r'.ending.isSome = true))
    (h : (s.endingOf number).isSome = true) : (s'.endingOf number).isSome = true := by
  obtain ⟨ending, hending⟩ := Option.isSome_iff_exists.mp h
  obtain ⟨r, hr, he⟩ := endingOf_eq_some s number ending hending
  obtain ⟨r', hr', hsome⟩ := hkeep r hr
  rw [endingOf, hr']
  exact hsome (by rw [he]; rfl)

theorem endingOf_isSome_append (runs : List Run) (h : s'.runs = s.runs ++ runs) :
    (s.endingOf number).isSome = true → (s'.endingOf number).isSome = true := by
  refine endingOf_isSome_of_runs fun r hr => ⟨r, ?_, id⟩
  rw [h, List.getElem?_append_left (List.getElem?_eq_some_iff.mp hr).1, hr]

theorem endingOf_isSome_modify {k : Nat} (f : Run → Run)
    (hf : ∀ r, r.ending.isSome = true → (f r).ending.isSome = true)
    (h : s'.runs = s.runs.modify k f) :
    (s.endingOf number).isSome = true → (s'.endingOf number).isSome = true := by
  refine endingOf_isSome_of_runs fun r hr => ?_
  by_cases hk : k = number
  · exact ⟨f r,by rw [h, hk, List.getElem?_modify_eq, hr]; rfl,hf r⟩
  · exact ⟨r,by rw [h, List.getElem?_modify_ne _ _ hk, hr],id⟩

end Scheduler

namespace Moment

open Scheduler

variable {timer : Nat}

/-- Work that is over stays so. -/
theorem play_endingOf (m : Moment) (move : Move) (number : Nat)
    (h : (m.scheduler.endingOf number).isSome = true) :
    ((m.play move).scheduler.endingOf number).isSome = true := by
  have hchange := play_change m move
  generalize (m.play move).scheduler = s' at hchange ⊢
  generalize (m.finish? move).toList = log at hchange
  cases hchange with
  | still _ hs => exact endingOf_isSome_append [] (by rw [hs.runs, List.append_nil]) h
  | staged _ hs =>
    exact endingOf_isSome_append [] (by rw [(staged_quiet _ _ _ hs).runs, List.append_nil]) h
  | fired _ _ _ hb _ _ _ => exact endingOf_isSome_append _ hb.runs h
  | triggered _ _ hb _ _ _ => exact endingOf_isSome_append _ hb.runs h
  | worked k ending => exact endingOf_isSome_modify _ (fun _ _ => rfl) rfl h
  | ticked _ _ _ _ _ _ hf _ _ =>
    refine endingOf_isSome_modify _ ?_ hf.runs h
    exact fun _ he => he
  | finished _ _ _ _ hf _ _ _ =>
    refine endingOf_isSome_modify _ ?_ hf.runs h
    exact fun _ he => he

/-- A timer waits for its tick until the work of that is over, cancelled or not. -/
theorem play_awaits (m : Moment) (move : Move) (run : Nat)
    (h : m.scheduler.Awaits timer run) :
    (m.play move).scheduler.Awaits timer run ∨
      ((m.play move).scheduler.endingOf run).isSome = true := by
  obtain ⟨t, ht, hticking⟩ := h
  cases h : m.scheduler.step? m.now move with
  | none =>
    left
    refine ⟨t, ?_, hticking⟩
    simp only [play, h, Option.getD_none, ht]
  | some s' =>
    have hnext : (m.play move).scheduler = s' := by simp only [play, h, Option.getD_some]
    by_cases hown : move.timer? = some timer
    · cases move with
      | stopTimer k =>
        cases hown
        obtain ⟨u, hu, hidle, -⟩ := stopTimer_eq_some _ s' timer h
        cases ht.symm.trans hu
        cases hticking.symm.trans hidle
      | fireTimer k =>
        cases hown
        obtain ⟨u, hu, hidle, -⟩ := fireTimer_eq_some _ s' timer m.now h
        cases ht.symm.trans hu
        cases hticking.symm.trans hidle
      | finishTick k =>
        cases hown
        right
        obtain ⟨result, hresult, -⟩ := Option.map_eq_some_iff.mp h
        obtain ⟨u, number, r, ending, hu, hphase, hr, he, -⟩ :=
          finishTick_eq_some _ timer m.now result hresult
        cases ht.symm.trans hu
        cases hticking.symm.trans hphase
        exact play_endingOf m _ run (by rw [endingOf, hr, Option.bind_some, he]; rfl)
      | _ => cases hown
    · left
      rw [hnext]
      rcases step_spares move hown h t ht with hs | hs
      · exact ⟨t,hs,hticking⟩
      · exact ⟨t.cancel,hs,hticking⟩

theorem after_awaits (m : Moment) (moves : List Move) (run : Nat)
    (h : m.scheduler.Awaits timer run ∨ (m.scheduler.endingOf run).isSome = true) :
    (m.after moves).scheduler.Awaits timer run ∨
      ((m.after moves).scheduler.endingOf run).isSome = true := by
  induction moves generalizing m with
  | nil => exact h
  | cons move moves ih =>
    refine ih (m.play move) ?_
    rcases h with hawaits | hending
    · exact play_awaits m move run hawaits
    · exact Or.inr (play_endingOf m move run hending)

/-! ## Between two ticks -/

/-- A timer that has stopped starts no tick, nor does one that is cancelled before its time. -/
theorem spent_spans (m : Moment) (spans : List TickSpan) (moves : List Move) {t : Timer}
    (ht : m.scheduler.timers[timer]? = some t) (hcancelled : t.isCancelled = true)
    (hspent : t.phase = .stopped ∨ t.phase = .idle ∧ m.now < t.due)
    (hprompt : m.isPrompt timer moves = true) : m.spans timer spans moves = spans := by
  let Spent (v : View) : Prop := v.timer.isCancelled = true ∧ v.spans = spans ∧
    (v.timer.phase = .stopped ∨ v.timer.phase = .idle ∧ v.now < v.timer.due)
  have hbeat : ∀ v v', Beat v v' →
      (v.timer.phase = .idle → v'.now ≤ max v.now v.timer.patience) → Spent v → Spent v' := by
    rintro v v' hb hheeds ⟨hoff, hspans, hspent⟩
    have hnot : v.timer.phase = .idle → ¬ v.timer.due ≤ v.now := by
      intro hidle hdue
      rcases hspent with hstopped | ⟨-, hlt⟩
      · cases hidle.symm.trans hstopped
      · omega
    cases hb with
    | passed millis =>
      refine ⟨hoff, hspans, hspent.imp_right ?_⟩
      rintro ⟨hidle, hlt⟩
      have hmore : v.now + millis ≤ max v.now v.timer.patience := hheeds hidle
      rw [Timer.patience, if_pos hoff] at hmore
      refine ⟨hidle, ?_⟩
      change v.now + millis < v.timer.due
      omega
    | cancelled => exact ⟨rfl,hspans,hspent⟩
    | stopped _ _ => exact ⟨hoff,hspans,Or.inl rfl⟩
    | skipped hidle hdue => exact absurd hdue (hnot hidle)
    | fired _ hidle hdue => exact absurd hdue (hnot hidle)
    | rested _ hticking =>
      rcases hspent with hstopped | ⟨hidle, -⟩
      · cases hticking.symm.trans hstopped
      · cases hticking.symm.trans hidle
  obtain ⟨_, -, -, hspans, -⟩ :=
    after_prompt_view Spent hbeat m spans moves ht hprompt ⟨hcancelled,rfl,hspent⟩
  exact hspans

/-- An idle timer whose time has come can start a tick, whether it is cancelled or not. -/
theorem fireTimer_spans (m : Moment) (spans : List TickSpan) {t : Timer}
    (ht : m.scheduler.timers[timer]? = some t) (hidle : t.phase = .idle) (hdue : t.due ≤ m.now) :
    m.isPrompt timer [.fireTimer timer] = true ∧
      ∃ tick, m.spans timer spans [.fireTimer timer] = tick :: spans := by
  obtain ⟨s, hfire⟩ : ∃ s, m.scheduler.fireTimer? timer m.now = some s := by
    simp [fireTimer?, ht, hidle, hdue]
  constructor
  · rw [isPrompt, isPrompt, heeds, ht, Option.all_some, Bool.and_true, decide_eq_true_eq]
    exact fun _ => Nat.le_max_left _ _
  · exact ⟨_,by simp only [Moment.spans, log, if_true, hfire]; rfl⟩

/-- Between two ticks, a cancelled timer may start another one just when its time has come. -/
theorem ticks_again_iff (m : Moment) (spans : List TickSpan) {t : Timer}
    (ht : m.scheduler.timers[timer]? = some t) (hcancelled : t.isCancelled = true)
    (hrest : ∀ run, t.phase ≠ .ticking run) :
    (∃ more, m.isPrompt timer more = true ∧
        spans.length < (m.spans timer spans more).length) ↔
      t.phase = .idle ∧ t.due ≤ m.now := by
  constructor
  · rintro ⟨more, hprompt, hlt⟩
    by_contra hnot
    have hspent : t.phase = .stopped ∨ t.phase = .idle ∧ m.now < t.due := by
      cases hphase : t.phase with
      | idle => exact Or.inr ⟨rfl,Nat.lt_of_not_le fun hdue => hnot ⟨hphase,hdue⟩⟩
      | ticking run => exact absurd hphase (hrest run)
      | stopped => exact Or.inl rfl
    rw [spent_spans m spans more ht hcancelled hspent hprompt] at hlt
    exact Nat.lt_irrefl _ hlt
  · rintro ⟨hidle, hdue⟩
    obtain ⟨hprompt, tick, hspans⟩ := fireTimer_spans m spans ht hidle hdue
    exact ⟨[.fireTimer timer],hprompt,by rw [hspans]; exact Nat.lt_succ_self _⟩

theorem ticks_length (m : Moment) (moves : List Move) :
    (m.ticks timer moves).length = (m.spans timer [] moves).length := List.length_reverse

/-! ## Main statement -/

/-- A timer was cancelled, and goes on as soon as it can. Its ticks from before the cancellation
stay; each one added starts at the very moment that the one before is over, or that of the
cancellation, and not unless the point of the grid after the start of that one has come. A tick in
progress goes on until its work is over. Whenever the timer is between two ticks it can stop, but
it may as well start a further tick, if and only if the next point of the grid has come. -/
theorem cancelled_timer_ticks_if_overdue (m : Moment) (timer period : Nat) (job : String)
    (isCancelled : Bool) (before later : List Move)
    (hnew : m.scheduler.timers[timer]? = some (.start job m.now period isCancelled))
    (hp : 0 < period)
    (hcancelled : ∃ t, (m.after before).scheduler.timers[timer]? = some t ∧ t.isCancelled = true)
    (hprompt : (m.after before).isPrompt timer later = true) :
    let first := m.after before
    let last := m.after (before ++ later)
    let done := m.ticks timer before
    let ticks := m.ticks timer (before ++ later)
    done.map TickSpan.start <+: ticks.map TickSpan.start ∧
    ((origin m.now :: ticks).drop done.length).IsChain (Overdue m.now period first.now) ∧
    (∀ run, first.scheduler.Awaits timer run →
      last.scheduler.Awaits timer run ∨ (last.scheduler.endingOf run).isSome = true) ∧
    ∀ t, last.scheduler.timers[timer]? = some t → (∀ run, t.phase ≠ .ticking run) →
      (t.phase = .idle → (last.scheduler.stopTimer? timer).isSome = true) ∧
      ((∃ more, last.isPrompt timer more = true ∧
          ticks.length < (m.ticks timer (before ++ later ++ more)).length) ↔
        t.phase = .idle ∧
          Timer.next m.now period (ticks.getLastD (origin m.now)).start ≤ last.now) := by
  intro first last done ticks
  have hlast : last = first.after later := after_append m before later
  obtain ⟨t, ht, hpaced⟩ := after_view (Paced m.now period) (fun _ _ => Paced.beat hp) m [] before
    hnew (start_paced job m.now period isCancelled)
  obtain ⟨u, hu, hoff⟩ := hcancelled
  cases ht.symm.trans hu
  obtain ⟨u, hu, hfading⟩ := after_prompt_view
    (Fading m.now period first.now (m.spans timer [] before))
    (fun _ _ hb hheeds => Fading.beat hp hb hheeds) first _ later ht hprompt (hpaced.fading hoff)
  rw [← spans_append] at hfading
  obtain ⟨hstay, hchain⟩ := hfading.in_order
  have hoff : u.isCancelled = true := hfading.cancelled
  have hdue : u.due = Timer.next m.now period (ticks.getLastD (origin m.now)).start := by
    rw [show ticks.getLastD _ = _ from getLastD_reverse _ _]
    exact hfading.due
  refine ⟨hstay, ?_, fun run hawaits => ?_, ?_⟩
  · rw [ticks_length]
    exact hchain
  · rw [hlast]
    exact after_awaits first later run (Or.inl hawaits)
  · rintro t ht hrest
    rw [hlast] at ht
    cases hu.symm.trans ht
    refine ⟨fun hidle => ?_, ?_⟩
    · rw [hlast, stopTimer?, ht]
      simp [hidle, hoff]
    · have hagain := ticks_again_iff last (m.spans timer [] (before ++ later)) (hlast ▸ ht) hoff hrest
      rw [hdue] at hagain
      have hcount : ticks.length = (m.spans timer [] (before ++ later)).length := ticks_length _ _
      have hmore : ∀ more, (m.ticks timer (before ++ later ++ more)).length =
          (last.spans timer (m.spans timer [] (before ++ later)) more).length := by
        intro more
        rw [ticks_length, spans_append]
      simpa only [hcount, hmore] using hagain

/-- A timer of period 100 starts its job for the first time, and is then cancelled amid the tick. -/
def cancelledAmid (order : Move) : List Move :=
  [.pass 100, .fireTimer 0, .pass 50, order]

/-- The tick lasts for 250 in all. -/
def longTick : List Move := [.pass 200, .endRun 0 .finished, .finishTick 0]

def started : Moment :=
  (new ⟨⟨true, 100⟩⟩ 0).after [.register updateStatusJob, .schedule "vm_update_status" 100]

/-- When the tick is over the cancelled timer may stop, but may as well start another. -/
theorem long_tick_leaves_choice :
    let before := cancelledAmid (.cancel "vm_update_status")
    let last := started.after (before ++ longTick)
    started.ticks 0 before = [⟨100, none⟩] ∧
    started.ticks 0 (before ++ longTick) = [⟨100, some 350⟩] ∧
    (last.scheduler.stopTimer? 0).isSome = true ∧
    ∃ more, last.isPrompt 0 more = true ∧
      1 < (started.ticks 0 (before ++ longTick ++ more)).length := by
  intro before last
  have hnew : started.scheduler.timers[0]? = some (.start "vm_update_status" started.now 100 false) := by
    decide +kernel
  have hcancelled : ∃ t, (started.after before).scheduler.timers[0]? = some t ∧
      t.isCancelled = true :=
    ⟨⟨"vm_update_status", 100, 200, true, .ticking 0⟩,by decide +kernel,rfl⟩
  obtain ⟨-, -, -, hrest⟩ := cancelled_timer_ticks_if_overdue started 0 100 "vm_update_status" false
    before longTick hnew (by decide) hcancelled (by decide +kernel)
  have hidle : last.scheduler.timers[0]? = some ⟨"vm_update_status", 100, 200, true, .idle⟩ := by
    decide +kernel
  obtain ⟨hstop, hagain⟩ := hrest _ hidle fun _ h => (nomatch h)
  have hspans : started.ticks 0 (before ++ longTick) = [⟨100, some 350⟩] := by decide +kernel
  have hdue : Timer.next started.now 100
      ((started.ticks 0 (before ++ longTick)).getLastD (origin started.now)).start ≤ last.now := by
    decide +kernel
  obtain ⟨more, hprompt, hlt⟩ := hagain.mpr ⟨rfl,hdue⟩
  rw [hspans] at hlt
  exact ⟨by decide +kernel,hspans,hstop rfl,more,hprompt,hlt⟩

/-- Whether the timer is cancelled by itself or with the whole scheduler: a tick starts at 350, which
is 200 after the cancellation. -/
theorem cancelled_timer_ticks_again :
    let cancelled := cancelledAmid (.cancel "vm_update_status")
    let shut := cancelledAmid .shutdown
    let later := longTick ++ [.fireTimer 0]
    (started.after cancelled).scheduler.timers[0]? =
        some ⟨"vm_update_status", 100, 200, true, .ticking 0⟩ ∧
      (started.after cancelled).isPrompt 0 later = true ∧
      started.ticks 0 cancelled = [⟨100, none⟩] ∧
      started.ticks 0 (cancelled ++ later) = [⟨100, some 350⟩, ⟨350, none⟩] ∧
    (started.after shut).scheduler.timers[0]? =
        some ⟨"vm_update_status", 100, 200, true, .ticking 0⟩ ∧
      (started.after shut).isPrompt 0 later = true ∧
      started.ticks 0 shut = [⟨100, none⟩] ∧
      started.ticks 0 (shut ++ later) = [⟨100, some 350⟩, ⟨350, none⟩] := by
  decide +kernel

end Moment
end VmFleet.Jobs
