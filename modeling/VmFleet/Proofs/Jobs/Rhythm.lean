import Mathlib.Data.List.Chain
import Mathlib.Data.List.Perm.Subperm
import VmFleet.Proofs.Jobs.Beats

/-!
# The rhythm of a timer

The start of a timer and its period span a grid. One tick is over before the next starts, and there is
a point of the grid between the two starts, so a timer that falls behind drops ticks and never
catches up. A timer that goes on as soon as it can starts each tick at the first moment that both
rules allow.
-/

set_option autoImplicit false

namespace VmFleet.Jobs

/-! ## The grid -/

namespace Timer

variable {start period now before : Nat}

/-- Firings stay on the grid, however late they are. -/
theorem next_next (hp : 0 < period) (h : next start period before ≤ now) :
    next (next start period before) period now = next start period now := by
  unfold next at h ⊢
  set point := (before - start) / period + 1 with hpoint
  have hdiv : (now - (start + point * period)) / period = (now - start) / period - point := by
    rw [← Nat.sub_sub, Nat.mul_comm, Nat.sub_mul_div]
  have hle : point ≤ (now - start) / period := by
    rw [Nat.le_div_iff_mul_le hp]
    omega
  rw [hdiv, Nat.add_assoc, ← Nat.add_mul]
  congr 2
  omega

/-- The points of the grid by number. -/
theorem next_point (k : Nat) (hp : 0 < period) :
    next start period (start + k * period) = start + (k + 1) * period := by
  rw [next, Nat.add_sub_cancel_left, Nat.mul_div_cancel k hp]

theorem slot_lt_of_next_le (hp : 0 < period) (h : next start period before ≤ now) :
    (before - start) / period < (now - start) / period := by
  unfold next at h
  rw [Nat.lt_iff_add_one_le, Nat.le_div_iff_mul_le hp]
  omega

end Timer

/-! ## One tick after another -/

namespace TickSpan

/-- The start of a timer stands before its ticks, like a tick that is over at once. -/
def origin (start : Nat) : TickSpan := ⟨start, some start⟩

/-- The slot of the grid in which a tick starts; slot `k` begins at `start + k * period`. -/
def slot (start period : Nat) (tick : TickSpan) : Nat := (tick.start - start) / period

/-- The tick is over by then. -/
def IsOver (now : Nat) (tick : TickSpan) : Prop :=
  ∃ e, tick.stop = some e ∧ tick.start ≤ e ∧ e ≤ now

/-- A tick is over, and a point of the grid has come, when the next one starts. -/
def Precedes (start period : Nat) (a b : TickSpan) : Prop :=
  a.IsOver b.start ∧ Timer.next start period a.start ≤ b.start

/-- A tick is followed by the next one at the first point of the grid after it began, or later as
soon as it is over. -/
def Prompts (start period : Nat) (a b : TickSpan) : Prop :=
  ∃ e, a.stop = some e ∧ b.start = max e (Timer.next start period a.start)

/-- The tick has lasted for less than a period. -/
def IsBrief (period now : Nat) (tick : TickSpan) : Prop := tick.stop.getD now < tick.start + period

theorem origin_isBrief {period : Nat} (hp : 0 < period) (start now : Nat) :
    (origin start).IsBrief period now := Nat.lt_add_of_pos_right hp

theorem IsOver.mono {now later : Nat} {tick : TickSpan} (h : tick.IsOver now) (hle : now ≤ later) :
    tick.IsOver later := by
  obtain ⟨e, hstop, hstart, he⟩ := h
  exact ⟨e,hstop,hstart,he.trans hle⟩

theorem Precedes.trans {start period : Nat} {a b c : TickSpan} (h : Precedes start period a b)
    (k : Precedes start period b c) : Precedes start period a c := by
  obtain ⟨hover, hnext⟩ := h
  obtain ⟨⟨e, -, hle, he⟩, -⟩ := k
  exact ⟨hover.mono (hle.trans he),hnext.trans (hle.trans he)⟩

instance (start period : Nat) :
    Trans (fun b a => Precedes start period a b) (fun b a => Precedes start period a b)
      (fun b a => Precedes start period a b) :=
  ⟨fun h k => k.trans h⟩

/-- The latest of these ticks, or else what stands before them. -/
def latest (base : TickSpan) (spans : List TickSpan) : TickSpan := spans.headD base

theorem latest_of_forall (Holds : TickSpan → Prop) (base : TickSpan) (spans : List TickSpan)
    (h : ∀ tick ∈ spans, Holds tick) (hbase : Holds base) : Holds (latest base spans) := by
  cases spans with
  | nil => exact hbase
  | cons tick rest => exact h tick List.mem_cons_self

/-- A relation holds from each of these ticks to the next, and from what stands before them to the
first. -/
def Linked (R : TickSpan → TickSpan → Prop) (base : TickSpan) (spans : List TickSpan) : Prop :=
  (spans ++ [base]).IsChain fun b a => R a b

variable {R : TickSpan → TickSpan → Prop} {base : TickSpan}

theorem linked_nil : Linked R base [] := List.isChain_singleton _

theorem linked_cons (tick : TickSpan) (spans : List TickSpan) :
    Linked R base (tick :: spans) ↔ R (latest base spans) tick ∧ Linked R base spans := by
  cases spans with
  | nil => exact List.isChain_cons_cons
  | cons last rest => exact List.isChain_cons_cons

/-- When a tick is over makes no difference to what is before it. -/
theorem linked_closeLatest (hR : ∀ a b e, R a b → R a { b with stop := e }) (now : Nat)
    (spans : List TickSpan) (h : Linked R base spans) : Linked R base (closeLatest now spans) := by
  cases spans with
  | nil => exact h
  | cons tick rest =>
    obtain ⟨hlast, hrest⟩ := (linked_cons tick rest).mp h
    exact (linked_cons _ rest).mpr ⟨hR _ _ _ hlast,hrest⟩

theorem linked_reverse (spans : List TickSpan) (h : Linked R base spans) :
    (base :: spans.reverse).IsChain R := by
  rw [← List.reverse_concat, List.isChain_reverse]
  exact h

end TickSpan

open TickSpan

/-! ## At any speed -/

/-- The ticks of a timer so far are in order, and its next time is the point of the grid after the
latest. -/
structure Paced (start period : Nat) (v : View) : Prop where
  pace : v.timer.period = period
  due : v.timer.due = Timer.next start period (latest (origin start) v.spans).start
  reached : (latest (origin start) v.spans).start ≤ v.now
  ongoing : ∀ run, v.timer.phase = .ticking run →
    ∃ tick rest, v.spans = tick :: rest ∧ tick.stop = none
  settled : (∀ run, v.timer.phase ≠ .ticking run) → (latest (origin start) v.spans).IsOver v.now
  stopped : v.timer.phase = .stopped → v.timer.isCancelled = true
  linked : Linked (Precedes start period) (origin start) v.spans

theorem start_paced (job : String) (now period : Nat) (isCancelled : Bool) :
    Paced now period ⟨now, .start job now period isCancelled, []⟩ where
  pace := rfl
  due := (Timer.next_of_eq now period).symm
  reached := Nat.le_refl now
  ongoing _ h := nomatch h
  settled _ := ⟨now,rfl,Nat.le_refl now,Nat.le_refl now⟩
  stopped h := nomatch h
  linked := linked_nil

namespace Paced

variable {start period : Nat} {v v' : View}

theorem settled_of_idle (h : Paced start period v) (hidle : v.timer.phase = .idle) :
    (latest (origin start) v.spans).IsOver v.now :=
  h.settled fun _ hrun => nomatch hidle.symm.trans hrun

/-- A timer that fires starts a tick after its latest one, and its next time is on the grid. -/
theorem fires (h : Paced start period v) (hp : 0 < period) (hidle : v.timer.phase = .idle)
    (hdue : v.timer.due ≤ v.now) (stop : Option Nat) :
    Timer.next v.timer.due v.timer.period v.now = Timer.next start period v.now ∧
      Linked (Precedes start period) (origin start) (⟨v.now, stop⟩ :: v.spans) := by
  rw [h.due] at hdue ⊢
  rw [h.pace]
  exact ⟨Timer.next_next hp hdue,
    (linked_cons _ _).mpr ⟨⟨h.settled_of_idle hidle,hdue⟩,h.linked⟩⟩

theorem closes (h : Linked (Precedes start period) (origin start) v.spans) (now : Nat) :
    Linked (Precedes start period) (origin start) (closeLatest now v.spans) :=
  linked_closeLatest (fun _ _ _ hprec => hprec) now v.spans h

theorem beat (hp : 0 < period) (hb : Beat v v') (h : Paced start period v) :
    Paced start period v' := by
  cases hb with
  | passed millis =>
    have hle : v.now ≤ v.now + millis := Nat.le_add_right _ _
    exact { h with
      reached := h.reached.trans hle
      settled := fun hnot => (h.settled hnot).mono hle }
  | cancelled => exact { h with stopped := fun _ => rfl }
  | stopped hidle hcancelled =>
    exact { h with
      ongoing := fun _ hrun => nomatch hrun
      settled := fun _ => h.settled_of_idle hidle
      stopped := fun _ => hcancelled }
  | skipped hidle hdue =>
    obtain ⟨hnext, hlinked⟩ := h.fires hp hidle hdue (some v.now)
    exact ⟨h.pace,hnext,Nat.le_refl _,fun _ hrun => (nomatch hidle.symm.trans hrun),
      fun _ => ⟨v.now,rfl,Nat.le_refl _,Nat.le_refl _⟩,fun hs => (nomatch hidle.symm.trans hs),
      hlinked⟩
  | fired run hidle hdue =>
    obtain ⟨hnext, hlinked⟩ := h.fires hp hidle hdue none
    exact ⟨h.pace,hnext,Nat.le_refl _,fun _ _ => ⟨_,_,rfl,rfl⟩,
      fun hnot => absurd rfl (hnot run),fun hs => (nomatch hs),hlinked⟩
  | rested run hticking =>
    obtain ⟨tick, rest, hspans, -⟩ := h.ongoing run hticking
    have hlinked := closes h.linked v.now
    have hdue := h.due
    have hreached := h.reached
    rw [hspans] at hdue hreached hlinked ⊢
    exact ⟨h.pace,hdue,hreached,fun _ hrun => (nomatch hrun),
      fun _ => ⟨v.now,rfl,hreached,Nat.le_refl _⟩,fun hs => (nomatch hs),hlinked⟩

end Paced

/-! ## As soon as it can -/

/-- The timer has not waited for longer than it had to. -/
structure Punctual (start period : Nat) (v : View) : Prop extends Paced start period v where
  waited : v.timer.phase = .idle → ∀ e, (latest (origin start) v.spans).stop = some e →
    v.now ≤ max e v.timer.due
  prompt : Linked (Prompts start period) (origin start) v.spans

theorem start_punctual (job : String) (now period : Nat) (isCancelled : Bool) :
    Punctual now period ⟨now, .start job now period isCancelled, []⟩ where
  toPaced := start_paced job now period isCancelled
  waited _ _ _ := (Nat.le_add_right now period).trans (Nat.le_max_right _ _)
  prompt := linked_nil

namespace Punctual

variable {start period : Nat} {v v' : View}

theorem fires (h : Punctual start period v) (hidle : v.timer.phase = .idle)
    (hdue : v.timer.due ≤ v.now) (stop : Option Nat) :
    Linked (Prompts start period) (origin start) (⟨v.now, stop⟩ :: v.spans) := by
  obtain ⟨e, hstop, -, he⟩ := h.settled_of_idle hidle
  have hwaited := h.waited hidle e hstop
  have heq : v.now = max e v.timer.due := by omega
  rw [h.due] at heq
  exact (linked_cons _ _).mpr ⟨⟨e,hstop,heq⟩,h.prompt⟩

theorem beat (hp : 0 < period) (hb : Beat v v')
    (hheeds : v.timer.phase = .idle → v'.now ≤ max v.now v.timer.patience)
    (h : Punctual start period v) : Punctual start period v' := by
  refine ⟨h.toPaced.beat hp hb, ?_, ?_⟩
  · intro hidle e hstop
    cases hb with
    | passed millis =>
      have hwaited : v.now ≤ max e v.timer.due := h.waited hidle e hstop
      have hmore : v.now + millis ≤ max v.now v.timer.patience := hheeds hidle
      have hpatience := v.timer.patience_le
      change v.now + millis ≤ max e v.timer.due
      omega
    | cancelled => exact h.waited hidle e hstop
    | stopped _ _ => cases hidle
    | skipped _ _ =>
      cases hstop
      exact Nat.le_max_left _ _
    | fired run _ _ => cases hidle
    | rested run hticking =>
      obtain ⟨tick, rest, hspans, -⟩ := h.ongoing run hticking
      rw [hspans] at hstop
      cases hstop
      exact Nat.le_max_left _ _
  · cases hb with
    | skipped hidle hdue => exact h.fires hidle hdue (some v.now)
    | fired run hidle hdue => exact h.fires hidle hdue none
    | rested run hticking =>
      exact linked_closeLatest (fun _ _ _ hprompts => hprompts) v.now v.spans h.prompt
    | _ => exact h.prompt

end Punctual

/-! ## Counting ticks -/

section

variable {start period : Nat} {spans : List TickSpan}

/-- As many ticks as whole periods, at most, start within any time from the start of the timer. -/
theorem count_le (hp : 0 < period) (ticks : List TickSpan)
    (hfirst : ∀ tick ∈ ticks, start + period ≤ tick.start)
    (hslots : ticks.Pairwise fun a b => a.slot start period < b.slot start period) (length : Nat) :
    ticks.countP (fun tick => tick.start ≤ start + length) ≤ length / period := by
  rw [List.countP_eq_length_filter]
  set early := ticks.filter fun tick => tick.start ≤ start + length
  -- their slots are distinct, and among the slots 1, …, length / period
  have hnodup : (early.map (slot start period)).Nodup := by
    rw [List.Nodup, List.pairwise_map]
    exact (hslots.filter _).imp Nat.ne_of_lt
  have hwithin : early.map (slot start period) ⊆ List.range' 1 (length / period) := by
    intro k hk
    obtain ⟨tick, htick, rfl⟩ := List.mem_map.mp hk
    obtain ⟨hmem, hle⟩ := List.mem_filter.mp htick
    have hge := hfirst tick hmem
    have hle : tick.start ≤ start + length := of_decide_eq_true hle
    have hone : 1 ≤ tick.slot start period := by
      rw [slot, Nat.le_div_iff_mul_le hp]
      omega
    have hlast : tick.slot start period ≤ length / period := Nat.div_le_div_right (by omega)
    rw [List.mem_range'_1]
    omega
  have hle := (hnodup.subperm hwithin).length_le
  rwa [List.length_map, List.length_range'] at hle

/-- Ticks that are over within a period start at the points of the grid, one at each. -/
theorem starts_of_brief (hp : 0 < period)
    (hprompt : Linked (Prompts start period) (origin start) spans) (now : Nat)
    (hbrief : ∀ tick ∈ spans, tick.IsBrief period now) :
    (latest (origin start) spans).start = start + spans.length * period ∧
      spans.reverse.map TickSpan.start =
        (List.range spans.length).map fun k => start + (k + 1) * period := by
  induction spans with
  | nil => exact ⟨by simp [latest, origin],rfl⟩
  | cons tick spans ih =>
    obtain ⟨⟨e, hstop, hstart⟩, hrest⟩ := (linked_cons tick spans).mp hprompt
    have hearlier : ∀ other ∈ spans, other.IsBrief period now :=
      fun other hother => hbrief other (List.mem_cons_of_mem _ hother)
    obtain ⟨hlast, hstarts⟩ := ih hrest hearlier
    have he : e < start + (spans.length + 1) * period := by
      have hlatest := latest_of_forall (IsBrief period now) (origin start) spans hearlier
        (origin_isBrief hp start now)
      rw [IsBrief, hstop, hlast, Nat.add_assoc, ← Nat.succ_mul] at hlatest
      exact hlatest
    rw [hlast, Timer.next_point _ hp] at hstart
    have hpoint : tick.start = start + (spans.length + 1) * period := by omega
    refine ⟨hpoint, ?_⟩
    rw [List.reverse_cons, List.map_append, hstarts, List.length_cons, List.range_succ,
      List.map_append, List.map_singleton, List.map_singleton, hpoint]

end

/-- Before a timer can have missed a point of the grid, the latest tick must have lasted for a period,
or the timer must have been cancelled. -/
theorem Punctual.now_le {start period : Nat} {v : View} (h : Punctual start period v)
    (hp : 0 < period) (hbrief : ∀ tick ∈ v.spans, tick.IsBrief period v.now)
    (hlive : v.timer.isCancelled = false) : v.now ≤ start + (v.spans.length + 1) * period := by
  have hlast := (starts_of_brief hp h.prompt v.now hbrief).1
  have hlatest := latest_of_forall (IsBrief period v.now) (origin start) v.spans hbrief
    (origin_isBrief hp start v.now)
  rw [IsBrief, hlast, Nat.add_assoc, ← Nat.succ_mul] at hlatest
  cases hphase : v.timer.phase with
  | idle =>
    obtain ⟨e, hstop, -, -⟩ := h.settled_of_idle hphase
    have hwaited := h.waited hphase e hstop
    rw [h.due, hlast, Timer.next_point _ hp] at hwaited
    rw [hstop] at hlatest
    have he : e < start + (v.spans.length + 1) * period := hlatest
    omega
  | ticking run =>
    obtain ⟨tick, rest, hspans, hopen⟩ := h.ongoing run hphase
    have hnone : (latest (origin start) v.spans).stop = none := by rw [hspans]; exact hopen
    rw [hnone] at hlatest
    exact Nat.le_of_lt hlatest
  | stopped =>
    have hcancelled := h.stopped hphase
    rw [hlive] at hcancelled
    cases hcancelled

namespace Moment

/-! ## Main statement -/

/-- The ticks of a timer that was started at some time never overlap. None starts before a period
has passed, no two start in the same slot of the grid, and so no more than the whole number of
periods start within any time from then on. If the timer goes on as soon as it can, each tick starts
at the first point of the grid after the one before it started, or later as soon as that is over. As
long as all ticks last for less than a period, they start at the points of the grid; and if the timer
is not cancelled then, there is one at each point that has passed. -/
theorem ticks_keep_time (m : Moment) (timer period : Nat) (job : String) (isCancelled : Bool)
    (moves : List Move)
    (hnew : m.scheduler.timers[timer]? = some (.start job m.now period isCancelled))
    (hp : 0 < period) :
    let ticks := m.ticks timer moves
    let last := m.after moves
    ticks.Pairwise (fun a b => a.IsOver b.start) ∧
    (∀ tick ∈ ticks, m.now + period ≤ tick.start) ∧
    ticks.Pairwise (fun a b => a.slot m.now period < b.slot m.now period) ∧
    (∀ length, ticks.countP (fun tick => tick.start ≤ m.now + length) ≤ length / period) ∧
    (m.isPrompt timer moves = true →
      (origin m.now :: ticks).IsChain (Prompts m.now period) ∧
      ((∀ tick ∈ ticks, tick.IsBrief period last.now) →
        ticks.map TickSpan.start =
          (List.range ticks.length).map (fun k => m.now + (k + 1) * period) ∧
        ((∃ t, last.scheduler.timers[timer]? = some t ∧ t.isCancelled = false) →
          ∀ k, m.now + (k + 1) * period < last.now → k < ticks.length))) := by
  intro ticks last
  obtain ⟨t, -, hpaced⟩ := after_view (Paced m.now period) (fun _ _ => Paced.beat hp) m [] moves hnew
    (start_paced job m.now period isCancelled)
  have hpairs : (origin m.now :: ticks).Pairwise (Precedes m.now period) := by
    rw [show origin m.now :: ticks = (m.spans timer [] moves ++ [origin m.now]).reverse from
      List.reverse_concat.symm, List.pairwise_reverse]
    exact List.isChain_iff_pairwise.mp hpaced.linked
  obtain ⟨hfirst, hpairs⟩ := List.pairwise_cons.mp hpairs
  have hfirst : ∀ tick ∈ ticks, m.now + period ≤ tick.start := by
    intro tick htick
    have hnext := (hfirst tick htick).2
    rwa [origin, Timer.next_of_eq] at hnext
  have hslots : ticks.Pairwise fun a b => a.slot m.now period < b.slot m.now period :=
    hpairs.imp fun hprecedes => Timer.slot_lt_of_next_le hp hprecedes.2
  refine ⟨hpairs.imp And.left, hfirst, hslots, count_le hp ticks hfirst hslots, ?_⟩
  intro hprompt
  obtain ⟨t, ht, hpunctual⟩ := after_prompt_view (Punctual m.now period)
    (fun _ _ hb hheeds => Punctual.beat hp hb hheeds) m [] moves hnew hprompt
    (start_punctual job m.now period isCancelled)
  refine ⟨linked_reverse _ hpunctual.prompt, fun hbrief => ?_⟩
  have hbrief : ∀ tick ∈ m.spans timer [] moves, tick.IsBrief period last.now :=
    fun tick htick => hbrief tick (List.mem_reverse.mpr htick)
  rw [show ticks.length = (m.spans timer [] moves).length from List.length_reverse]
  refine ⟨(starts_of_brief hp hpunctual.prompt last.now hbrief).2, ?_⟩
  rintro ⟨u, hu, hlive⟩ k hk
  cases ht.symm.trans hu
  have hnow : last.now ≤ m.now + ((m.spans timer [] moves).length + 1) * period :=
    hpunctual.now_le hp hbrief hlive
  have hlt : (k + 1) * period < ((m.spans timer [] moves).length + 1) * period := by omega
  exact Nat.lt_of_add_lt_add_right (Nat.lt_of_mul_lt_mul_right hlt)

/-- A tick that lasts for two and a half periods, the one after it, and then one on the grid again. -/
theorem long_tick_keeps_time :
    let m := (new ⟨⟨true, 100⟩⟩ 7).after [.register updateStatusJob, .schedule "vm_update_status" 100]
    let moves := [.pass 100, .fireTimer 0, .pass 250, .endRun 0 .finished, .finishTick 0,
      .fireTimer 0, .pass 30, .endRun 1 .finished, .finishTick 0, .pass 20, .fireTimer 0, .pass 60]
    let ticks := m.ticks 0 moves
    m.scheduler.timers[0]? = some (.start "vm_update_status" m.now 100 false) ∧
    ticks = [⟨107, some 357⟩, ⟨357, some 387⟩, ⟨407, none⟩] ∧
    ticks.Pairwise (fun a b => a.IsOver b.start) ∧
    (∀ length, ticks.countP (fun tick => tick.start ≤ 7 + length) ≤ length / 100) ∧
    (origin 7 :: ticks).IsChain (Prompts 7 100) := by
  intro m moves ticks
  have hnew : m.scheduler.timers[0]? = some (.start "vm_update_status" m.now 100 false) := by
    decide +kernel
  obtain ⟨hover, -, -, hcount, hprompt⟩ :=
    ticks_keep_time m 0 100 "vm_update_status" false moves hnew (by decide)
  have hchain := (hprompt (by decide +kernel)).1
  exact ⟨hnew,by decide +kernel,hover,hcount,hchain⟩

end Moment
end VmFleet.Jobs
