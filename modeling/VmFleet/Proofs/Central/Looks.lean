import VmFleet.Central.Run
import VmFleet.Proofs.Program.Crowd

/-!
# A thread that looks again and again

A thread that waits looks at the world from time to time and finds that it can go on, or has to wait
longer. Between two looks others may do whatever they like with the exchange, the records and
everything else; only time does not pass by the moment that the thread waits for. All that the other
activities do, and the way time moves, is of this kind.
-/

set_option autoImplicit false

namespace VmFleet.Central

open Delegation Jobs Config Tasks

variable {α : Type}

/-- What may come to pass while a thread waits. -/
structure Meanwhile (t : Thread α) (w u : World) : Prop where
  exchange : Exchange.Deals w.exchange u.exchange
  timeout : u.timeoutMillis = w.timeoutMillis
  now : w.now ≤ u.now
  due : ∀ d, t.due = some d → u.now ≤ max w.now d

/-- The effects that are answered before a program is over or has to wait. -/
def asked (isCancelled : Bool) : Program α → Wait → World → List Effect
  | .done _, _, _ => []
  | .perform e next, wait, w =>
    match w.react isCancelled e wait with
    | .answer a w => e :: asked isCancelled (next a) .nothing w
    | .wait _ _ => []

namespace Thread

def look (t : Thread α) (w : World) : Progress α × World := proceed false t.rest t.wait w

def asks (t : Thread α) (w : World) : List Effect := asked false t.rest t.wait w

/-- Every request that is sent opens a slot for its reply. -/
def sends (t : Thread α) (w : World) : Nat :=
  (t.look w).2.exchange.slots.length - w.exchange.slots.length

/-- The thread is about to look at the world, after these effects were answered and so many requests
were sent. -/
inductive Looks (first : Thread α) (start : World) :
    List Effect → Nat → Thread α → World → Prop where
  | start : Looks first start [] 0 first start
  | again (effects : List Effect) (sent : Nat) (t t' : Thread α) (w w' u : World) :
    Looks first start effects sent t w → t.look w = (.wait t', w') → Meanwhile t' w' u →
    Looks first start (effects ++ t.asks w) (sent + t.sends w) t' u

end Thread

/-! ## What others do -/

/-- Time stands still, and the exchange is changed as anybody may change it. -/
structure Dealt (w u : World) : Prop where
  exchange : Exchange.Deals w.exchange u.exchange
  timeout : u.timeoutMillis = w.timeoutMillis
  now : u.now = w.now

theorem dealt_of_eq (w u : World) (hx : u.exchange = w.exchange)
    (ht : u.timeoutMillis = w.timeoutMillis) (hn : u.now = w.now) : Dealt w u :=
  ⟨by rw [hx]; exact .refl,ht,hn⟩

theorem Dealt.refl (w : World) : Dealt w w := dealt_of_eq w w rfl rfl rfl

theorem Dealt.trans {w v u : World} (h : Dealt w v) (k : Dealt v u) : Dealt w u :=
  ⟨h.exchange.trans k.exchange,k.timeout.trans h.timeout,k.now.trans h.now⟩

theorem dealt_exchange (w : World) (x : Exchange) (h : Exchange.Deals w.exchange x) :
    Dealt w { w with exchange := x } := ⟨h,rfl,rfl⟩

theorem react_dealt (w : World) (isCancelled : Bool) (e : Effect) (wait : Wait) :
    Dealt w (w.react isCancelled e wait).world := by
  cases e with
  | delegate channel payload =>
    obtain ⟨x, hdeals, hw⟩ := delegate_world w isCancelled channel payload wait
    rw [hw]
    exact dealt_exchange w x hdeals
  | wait millis =>
    rw [wait_world]
    exact .refl w
  | _ => exact dealt_of_eq _ _ rfl rfl rfl

theorem proceed_dealt (isCancelled : Bool) (p : Program α) (wait : Wait) (w : World) :
    Dealt w (proceed isCancelled p wait w).2 :=
  proceed_related Dealt .refl (fun _ _ _ => .trans) isCancelled
    (fun w => react_dealt w isCancelled) p wait w

namespace World

theorem stepHandler_dealt (w : World) (channel : String) (h : Handler) :
    Dealt w (w.stepHandler channel h).2 := by
  have hm := dealt_exchange w _ (h.move_deals w.now w.exchange)
  unfold stepHandler
  split <;> rename_i hmove <;> rw [hmove] at hm
  · exact hm.trans (dealt_of_eq _ _ rfl rfl rfl)
  · exact hm
  · exact .refl w
  · exact hm

theorem receive_dealt (w : World) (name : String) : Dealt w (w.receive name).2 := by
  unfold receive
  split <;> exact dealt_of_eq _ _ rfl rfl rfl

theorem notifyWorker_dealt (w : World) (n : Nat) (worker : Worker) :
    Dealt w (w.notifyWorker n worker).2 := by
  have hr := w.receive_dealt (workerName n)
  unfold notifyWorker
  split
  · split <;> rename_i hreceived <;> rw [hreceived] at hr
    · exact hr.trans (dealt_of_eq _ _ rfl rfl rfl)
    · exact hr.trans (dealt_of_eq _ _ rfl rfl rfl)
    · exact hr
  · exact .refl w

theorem stepWorker_dealt (w : World) (n : Nat) : Dealt w (w.stepWorker n).2 := by
  unfold stepWorker
  split
  · exact .refl w
  · rename_i worker _
    have hm := dealt_exchange w _ (worker.move_deals w.exchange)
    split <;> rename_i hmove <;> rw [hmove] at hm
    · exact hm.trans (dealt_of_eq _ _ rfl rfl rfl)
    · exact hm.trans (dealt_of_eq _ _ rfl rfl rfl)
    · exact hm
    · exact w.notifyWorker_dealt n worker

theorem stepErrand_dealt (w : World) (n errand : Nat) : Dealt w (w.stepErrand n errand).2 := by
  unfold stepErrand
  split
  · exact .refl w
  · rename_i worker _
    split
    · rename_i next x ha
      exact (dealt_exchange w x (worker.advance_deals next errand w.now w.exchange x ha)).trans
        (dealt_of_eq _ _ rfl rfl rfl)
    · exact .refl w

theorem notifyScheduler_dealt (w : World) (s : Scheduler) : Dealt w (w.notifyScheduler s).2 := by
  have hr := w.receive_dealt schedulerName
  unfold notifyScheduler
  split
  · split <;> rename_i hreceived <;> rw [hreceived] at hr
    · exact hr.trans (dealt_of_eq _ _ rfl rfl rfl)
    · exact hr.trans (dealt_of_eq _ _ rfl rfl rfl)
    · exact hr
  · exact .refl w

theorem stepScheduler_dealt (w : World) (s : Scheduler) : Dealt w (w.stepScheduler s).2 := by
  unfold stepScheduler
  split
  · exact dealt_of_eq _ _ rfl rfl rfl
  · split
    · exact dealt_of_eq _ _ rfl rfl rfl
    · exact w.notifyScheduler_dealt s

theorem withScheduler_dealt (w : World) (f : Scheduler → Turn × World)
    (hf : ∀ s, Dealt w (f s).2) : Dealt w (w.withScheduler f).2 := by
  unfold withScheduler
  split
  · exact .refl w
  · exact hf _

/-- No activity does more to the exchange than anybody may, and none moves time. -/
theorem step_dealt (w : World) (a : Activity) : Dealt w (w.step a).2 := by
  cases a with
  | handler channel h => exact w.stepHandler_dealt channel h
  | worker n => exact w.stepWorker_dealt n
  | errand worker n => exact w.stepErrand_dealt worker n
  | provisioning t =>
    have hp := proceed_dealt false t.rest t.wait w
    simp only [step]
    split <;> rename_i hproceed <;> rw [hproceed] at hp
    · exact hp
    · exact hp
  | inquiry n t =>
    have hp := proceed_dealt false t.rest t.wait w
    simp only [step]
    split <;> rename_i hproceed <;> rw [hproceed] at hp
    · exact hp.trans (dealt_of_eq _ _ rfl rfl rfl)
    · exact hp
  | scheduler => exact w.withScheduler_dealt _ w.stepScheduler_dealt
  | timer n =>
    refine w.withScheduler_dealt _ fun s => ?_
    unfold stepTimer
    split <;> exact dealt_of_eq _ _ rfl rfl rfl
  | manual run =>
    refine w.withScheduler_dealt _ fun s => ?_
    unfold stepManual
    split <;> exact dealt_of_eq _ _ rfl rfl rfl
  | work run t =>
    have hp := proceed_dealt w.isCancelled t.rest t.wait w
    simp only [step]
    split <;> rename_i hproceed <;> rw [hproceed] at hp
    · refine hp.trans ?_
      unfold endRun
      split <;> exact dealt_of_eq _ _ rfl rfl rfl
    · exact hp
  | watcher watcher period due =>
    change Dealt w (w.stepWatcher watcher period due).2
    unfold stepWatcher
    split
    · exact .refl w
    · split
      · exact .refl w
      · exact dealt_of_eq _ _ rfl rfl rfl

end World

/-- So it is with a turn: whose turn it was joins the others again. -/
theorem turn_dealt (w w' : World) (h : w.turn = some w') : Dealt w w' := by
  unfold World.turn at h
  split at h
  · cases h
  · rename_i a rest _
    have hstep : Dealt w ({ w with ready := rest }.step a).2 :=
      (dealt_of_eq w { w with ready := rest } rfl rfl rfl).trans (World.step_dealt _ a)
    split at h <;> rename_i hturn <;> rw [hturn] at hstep <;> cases h
    · exact hstep.trans (dealt_of_eq _ _ rfl rfl rfl)
    · exact hstep.trans (dealt_of_eq _ _ rfl rfl rfl)
    · exact hstep.trans (dealt_of_eq _ _ rfl rfl rfl)

theorem Dealt.meanwhile {w u : World} (h : Dealt w u) (t : Thread α) : Meanwhile t w u := by
  refine ⟨h.exchange, h.timeout, Nat.le_of_eq h.now.symm, ?_⟩
  intro d _
  rw [h.now]
  exact Nat.le_max_left w.now d

/-! ## How time moves -/

theorem earlier_left (e : Option Nat) (n : Nat) : ∃ k, earlier (some n) e = some k ∧ k ≤ n := by
  cases e with
  | none => exact ⟨n,rfl,Nat.le_refl n⟩
  | some m => exact ⟨min n m,rfl,Nat.min_le_left n m⟩

theorem earlier_right (d : Option Nat) (n : Nat) : ∃ k, earlier d (some n) = some k ∧ k ≤ n := by
  cases d with
  | none => exact ⟨n,rfl,Nat.le_refl n⟩
  | some m => exact ⟨min m n,rfl,Nat.min_le_right m n⟩

theorem foldl_earlier_le (w : World) (as : List Activity) (d : Option Nat) (time : Nat)
    (h : as.foldl (fun d a => earlier d (w.dueOf a)) d = some time) :
    (∀ n, d = some n → time ≤ n) ∧ ∀ a ∈ as, ∀ n, w.dueOf a = some n → time ≤ n := by
  induction as generalizing d with
  | nil =>
    refine ⟨?_, fun a ha => absurd ha List.not_mem_nil⟩
    rintro n rfl
    exact Nat.le_of_eq (Option.some.inj h).symm
  | cons a as ih =>
    obtain ⟨hfirst, hrest⟩ := ih (earlier d (w.dueOf a)) h
    constructor
    · rintro n rfl
      obtain ⟨k, hk, hle⟩ := earlier_left (w.dueOf a) n
      exact Nat.le_trans (hfirst k hk) hle
    · intro b hb n hn
      rcases List.mem_cons.mp hb with rfl | hb
      · obtain ⟨k, hk, hle⟩ := earlier_right d n
        exact Nat.le_trans (hfirst k (hn ▸ hk)) hle
      · exact hrest b hb n hn

/-- When nothing can go on, time moves straight to the first moment that anybody waits for. -/
theorem passing_meanwhile {σ : Type} (g : Foreground σ) (w : World) (s : σ) (time : Nat)
    (t : Thread α) (a : Activity) (ha : a ∈ w.blocked) (hdue : w.dueOf a = t.due)
    (h : nextDue g w s = some time) : Meanwhile t w { w with now := max w.now time } := by
  refine ⟨.refl, rfl, Nat.le_max_left w.now time, ?_⟩
  intro d hd
  have hle : time ≤ d := (foldl_earlier_le w w.blocked (g.due s) time h).2 a ha d (hdue.trans hd)
  dsimp only
  omega

/-- The central side goes on while the thread waits: an activity has its turn, somebody in the
foreground acts, those who can go on are woken, or nobody can and time moves. -/
inductive Goes (t : Thread α) : World → World → Prop
  | turn (w w' : World) (h : w.turn = some w') : Goes t w w'
  | act {β : Type} (p : Program β) (wait : Wait) (w : World) : Goes t w (proceed false p wait w).2
  | wake (w : World) : Goes t w w.wake
  | pass {σ : Type} (g : Foreground σ) (s : σ) (w : World) (time : Nat) (a : Activity)
      (ha : a ∈ w.blocked) (hdue : w.dueOf a = t.due) (h : nextDue g w s = some time) :
      Goes t w { w with now := max w.now time }

theorem Meanwhile.trans {t : Thread α} {w v u : World} (h : Meanwhile t w v)
    (k : Meanwhile t v u) : Meanwhile t w u := by
  refine ⟨h.exchange.trans k.exchange, k.timeout.trans h.timeout, Nat.le_trans h.now k.now, ?_⟩
  intro d hd
  have hfirst := h.due d hd
  have hsecond := k.due d hd
  omega

theorem goes_meanwhile (t : Thread α) (w u : World) (h : Goes t w u) : Meanwhile t w u := by
  cases h with
  | turn _ _ h => exact (turn_dealt w u h).meanwhile t
  | act p wait w => exact (proceed_dealt false p wait w).meanwhile t
  | wake w => exact (dealt_of_eq w w.wake rfl rfl rfl).meanwhile t
  | pass g s w time a ha hdue h => exact passing_meanwhile g w s time t a ha hdue h

/-- However long the central side goes on, it does no more than may come to pass while one waits. -/
theorem run_meanwhile (t : Thread α) (w u : World) (h : Relation.ReflTransGen (Goes t) w u) :
    Meanwhile t w u := by
  induction h with
  | refl => exact (Dealt.refl w).meanwhile t
  | tail _ hgoes ih => exact ih.trans (goes_meanwhile t _ _ hgoes)

end VmFleet.Central
