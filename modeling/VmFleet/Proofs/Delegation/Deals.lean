import Mathlib.Logic.Relation
import VmFleet.Delegation.Handler
import VmFleet.Delegation.Worker

/-!
# What anybody may do to the exchange

Whatever others register, send, take, answer or let go of, slots are never given back, one that is
filled keeps what is in it, and a request that is in its mailbox never gets into the line again.
-/

set_option autoImplicit false

namespace VmFleet.Delegation

namespace Exchange

inductive Deal : Exchange → Exchange → Prop where
  | register (x : Exchange) (channel : String) : Deal x (x.register channel).2
  | unregister (x : Exchange) (channel : String) : Deal x (x.unregister channel)
  | send (x : Exchange) (channel : String) (payload : Json) : Deal x (x.send channel payload).2
  | take (x : Exchange) (number : Nat) : Deal x (x.take number).2
  | reply (x : Exchange) (ticket : Nat) (r : Reply) : Deal x (x.reply ticket r)
  | lose (x : Exchange) (ticket : Nat) : Deal x (x.lose ticket)
  | close (x : Exchange) (number : Nat) : Deal x (x.close number)
  | enter (x : Exchange) (p : Pending) : Deal x (x.enter p)
  | finish (x : Exchange) (p : Pending) : Deal x (x.finish p)

def Deals : Exchange → Exchange → Prop := Relation.ReflTransGen Deal

/-- What is known of the requests that were sent by now is known of them later on as well. -/
structure Later (x y : Exchange) : Prop where
  slots : x.slots.length ≤ y.slots.length
  filled : ∀ (k : Nat) (s : Slot), x.slots[k]? = some s → s ≠ .pending → y.slots[k]? = some s
  /-- Whoever is in line was in line before, or has sent since. -/
  line : ∀ n, ∀ r ∈ (y.mailbox n).line, r ∈ (x.mailbox n).line ∨
    x.slots.length ≤ r.ticket ∧ r.ticket < y.slots.length

theorem Later.refl (x : Exchange) : Later x x :=
  ⟨Nat.le_refl _,fun _ _ h _ => h,fun _ _ h => Or.inl h⟩

theorem Later.trans {x y z : Exchange} (h : Later x y) (h' : Later y z) : Later x z := by
  refine ⟨Nat.le_trans h.slots h'.slots,
    fun k s hk hs => h'.filled k s (h.filled k s hk hs) hs, ?_⟩
  intro n r hr
  rcases h'.line n r hr with hr | ⟨hsent, hlt⟩
  · rcases h.line n r hr with hr | ⟨hsent, hlt⟩
    · exact Or.inl hr
    · exact Or.inr ⟨hsent,Nat.lt_of_lt_of_le hlt h'.slots⟩
  · exact Or.inr ⟨Nat.le_trans h.slots hsent,hlt⟩

theorem Later.isInLine {x y : Exchange} (h : Later x y) (p : Pending)
    (hp : p.ticket < x.slots.length) (hl : x.isInLine p = false) : y.isInLine p = false := by
  refine List.any_eq_false.mpr fun r hr ht => ?_
  have ht := of_decide_eq_true ht
  rcases h.line p.number r hr with hr | hr
  · exact List.any_eq_false.mp hl r hr (decide_eq_true ht)
  · omega

/-! ## One deal -/

theorem mailbox_onMailbox (x : Exchange) (n k : Nat) (f : Mailbox → Mailbox) :
    (x.onMailbox n f).mailbox k = x.mailbox k ∨
      (n = k ∧ (x.onMailbox n f).mailbox k = f (x.mailbox k)) := by
  simp only [mailbox, onMailbox, List.getD_eq_getElem?_getD, List.getElem?_modify]
  cases x.mailboxes[k]? with
  | none => exact Or.inl rfl
  | some m =>
    by_cases hn : n = k
    · exact Or.inr ⟨hn,by simp [hn]⟩
    · exact Or.inl (by simp [hn])

/-- A mailbox that is open exists. -/
theorem mailbox_onMailbox_of_open (x : Exchange) (n : Nat) (f : Mailbox → Mailbox)
    (h : (x.mailbox n).isOpen = true) : (x.onMailbox n f).mailbox n = f (x.mailbox n) := by
  simp only [mailbox, onMailbox, List.getD_eq_getElem?_getD, List.getElem?_modify] at h ⊢
  cases hn : x.mailboxes[n]? with
  | none =>
    rw [hn] at h
    cases h
  | some m => simp

theorem later_onMailbox (x : Exchange) (n : Nat) (f : Mailbox → Mailbox)
    (hf : ∀ r ∈ (f (x.mailbox n)).line, r ∈ (x.mailbox n).line) : Later x (x.onMailbox n f) := by
  refine ⟨Nat.le_refl _, fun k s hk _ => hk, ?_⟩
  intro k r hr
  rcases mailbox_onMailbox x n k f with h | ⟨rfl, h⟩
  · rw [h] at hr
    exact Or.inl hr
  · rw [h] at hr
    exact Or.inl (hf r hr)

theorem later_settle (x : Exchange) (ticket : Nat) (outcome : Slot) :
    Later x (x.settle ticket outcome) := by
  refine ⟨by simp [settle], ?_, fun n r hr => Or.inl hr⟩
  intro k s hk hs
  simp only [settle, List.getElem?_modify, hk, Option.map_eq_map, Option.map_some]
  cases s with
  | pending => exact absurd rfl hs
  | answered reply => simp
  | lost => simp

theorem later_loseAll (tickets : List Nat) (x : Exchange) : Later x (x.loseAll tickets) := by
  induction tickets generalizing x with
  | nil => exact .refl x
  | cons ticket tickets ih => exact (later_settle x ticket .lost).trans (ih (x.lose ticket))

theorem later_unregister (x : Exchange) (channel : String) : Later x (x.unregister channel) :=
  ⟨Nat.le_refl _,fun _ _ h _ => h,fun _ _ h => Or.inl h⟩

theorem later_register (x : Exchange) (channel : String) : Later x (x.register channel).2 := by
  refine ⟨Nat.le_refl _, fun k s hk _ => hk, ?_⟩
  intro n r hr
  left
  simp only [mailbox, register, unregister, List.getD_eq_getElem?_getD, List.getElem?_append] at hr ⊢
  split at hr
  · exact hr
  · -- the mailbox that is opened has nobody in line
    cases hn : n - x.mailboxes.length with
    | zero => simp [hn, Mailbox.empty] at hr
    | succ k => simp [hn] at hr

theorem line_accept (m : Mailbox) (q r : Request) (h : r ∈ (m.accept q).line) :
    r ∈ m.line ∨ r = q := by
  unfold Mailbox.accept at h
  dsimp only at h
  split at h
  · exact Or.inl h
  · simpa using h

theorem later_send (x : Exchange) (channel : String) (payload : Json) :
    Later x (x.send channel payload).2 := by
  unfold send
  split
  · exact .refl x
  · rename_i number _
    split
    · exact .refl x
    · refine ⟨by simp, ?_, ?_⟩
      · intro k s hk _
        exact (List.getElem?_append_left (List.getElem?_eq_some_iff.mp hk).1).trans hk
      · intro n r hr
        rcases mailbox_onMailbox x number n
          (fun m => m.accept ⟨x.slots.length, ⟨channel, payload⟩⟩) with h | ⟨rfl, h⟩
        · exact Or.inl (h ▸ hr)
        · rcases line_accept _ _ r (h ▸ hr) with hr | rfl
          · exact Or.inl hr
          · exact Or.inr ⟨Nat.le_refl _,by simp⟩

theorem line_take (m n : Mailbox) (q : Request) (h : m.take = some (q, n)) :
    n.line = m.line.drop 1 := by
  obtain ⟨isOpen, queue, admitted, line, senders⟩ := m
  cases queue with
  | nil => cases h
  | cons r rest =>
    cases h
    rfl

theorem later_take (x : Exchange) (number : Nat) : Later x (x.take number).2 := by
  unfold take
  split
  · rename_i r m hm
    refine later_onMailbox x number _ ?_
    intro q hq
    rw [line_take _ m r hm] at hq
    exact List.mem_of_mem_drop hq
  · split
    · exact .refl x
    · exact .refl x

theorem deal_later (x y : Exchange) (h : Deal x y) : Later x y := by
  cases h with
  | register channel => exact later_register x channel
  | unregister channel => exact later_unregister x channel
  | send channel payload => exact later_send x channel payload
  | take number => exact later_take x number
  | reply ticket r => exact later_settle x ticket _
  | lose ticket => exact later_settle x ticket .lost
  | close number =>
    refine .trans (later_onMailbox x number Mailbox.close ?_) (later_loseAll _ _)
    intro r hr
    cases hr
  | enter p => exact later_onMailbox x p.number _ fun r hr => hr
  | finish p => exact later_onMailbox x p.number _ fun r hr => hr

theorem deals_later (x y : Exchange) (h : Deals x y) : Later x y := by
  induction h with
  | refl => exact .refl x
  | tail _ hd ih => exact ih.trans (deal_later _ _ hd)

/-- Nobody is in line with a ticket that has not been given out. -/
theorem deals_line (x : Exchange) (h : Deals .empty x) (n : Nat) :
    ∀ r ∈ (x.mailbox n).line, r.ticket < x.slots.length := by
  intro r hr
  rcases (deals_later _ _ h).line n r hr with hr | ⟨-, hlt⟩
  · simp [empty, mailbox] at hr
  · exact hlt

theorem deals_loseAll (tickets : List Nat) (x : Exchange) : Deals x (x.loseAll tickets) := by
  induction tickets generalizing x with
  | nil => exact .refl
  | cons ticket tickets ih => exact .head (.lose x ticket) (ih (x.lose ticket))

end Exchange

/-! ## Those who serve -/

open Exchange

theorem Handler.leave_deals (h : Handler) (x : Exchange) : Deals x (h.leave x) :=
  .head (.close x h.mailbox) (deals_loseAll h.held _)

theorem Treatment.apply_deals (t : Treatment) (r : Request) (x : Exchange) :
    Deals x (t.apply r x) := by
  cases t with
  | hold => exact .refl
  | drop => exact .single (.lose x r.ticket)
  | _ => exact .single (.reply x r.ticket _)

/-- The exchange after a request was looked for is the same or that after one was taken. -/
theorem take_deals (x y : Exchange) (number : Nat) (t : Taking) (h : x.take number = (t, y)) :
    Deals x y := by
  have hd := Deal.take x number
  rw [h] at hd
  exact .single hd

theorem Handler.move_deals (h : Handler) (now : Nat) (x : Exchange) :
    Deals x (h.move now x).2 := by
  unfold Handler.move
  split
  · split
    · exact Treatment.apply_deals _ _ x
    · exact .refl
  · split
    · exact h.leave_deals x
    · split <;> rename_i ht
      · exact take_deals x _ _ _ ht
      · exact take_deals x _ _ _ ht
      · exact (take_deals x _ _ _ ht).trans (h.leave_deals _)

theorem Worker.leave_deals (w : Worker) (x : Exchange) : Deals x (w.leave x) :=
  .head (.unregister x resourceCreate) (.head (.unregister _ workerHealthcheck)
    (.head (.close _ w.createBox) (.single (.close _ w.healthBox))))

theorem Worker.move_deals (w : Worker) (x : Exchange) : Deals x (w.move x).2 := by
  unfold Worker.move
  split
  · exact w.leave_deals x
  · split <;> rename_i hc
    · exact take_deals x _ _ _ hc
    · exact (take_deals x _ _ _ hc).trans (w.leave_deals _)
    · split <;> rename_i hh
      · exact ((take_deals x _ _ _ hc).trans (take_deals _ _ _ _ hh)).tail (.reply _ _ _)
      · exact ((take_deals x _ _ _ hc).trans (take_deals _ _ _ _ hh)).trans (w.leave_deals _)
      · exact (take_deals x _ _ _ hc).trans (take_deals _ _ _ _ hh)

theorem Worker.advance_deals (w v : Worker) (n now : Nat) (x y : Exchange)
    (h : w.advance n now x = some (v, y)) : Deals x y := by
  unfold Worker.advance at h
  split at h
  · cases h
  · split at h
    · split at h
      · cases h
        exact .single (.reply x _ _)
      · cases h
        exact .refl
    · split at h
      · split at h
        · cases h
          exact .single (.reply x _ _)
        · cases h
          exact .refl
      · cases h
    · split at h
      · cases h
        exact .single (.reply x _ _)
      · cases h
    · cases h

end VmFleet.Delegation
