import Mathlib.Logic.Basic
import Mathlib.Tactic.Set
import VmFleet.Proofs.Central.Requests

/-!
# How long a request remains without an answer

Any number of callers make requests, and whoever serves them takes, answers or loses requests, or does
nothing at all. Time passes while no caller can learn anything new, up to the moment at which one of them
gives up. A caller gives up some time after its request has got into the mailbox; nothing limits how long
it stands in line before.
-/

set_option autoImplicit false

namespace VmFleet

open Delegation

/-- Whoever serves the channel has room for one more request. -/
def Delegation.Exchange.HasRoom (x : Exchange) (channel : String) : Prop :=
  ∀ number, x.routes.lookup channel = some number → (x.mailbox number).isOpen = true →
    (x.mailbox number).queue.length + (x.mailbox number).admitted.length < Mailbox.capacity

namespace Central

/-- A caller waits for what comes of its request, or has been told. -/
inductive Stand where
  | waits (p : Exchange.Pending)
  | told (result : Except TransportError Json)

structure Caller where
  start : Nat
  stand : Stand

def Caller.isWaiting (c : Caller) : Bool :=
  match c.stand with
  | .waits _ => true
  | .told _ => false

/-- What a caller finds when it looks after its request. -/
def sight (now timeout : Nat) (x : Exchange) (p : Exchange.Pending) : Stand × Exchange :=
  let y := x.enter p
  match y.await now timeout p with
  | .over result => (.told result, y.finish p)
  | .due deadline => (.waits { p with deadline := some deadline }, y)
  | .inLine => (.waits p, y)

/-- A look would tell the caller something that it does not know. -/
def hasNews (now timeout : Nat) (x : Exchange) (p : Exchange.Pending) : Bool :=
  match (x.enter p).await now timeout p with
  | .over _ => true
  | .due _ => p.deadline.isNone
  | .inLine => false

/-- Threads of the central side look in this way. -/
theorem awaitReply_sight (w : World) (channel : String) (payload : Except String Json)
    (p : Exchange.Pending) :
    w.awaitReply channel payload p =
      match sight w.now w.timeoutMillis w.exchange p with
      | (.told result, x) => .answer result { w with exchange := x }
      | (.waits q, x) => .wait (.reply q) { w with exchange := x } := by
  simp only [World.awaitReply, sight]
  cases (w.exchange.enter p).await w.now w.timeoutMillis p with
  | _ => rfl

theorem canProceed_hasNews {α : Type} (w : World) (rest : Program α) (p : Exchange.Pending) :
    (Thread.mk rest (.reply p)).canProceed w = hasNews w.now w.timeoutMillis w.exchange p := rfl

structure Traffic where
  now : Nat
  timeout : Nat
  exchange : Exchange
  callers : List Caller

namespace Traffic

def new (timeout : Nat) : Traffic := ⟨0,timeout,.empty,[]⟩

/-- Another caller makes a request, and looks after it at once. -/
def ask (s : Traffic) (channel : String) (payload : Json) : Traffic :=
  match s.exchange.send channel payload with
  | (.error e, _) => { s with callers := s.callers ++ [⟨s.now,.told (.error e)⟩] }
  | (.ok p, x) =>
    let seen := sight s.now s.timeout x p
    { s with exchange := seen.2, callers := s.callers ++ [⟨s.now,seen.1⟩] }

def look (s : Traffic) (n : Nat) : Traffic :=
  match s.callers[n]? with
  | some ⟨start,.waits p⟩ =>
    let seen := sight s.now s.timeout s.exchange p
    { s with exchange := seen.2, callers := s.callers.set n ⟨start,seen.1⟩ }
  | _ => s

/-- No caller has news, and none gives up earlier. -/
def mayPass (s : Traffic) (millis : Nat) : Bool :=
  s.callers.all fun c =>
    match c.stand with
    | .waits p => !hasNews s.now s.timeout s.exchange p && p.deadline.all (s.now + millis ≤ ·)
    | .told _ => true

def passed (s : Traffic) (millis : Nat) : Traffic := { s with now := s.now + millis }

inductive Step : Traffic → Traffic → Prop
  | deal (s : Traffic) (x : Exchange) (h : s.exchange.Deal x) : Step s { s with exchange := x }
  | ask (s : Traffic) (channel : String) (payload : Json) : Step s (s.ask channel payload)
  | look (s : Traffic) (n : Nat) : Step s (s.look n)
  | pass (s : Traffic) (millis : Nat) (h : s.mayPass millis = true) : Step s (s.passed millis)

def Run : Traffic → Traffic → Prop := Relation.ReflTransGen Step

/-- States that new traffic can come to. -/
def Reached (s : Traffic) : Prop := ∃ timeout, Run (new timeout) s

/-- Without an answer although its time is up. -/
def Late (s : Traffic) (c : Caller) : Prop := c.isWaiting = true ∧ c.start + s.timeout < s.now

end Traffic

/-! ## Looks -/

theorem await_cases (x : Exchange) (now timeout : Nat) (p : Exchange.Pending) :
    (∃ result, x.await now timeout p = .over result) ∨
      x.slot p.ticket = .pending ∧
        (x.isInLine p = true ∧ x.await now timeout p = .inLine ∨
          x.isInLine p = false ∧ now < p.deadline.getD (now + timeout) ∧
            x.await now timeout p = .due (p.deadline.getD (now + timeout))) := by
  unfold Exchange.await
  split
  · exact Or.inl ⟨_,rfl⟩
  · exact Or.inl ⟨_,rfl⟩
  · exact Or.inl ⟨_,rfl⟩
  · rename_i hslot
    cases hline : x.isInLine p with
    | true => exact Or.inr ⟨hslot,Or.inl ⟨rfl,rfl⟩⟩
    | false =>
      by_cases hlate : p.deadline.getD (now + timeout) ≤ now
      · exact Or.inl ⟨_,if_pos hlate⟩
      · exact Or.inr ⟨hslot,Or.inr ⟨rfl,Nat.lt_of_not_le hlate,if_neg hlate⟩⟩

/-- What a caller is told depends on its slot and on whether it stands in line. -/
theorem await_congr (x y : Exchange) (now timeout : Nat) (p : Exchange.Pending)
    (hslot : x.slot p.ticket = y.slot p.ticket) (hline : x.isInLine p = y.isInLine p) :
    x.await now timeout p = y.await now timeout p := by
  rw [Exchange.await, hslot, hline, Exchange.await]

theorem await_enter (x : Exchange) (now timeout : Nat) (p q : Exchange.Pending) :
    (x.enter q).await now timeout p = x.await now timeout p :=
  await_congr _ _ now timeout p (slot_enter x q p.ticket) (isInLine_enter x q p)

/-- The two exchanges have the same slots and the same lines. -/
structure Alike (x y : Exchange) : Prop where
  slots : y.slots = x.slots
  line : ∀ q, y.isInLine q = x.isInLine q

theorem Alike.trans {x y z : Exchange} (h : Alike x y) (h' : Alike y z) : Alike x z :=
  ⟨h'.slots.trans h.slots,fun q => (h'.line q).trans (h.line q)⟩

theorem Alike.await_eq {x y : Exchange} (h : Alike x y) (now timeout : Nat) (p : Exchange.Pending) :
    y.await now timeout p = x.await now timeout p := by
  apply await_congr
  · rw [Exchange.slot, h.slots, Exchange.slot]
  · exact h.line p

theorem Alike.hasNews_eq {x y : Exchange} (h : Alike x y) (now timeout : Nat)
    (p : Exchange.Pending) : hasNews now timeout y p = hasNews now timeout x p := by
  rw [hasNews, await_enter, h.await_eq, hasNews, await_enter]

theorem enter_alike (x : Exchange) (p : Exchange.Pending) : Alike x (x.enter p) :=
  ⟨rfl,isInLine_enter x p⟩

theorem finish_alike (x : Exchange) (p : Exchange.Pending) : Alike x (x.finish p) := by
  refine ⟨rfl,?_⟩
  intro q
  unfold Exchange.isInLine Exchange.finish
  rcases Exchange.mailbox_onMailbox x p.number q.number (fun m => m.finish p.ticket) with h | ⟨heq, h⟩
  · rw [h]
  · rw [h, ← heq]
    rfl

/-- A look changes nothing for others; and the caller is told, or waits in line, or until its time is
up. -/
theorem sight_cases (now timeout : Nat) (x : Exchange) (p : Exchange.Pending) :
    Alike x (sight now timeout x p).2 ∧ x.Deals (sight now timeout x p).2 ∧
      ((∃ result, (sight now timeout x p).1 = .told result) ∨
        x.isInLine p = true ∧ (sight now timeout x p).1 = .waits p ∨
        x.isInLine p = false ∧ now < p.deadline.getD (now + timeout) ∧ (sight now timeout x p).1 =
          .waits { p with deadline := some (p.deadline.getD (now + timeout)) }) := by
  have henter : x.Deals (x.enter p) := .single (.enter x p)
  rcases await_cases x now timeout p with ⟨result, h⟩ | ⟨-, ⟨hline, h⟩ | ⟨hline, hdue, h⟩⟩
  · have hsight : sight now timeout x p = (.told result,(x.enter p).finish p) := by
      simp only [sight, await_enter, h]
    rw [hsight]
    exact ⟨(enter_alike x p).trans (finish_alike _ p),henter.tail (.finish _ p),Or.inl ⟨result,rfl⟩⟩
  · have hsight : sight now timeout x p = (.waits p,x.enter p) := by
      simp only [sight, await_enter, h]
    rw [hsight]
    exact ⟨enter_alike x p,henter,Or.inr (Or.inl ⟨hline,rfl⟩)⟩
  · have hsight : sight now timeout x p =
        (.waits { p with deadline := some (p.deadline.getD (now + timeout)) },x.enter p) := by
      simp only [sight, await_enter, h]
    rw [hsight]
    exact ⟨enter_alike x p,henter,Or.inr (Or.inr ⟨hline,hdue,rfl⟩)⟩

/-- Whoever is not in line and does not know yet when to give up has news. -/
theorem hasNews_of_unknown (now timeout : Nat) (x : Exchange) (p : Exchange.Pending)
    (hline : x.isInLine p = false) (hp : p.deadline = none) : hasNews now timeout x p = true := by
  rcases await_cases x now timeout p with ⟨result, h⟩ | ⟨-, ⟨h, -⟩ | ⟨-, -, h⟩⟩
  · simp only [hasNews, await_enter, h]
  · rw [hline] at h
    cases h
  · simp only [hasNews, await_enter, h, hp, Option.isNone_none]

/-- Who has looked and waits on has no news. -/
theorem sight_settles (now timeout : Nat) (x : Exchange) (p q : Exchange.Pending)
    (h : (sight now timeout x p).1 = .waits q) : hasNews now timeout x q = false := by
  rcases await_cases x now timeout p with ⟨result, ha⟩ | ⟨hslot, ⟨-, ha⟩ | ⟨hline, hdue, ha⟩⟩
  · simp only [sight, await_enter, ha] at h
    cases h
  · simp only [sight, await_enter, ha] at h
    cases h
    simp only [hasNews, await_enter, ha]
  · simp only [sight, await_enter, ha] at h
    cases h
    set deadline := p.deadline.getD (now + timeout)
    have hline' : x.isInLine { p with deadline := some deadline } = false := hline
    have hnext : x.await now timeout { p with deadline := some deadline } = .due deadline := by
      simp [Exchange.await, hslot, hline', hdue]
    simp only [hasNews, await_enter, hnext, Option.isNone_some]

namespace Traffic

variable {s s' : Traffic} {n : Nat} {p : Exchange.Pending}

theorem mayPass_iff (s : Traffic) (millis : Nat) :
    s.mayPass millis = true ↔ ∀ c ∈ s.callers, ∀ p, c.stand = .waits p →
      hasNews s.now s.timeout s.exchange p = false ∧
        ∀ deadline, p.deadline = some deadline → s.now + millis ≤ deadline := by
  rw [mayPass, List.all_eq_true]
  apply forall₂_congr
  intro c _
  obtain ⟨start, q | result⟩ := c
  · simp [Option.all_eq_true]
  · simp

theorem look_waiting (start : Nat) (hn : s.callers[n]? = some ⟨start,.waits p⟩) :
    s.look n = { s with
      exchange := (sight s.now s.timeout s.exchange p).2
      callers := s.callers.set n ⟨start,(sight s.now s.timeout s.exchange p).1⟩ } := by
  rw [look, hn]

theorem look_told (h : ∀ start p, s.callers[n]? ≠ some ⟨start,.waits p⟩) : s.look n = s := by
  unfold look
  split
  · rename_i start p hn
    exact absurd hn (h start p)
  · rfl

/-- Either there is somebody who looks, or nothing happens. -/
theorem look_cases (s : Traffic) (n : Nat) :
    s.look n = s ∧ (∀ start p, s.callers[n]? ≠ some ⟨start,.waits p⟩) ∨
      ∃ start p, s.callers[n]? = some ⟨start,.waits p⟩ := by
  by_cases h : ∃ start p, s.callers[n]? = some ⟨start,.waits p⟩
  · exact Or.inr h
  · have hnone : ∀ start p, s.callers[n]? ≠ some ⟨start,.waits p⟩ := fun start p hn => h ⟨start,p,hn⟩
    exact Or.inl ⟨look_told hnone,hnone⟩

theorem ask_cases (s : Traffic) (channel : String) (payload : Json) :
    (∃ e, s.ask channel payload = { s with callers := s.callers ++ [⟨s.now,.told (.error e)⟩] }) ∨
      ∃ p x, s.exchange.send channel payload = (.ok p, x) ∧ s.ask channel payload = { s with
        exchange := (sight s.now s.timeout x p).2
        callers := s.callers ++ [⟨s.now,(sight s.now s.timeout x p).1⟩] } := by
  unfold ask
  split
  · rename_i e _ _
    exact Or.inl ⟨e,rfl⟩
  · rename_i p x h
    exact Or.inr ⟨p,x,h,rfl⟩

theorem ask_now (s : Traffic) (channel : String) (payload : Json) :
    (s.ask channel payload).now = s.now := by
  rcases ask_cases s channel payload with ⟨e, h⟩ | ⟨p, x, -, h⟩ <;> rw [h]

theorem send_pending (x y : Exchange) (channel : String) (payload : Json)
    (h : x.send channel payload = (.ok p, y)) :
    p.ticket = x.slots.length ∧ p.deadline = none ∧ p.ticket < y.slots.length ∧ x.Deals y := by
  have hdeal := Exchange.Deal.send x channel payload
  rw [h] at hdeal
  unfold Exchange.send at h
  split at h
  · cases h
  · split at h
    · cases h
    · cases h
      exact ⟨rfl,rfl,by simp,.single hdeal⟩

/-- Whatever a step does, to the exchange it does what anybody may do. -/
theorem step_deals (h : Step s s') : s.exchange.Deals s'.exchange := by
  cases h with
  | deal x h => exact .single h
  | ask channel payload =>
    rcases ask_cases s channel payload with ⟨e, h⟩ | ⟨p, x, hsend, h⟩
    · rw [h]
      exact .refl
    · rw [h]
      exact (send_pending _ _ channel payload hsend).2.2.2.trans (sight_cases ..).2.1
  | look n =>
    rcases look_cases s n with ⟨h, -⟩ | ⟨start, p, hn⟩
    · rw [h]
      exact .refl
    · rw [look_waiting start hn]
      exact (sight_cases ..).2.1
  | pass millis h => exact .refl

theorem step_timeout (h : Step s s') : s'.timeout = s.timeout := by
  cases h with
  | deal x h => rfl
  | ask channel payload =>
    rcases ask_cases s channel payload with ⟨e, h⟩ | ⟨p, x, -, h⟩ <;> rw [h]
  | look n =>
    rcases look_cases s n with ⟨h, -⟩ | ⟨start, p, hn⟩
    · rw [h]
    · rw [look_waiting start hn]
  | pass millis h => rfl

/-! ## What is known of those who wait -/

/-- The request was sent; if it is known when the caller gives up, then the request is in the mailbox, and
the caller has not waited for longer. -/
structure Sound (s : Traffic) (p : Exchange.Pending) : Prop where
  sent : p.ticket < s.exchange.slots.length
  due : ∀ deadline, p.deadline = some deadline →
    s.exchange.isInLine p = false ∧ s.now ≤ deadline ∧ deadline ≤ s.now + s.timeout

structure Sane (s : Traffic) : Prop where
  exchange : Exchange.Deals .empty s.exchange
  callers : ∀ c ∈ s.callers, ∀ p, c.stand = .waits p → s.Sound p

theorem new_sane (timeout : Nat) : (new timeout).Sane :=
  ⟨.refl,fun _ hc => (List.not_mem_nil hc).elim⟩

theorem Sound.deals (h : s.Sound p) (x : Exchange) (hx : s.exchange.Deals x) (callers : List Caller) :
    ({ s with exchange := x, callers } : Traffic).Sound p := by
  have hlater := Exchange.deals_later _ _ hx
  refine ⟨Nat.lt_of_lt_of_le h.sent hlater.slots,?_⟩
  intro deadline hd
  obtain ⟨hline, hdue⟩ := h.due deadline hd
  exact ⟨hlater.isInLine p h.sent hline,hdue⟩

/-- A caller that waits on after a look waits for the same, and gives up in time. -/
theorem Sound.sight (h : s.Sound p) (callers : List Caller) (q : Exchange.Pending)
    (hq : (Central.sight s.now s.timeout s.exchange p).1 = .waits q) :
    ({ s with exchange := (Central.sight s.now s.timeout s.exchange p).2, callers } : Traffic).Sound q := by
  obtain ⟨halike, hdeals, hcases⟩ := sight_cases s.now s.timeout s.exchange p
  have hlater := h.deals _ hdeals callers
  rcases hcases with ⟨result, hr⟩ | ⟨-, hr⟩ | ⟨hline, hlt, hr⟩
  · rw [hr] at hq
    cases hq
  · rw [hr] at hq
    cases hq
    exact hlater
  · rw [hr] at hq
    cases hq
    refine ⟨hlater.sent,?_⟩
    intro deadline hd
    cases hd
    refine ⟨(halike.line p).trans hline,Nat.le_of_lt hlt,?_⟩
    cases hp : p.deadline with
    | none => exact Nat.le_refl _
    | some deadline => exact (h.due deadline hp).2.2

theorem step_sane (h : Step s s') (hs : s.Sane) : s'.Sane := by
  have hexchange := hs.exchange.trans (step_deals h)
  cases h with
  | deal x h => exact ⟨hexchange,fun c hc p hp => (hs.callers c hc p hp).deals x (.single h) _⟩
  | ask channel payload =>
    rcases ask_cases s channel payload with ⟨e, h⟩ | ⟨p, x, hsend, h⟩
    · rw [h] at hexchange ⊢
      refine ⟨hexchange,?_⟩
      intro c hc q hq
      rcases List.mem_append.mp hc with hc | hc
      · exact (hs.callers c hc q hq).deals _ .refl _
      · cases List.mem_singleton.mp hc
        cases hq
    · obtain ⟨-, hnone, hticket, hdeals⟩ := send_pending _ _ channel payload hsend
      have hnew : ({ s with exchange := x } : Traffic).Sound p :=
        ⟨hticket,fun deadline hd => by rw [hnone] at hd; cases hd⟩
      rw [h] at hexchange ⊢
      refine ⟨hexchange,?_⟩
      intro c hc q hq
      rcases List.mem_append.mp hc with hc | hc
      · exact (hs.callers c hc q hq).deals _ (hdeals.trans (sight_cases ..).2.1) _
      · cases List.mem_singleton.mp hc
        exact hnew.sight _ q hq
  | look n =>
    rcases look_cases s n with ⟨h, -⟩ | ⟨start, p, hn⟩
    · rwa [h]
    · rw [look_waiting start hn] at hexchange ⊢
      refine ⟨hexchange,?_⟩
      intro c hc q hq
      rcases List.mem_or_eq_of_mem_set hc with hc | rfl
      · exact (hs.callers c hc q hq).deals _ (sight_cases ..).2.1 _
      · exact (hs.callers _ (List.mem_of_getElem? hn) p rfl).sight _ q hq
  | pass millis h =>
    refine ⟨hexchange,?_⟩
    intro c hc q hq
    obtain ⟨hsent, hdue⟩ := hs.callers c hc q hq
    refine ⟨hsent,?_⟩
    intro deadline hd
    have hpass := ((mayPass_iff s millis).mp h c hc q hq).2 deadline hd
    obtain ⟨hline, -, hlimit⟩ := hdue deadline hd
    exact ⟨hline,hpass,Nat.le_trans hlimit (Nat.add_le_add_right (Nat.le_add_right _ _) _)⟩

theorem reached_sane (h : Reached s) : s.Sane := by
  obtain ⟨timeout, hrun⟩ := h
  induction hrun with
  | refl => exact new_sane timeout
  | tail _ hs ih => exact step_sane hs ih

/-! ## Out of line -/

/-- The request has got into the mailbox, and its caller gives up by then at the latest. -/
structure InTime (s : Traffic) (limit : Nat) (p : Exchange.Pending) : Prop where
  sent : p.ticket < s.exchange.slots.length
  line : s.exchange.isInLine p = false
  now : s.now ≤ p.deadline.getD (s.now + s.timeout)
  limit : p.deadline.getD (s.now + s.timeout) ≤ limit

/-- The caller came at this moment and will have been told by then. -/
def Promised (s : Traffic) (n start limit : Nat) : Prop :=
  ∃ c, s.callers[n]? = some c ∧ c.start = start ∧ ∀ p, c.stand = .waits p → s.InTime limit p

variable {start limit : Nat}

theorem InTime.deals (h : s.InTime limit p) (x : Exchange) (hx : s.exchange.Deals x)
    (callers : List Caller) : ({ s with exchange := x, callers } : Traffic).InTime limit p := by
  have hlater := Exchange.deals_later _ _ hx
  exact ⟨Nat.lt_of_lt_of_le h.sent hlater.slots,hlater.isInLine p h.sent h.line,h.now,h.limit⟩

theorem InTime.sight (h : s.InTime limit p) (callers : List Caller) (q : Exchange.Pending)
    (hq : (Central.sight s.now s.timeout s.exchange p).1 = .waits q) :
    ({ s with exchange := (Central.sight s.now s.timeout s.exchange p).2, callers } : Traffic).InTime
      limit q := by
  obtain ⟨-, hdeals, hcases⟩ := sight_cases s.now s.timeout s.exchange p
  have hlater := h.deals _ hdeals callers
  rcases hcases with ⟨result, hr⟩ | ⟨hline, -⟩ | ⟨-, hlt, hr⟩
  · rw [hr] at hq
    cases hq
  · rw [h.line] at hline
    cases hline
  · rw [hr] at hq
    cases hq
    exact ⟨hlater.sent,hlater.line,Nat.le_of_lt hlt,h.limit⟩

theorem step_promised (h : Step s s') (hp : s.Promised n start limit) : s'.Promised n start limit := by
  obtain ⟨c, hc, hstart, hin⟩ := hp
  cases h with
  | deal x h => exact ⟨c,hc,hstart,fun p hp => (hin p hp).deals x (.single h) _⟩
  | ask channel payload =>
    have hlt := (List.getElem?_eq_some_iff.mp hc).1
    have hdeals := step_deals (.ask s channel payload)
    rcases ask_cases s channel payload with ⟨e, h⟩ | ⟨p, x, -, h⟩
    · rw [h] at hdeals ⊢
      exact ⟨c,(List.getElem?_append_left hlt).trans hc,hstart,fun p hp => (hin p hp).deals _ hdeals _⟩
    · rw [h] at hdeals ⊢
      exact ⟨c,(List.getElem?_append_left hlt).trans hc,hstart,fun p hp => (hin p hp).deals _ hdeals _⟩
  | look m =>
    rcases look_cases s m with ⟨h, -⟩ | ⟨start', p, hm⟩
    · rw [h]
      exact ⟨c,hc,hstart,hin⟩
    · rw [look_waiting start' hm]
      by_cases hmn : m = n
      · subst hmn
        cases hm.symm.trans hc
        have hlt := (List.getElem?_eq_some_iff.mp hc).1
        exact ⟨_,List.getElem?_set_self hlt,hstart,fun q hq => (hin p rfl).sight _ q hq⟩
      · exact ⟨c,(List.getElem?_set_ne hmn).trans hc,hstart,
          fun q hq => (hin q hq).deals _ (sight_cases ..).2.1 _⟩
  | pass millis h =>
    refine ⟨c,hc,hstart,?_⟩
    intro p hp
    obtain ⟨hsent, hline, hnow, hlimit⟩ := hin p hp
    obtain ⟨hnews, hdue⟩ := (mayPass_iff s millis).mp h c (List.mem_of_getElem? hc) p hp
    -- a caller that does not know when to give up would have looked first
    cases hd : p.deadline with
    | none =>
      rw [hasNews_of_unknown _ _ _ p hline hd] at hnews
      cases hnews
    | some deadline =>
      rw [hd] at hnow hlimit
      refine ⟨hsent,hline,?_,?_⟩
      · rw [hd]
        exact hdue deadline hd
      · rw [hd]
        exact hlimit

theorem run_promised (hr : Run s s') (h : s.Promised n start limit) : s'.Promised n start limit := by
  induction hr with
  | refl => exact h
  | tail _ hs ih => exact step_promised hs ih

theorem Promised.now (h : s.Promised n start limit) (c : Caller) (hc : s.callers[n]? = some c)
    (hwaits : c.isWaiting = true) : s.now ≤ limit := by
  obtain ⟨c', hc', -, hin⟩ := h
  cases hc'.symm.trans hc
  obtain ⟨start, p | result⟩ := c
  · obtain ⟨-, -, hnow, hlimit⟩ := hin p rfl
    omega
  · cases hwaits

/-- Once a request has got into the mailbox, its caller is told within the time for a reply. -/
theorem Sane.promised (hs : s.Sane) (c : Caller) (hc : s.callers[n]? = some c)
    (hp : c.stand = .waits p) (hline : s.exchange.isInLine p = false) :
    s.Promised n c.start (s.now + s.timeout) := by
  refine ⟨c,hc,rfl,?_⟩
  intro q hq
  cases hp.symm.trans hq
  obtain ⟨hsent, hdue⟩ := hs.callers c (List.mem_of_getElem? hc) p hp
  cases hd : p.deadline with
  | none => exact ⟨hsent,hline,by simp [hd],by simp [hd]⟩
  | some deadline =>
    obtain ⟨-, hnow, hlimit⟩ := hdue deadline hd
    exact ⟨hsent,hline,by rwa [hd],by rwa [hd]⟩

/-! ## In line -/

/-- Whoever sends stands in line exactly when there is no room. -/
theorem isInLine_send (x : Exchange) (hx : Exchange.Deals .empty x) (channel : String)
    (payload : Json) (number : Nat) (hroute : x.routes.lookup channel = some number)
    (hopen : (x.mailbox number).isOpen = true) :
    ∃ p y, x.send channel payload = (.ok p,y) ∧ y.slot p.ticket = .pending ∧
      (y.isInLine p = false ↔
        (x.mailbox number).queue.length + (x.mailbox number).admitted.length < Mailbox.capacity) := by
  let r : Request := ⟨x.slots.length,⟨channel,payload⟩⟩
  let y : Exchange :=
    { x.onMailbox number fun m => m.accept r with slots := x.slots ++ [.pending] }
  have hsend : x.send channel payload = (.ok ⟨channel,number,x.slots.length,none⟩,y) := by
    simp [Exchange.send, hroute, hopen, y, r]
  have hmailbox : y.mailbox number = (x.mailbox number).accept r :=
    Exchange.mailbox_onMailbox_of_open x number _ hopen
  refine ⟨_,y,hsend,by simp [y, Exchange.slot],?_⟩
  rw [Exchange.isInLine, hmailbox, List.any_eq_false]
  constructor
  · intro hnone
    apply Decidable.byContradiction
    intro hfull
    have hline : r ∈ ((x.mailbox number).accept r).line := by
      simp [Mailbox.accept, hfull]
    exact hnone r hline (decide_eq_true rfl)
  · intro hroom q hq ht
    have hticket : q.ticket = x.slots.length := of_decide_eq_true ht
    rw [line_accept_of_room _ _ hroom] at hq
    exact Nat.ne_of_lt (Exchange.deals_line x hx number q hq) hticket

theorem ask_promised (hs : s.Sane) (channel : String) (payload : Json)
    (hroom : s.exchange.HasRoom channel) :
    (s.ask channel payload).Promised s.callers.length s.now (s.now + s.timeout) := by
  rcases ask_cases s channel payload with ⟨e, h⟩ | ⟨p, x, hsend, h⟩
  · rw [h]
    refine ⟨_,List.getElem?_concat_length,rfl,?_⟩
    intro p hp
    cases hp
  · have hin : ({ s with exchange := x } : Traffic).InTime (s.now + s.timeout) p := by
      obtain ⟨-, hnone, hticket, -⟩ := send_pending _ _ channel payload hsend
      refine ⟨hticket,?_,by simp [hnone],by simp [hnone]⟩
      cases hroute : s.exchange.routes.lookup channel with
      | none => simp [Exchange.send, hroute] at hsend
      | some number =>
        cases hopen : (s.exchange.mailbox number).isOpen with
        | false => simp [Exchange.send, hroute, hopen] at hsend
        | true =>
          obtain ⟨q, y, hsend', -, hline⟩ :=
            isInLine_send s.exchange hs.exchange channel payload number hroute hopen
          cases hsend'.symm.trans hsend
          exact hline.mpr (hroom number hroute hopen)
    rw [h]
    exact ⟨_,List.getElem?_concat_length,rfl,fun q hq => hin.sight _ q hq⟩

/-- The caller came at this moment, and its request stands in line. -/
def Stuck (s : Traffic) (n start : Nat) : Prop :=
  ∃ p, s.callers[n]? = some ⟨start,.waits p⟩ ∧ s.exchange.slot p.ticket = .pending ∧
    s.exchange.isInLine p = true

theorem sight_inLine (now timeout : Nat) (x : Exchange) (p : Exchange.Pending)
    (hslot : x.slot p.ticket = .pending) (hline : x.isInLine p = true) :
    (sight now timeout x p).1 = .waits p := by
  have h : x.await now timeout p = .inLine := by simp [Exchange.await, hslot, hline]
  simp only [sight, await_enter, h]

theorem ask_stuck (hs : s.Sane) (channel : String) (payload : Json)
    (hfull : ¬ s.exchange.HasRoom channel) : (s.ask channel payload).Stuck s.callers.length s.now := by
  simp only [Exchange.HasRoom, not_forall] at hfull
  obtain ⟨number, hroute, hopen, hfull⟩ := hfull
  obtain ⟨p, y, hsend, hslot, hline⟩ :=
    isInLine_send s.exchange hs.exchange channel payload number hroute hopen
  have hin : y.isInLine p = true := by
    rw [← Bool.not_eq_false]
    exact fun h => hfull (hline.mp h)
  have halike := (sight_cases s.now s.timeout y p).1
  refine ⟨p,?_,?_,?_⟩
  · simp only [ask, hsend, sight_inLine s.now s.timeout y p hslot hin, List.getElem?_concat_length]
  · simp only [ask, hsend]
    rw [Exchange.slot, halike.slots]
    exact hslot
  · simp only [ask, hsend]
    exact (halike.line p).trans hin

/-! ## While nobody serves -/

/-- A look leaves everything as it is for all others. -/
theorem look_alike (s : Traffic) (n : Nat) :
    (s.look n).now = s.now ∧ (s.look n).timeout = s.timeout ∧
      (s.look n).callers.length = s.callers.length ∧ Alike s.exchange (s.look n).exchange ∧
      ∀ m, n ≠ m → (s.look n).callers[m]? = s.callers[m]? := by
  rcases look_cases s n with ⟨h, -⟩ | ⟨start, p, hn⟩
  · rw [h]
    exact ⟨rfl,rfl,rfl,⟨rfl,fun _ => rfl⟩,fun _ _ => rfl⟩
  · rw [look_waiting start hn]
    exact ⟨rfl,rfl,List.length_set,(sight_cases ..).1,fun m hm => List.getElem?_set_ne hm⟩

theorem look_stuck (m : Nat) (h : s.Stuck n start) : (s.look m).Stuck n start := by
  obtain ⟨p, hn, hslot, hline⟩ := h
  obtain ⟨-, -, -, halike, hothers⟩ := look_alike s m
  refine ⟨p,?_,?_,(halike.line p).trans hline⟩
  · by_cases hmn : m = n
    · subst hmn
      have hlt := (List.getElem?_eq_some_iff.mp hn).1
      rw [look_waiting start hn, sight_inLine _ _ _ p hslot hline]
      exact List.getElem?_set_self hlt
    · rw [hothers n hmn]
      exact hn
  · rw [Exchange.slot, halike.slots]
    exact hslot

/-- The caller has no news, and does not give up yet. -/
def Settled (s : Traffic) (n : Nat) : Prop :=
  ∀ c, s.callers[n]? = some c → ∀ p, c.stand = .waits p →
    hasNews s.now s.timeout s.exchange p = false ∧
      ∀ deadline, p.deadline = some deadline → s.now < deadline

theorem look_settled_of_ne (m : Nat) (hmn : m ≠ n) (h : s.Settled n) : (s.look m).Settled n := by
  obtain ⟨hnow, htimeout, -, halike, hothers⟩ := look_alike s m
  intro c hc p hp
  rw [hothers n hmn] at hc
  rw [hnow, htimeout, halike.hasNews_eq]
  exact h c hc p hp

theorem look_settled (hs : s.Sane) (n : Nat) : (s.look n).Settled n := by
  have hsane := step_sane (.look s n) hs
  obtain ⟨hnow, htimeout, -, halike, -⟩ := look_alike s n
  rintro ⟨start, stand⟩ hc p rfl
  rcases look_cases s n with ⟨h, hnone⟩ | ⟨start', q, hn⟩
  · rw [h] at hc
    exact absurd hc (hnone start p)
  · have hcallers := congrArg Traffic.callers (look_waiting start' hn)
    rw [hcallers, List.getElem?_set_self (List.getElem?_eq_some_iff.mp hn).1] at hc
    obtain ⟨-, hsight⟩ := Caller.mk.inj (Option.some.inj hc)
    have hsettles := sight_settles _ _ _ _ _ hsight
    refine ⟨?_,?_⟩
    · rw [hnow, htimeout, halike.hasNews_eq]
      exact hsettles
    · intro deadline hd
      rw [hnow]
      rcases (sight_cases s.now s.timeout s.exchange q).2.2 with ⟨_, h⟩ | ⟨hline, h⟩ | ⟨-, hlt, h⟩
      · rw [h] at hsight
        cases hsight
      · -- nobody in line knows when to give up
        rw [h] at hsight
        cases hsight
        have hdue := (hs.callers _ (List.mem_of_getElem? hn) p rfl).due deadline hd
        rw [hline] at hdue
        cases hdue.1
      · rw [h] at hsight
        cases hsight
        cases hd
        exact hlt

/-- All callers look, one after the other. -/
def sweep (s : Traffic) : Traffic := (List.range s.callers.length).foldl look s

theorem looks_run (ns : List Nat) (s : Traffic) : Run s (ns.foldl look s) := by
  induction ns generalizing s with
  | nil => exact .refl
  | cons n ns ih => exact .head (.look s n) (ih (s.look n))

theorem sweep_run (s : Traffic) : Run s s.sweep := looks_run _ s

/-- Once so many have looked they are settled, and nobody who was stuck has got anywhere. -/
theorem looks_settled (hs : s.Sane) (k : Nat) :
    let t := (List.range k).foldl look s
    t.Sane ∧ t.now = s.now ∧ t.timeout = s.timeout ∧
      t.callers.length = s.callers.length ∧ (∀ m < k, t.Settled m) ∧
      ∀ n start, s.Stuck n start → t.Stuck n start := by
  induction k with
  | zero => exact ⟨hs,rfl,rfl,rfl,fun _ hm => absurd hm (Nat.not_lt_zero _),fun _ _ h => h⟩
  | succ k ih =>
    obtain ⟨hsane, hnow, htimeout, hlength, hsettled, hstuck⟩ := ih
    rw [List.range_succ, List.foldl_append]
    set t := (List.range k).foldl look s
    obtain ⟨hnow', htimeout', hlength', -, -⟩ := look_alike t k
    refine ⟨step_sane (.look t k) hsane,hnow'.trans hnow,
      htimeout'.trans htimeout,hlength'.trans hlength,?_,
      fun n start h => look_stuck k (hstuck n start h)⟩
    intro m hm
    by_cases hmk : m = k
    · rw [hmk]
      exact look_settled hsane k
    · exact look_settled_of_ne k (Ne.symm hmk) (hsettled m (by omega))

theorem sweep_mayPass (hs : s.Sane) : s.sweep.mayPass 1 = true := by
  obtain ⟨-, -, -, hlength, hsettled, -⟩ := looks_settled hs s.callers.length
  rw [mayPass_iff]
  intro c hc p hp
  obtain ⟨m, hlt, hm⟩ := List.mem_iff_getElem.mp hc
  have hget : s.sweep.callers[m]? = some c := by rw [List.getElem?_eq_getElem hlt, hm]
  exact hsettled m (by rw [← hlength]; exact hlt) c hget p hp

/-- As long as nobody serves, whoever is stuck remains so for any time. -/
theorem stuck_remains (hs : s.Sane) (start : Nat) (h : s.Stuck n start) (k : Nat) :
    ∃ s', Run s s' ∧ s'.Sane ∧ s'.now = s.now + k ∧ s'.timeout = s.timeout ∧ s'.Stuck n start := by
  induction k with
  | zero => exact ⟨s,.refl,hs,rfl,rfl,h⟩
  | succ k ih =>
    obtain ⟨t, hrun, hsane, hnow, htimeout, hstuck⟩ := ih
    obtain ⟨hsane', hnow', htimeout', -, -, hstuck'⟩ := looks_settled hsane t.callers.length
    have hpass : Step t.sweep (t.sweep.passed 1) := .pass t.sweep 1 (sweep_mayPass hsane)
    refine ⟨_,(hrun.trans (sweep_run t)).tail hpass,step_sane hpass hsane',?_,htimeout'.trans htimeout,
      hstuck' n start hstuck⟩
    change t.sweep.now + 1 = s.now + (k + 1)
    rw [show t.sweep.now = t.now from hnow', hnow, Nat.add_assoc]

theorem Stuck.waits (h : s.Stuck n start) :
    ∃ c, s.callers[n]? = some c ∧ c.start = start ∧ c.isWaiting = true := by
  obtain ⟨p, hn, -⟩ := h
  exact ⟨_,hn,rfl,rfl⟩

theorem run_timeout (hr : Run s s') : s'.timeout = s.timeout := by
  induction hr with
  | refl => rfl
  | tail _ hs ih => exact (step_timeout hs).trans ih

/-! ## Main statement -/

/-- Whatever callers and those who serve have done so far: a caller whose request has got into the mailbox
is told within the time for a reply from now on. So a request that is made now is never late, whatever
happens afterwards, exactly when there is room for it or nobody serves. -/
theorem never_late_iff_room (s : Traffic) (hs : Reached s) :
    (∀ (n : Nat) (c : Caller) (p : Exchange.Pending), s.callers[n]? = some c →
      c.stand = .waits p → s.exchange.isInLine p = false → ∀ (s' : Traffic) (c' : Caller), Run s s' →
        s'.callers[n]? = some c' → c'.isWaiting = true → s'.now ≤ s.now + s.timeout) ∧
    ∀ channel payload,
      (∀ s' c, Run (s.ask channel payload) s' → s'.callers[s.callers.length]? = some c →
        ¬ s'.Late c) ↔ s.exchange.HasRoom channel := by
  have hsane := reached_sane hs
  constructor
  · intro n c p hc hp hline s' c' hrun hc' hwaits
    exact (run_promised hrun (hsane.promised c hc hp hline)).now c' hc' hwaits
  · intro channel payload
    have htimeout : (s.ask channel payload).timeout = s.timeout := step_timeout (.ask s channel payload)
    constructor
    · intro hnever
      apply Classical.byContradiction
      intro hfull
      have hstuck := ask_stuck hsane channel payload hfull
      obtain ⟨s', hrun, -, hnow, htimeout', hstuck'⟩ :=
        stuck_remains (step_sane (.ask s channel payload) hsane) s.now hstuck (s.timeout + 1)
      obtain ⟨c, hc, hstart, hwaits⟩ := hstuck'.waits
      rw [ask_now] at hnow
      refine hnever s' c hrun hc ⟨hwaits,?_⟩
      rw [hstart, htimeout', htimeout, hnow]
      omega
    · rintro hroom s' c hrun hc ⟨hwaits, hlate⟩
      have hpromised := run_promised hrun (ask_promised hsane channel payload hroom)
      have hnow := hpromised.now c hc hwaits
      obtain ⟨c', hc', hstart, -⟩ := hpromised
      cases hc'.symm.trans hc
      rw [run_timeout hrun, htimeout] at hlate
      omega

/-- Somebody serves the channel, in a mailbox that is empty, and never takes anything. -/
def served (timeout : Nat) (channel : String) : Traffic :=
  { new timeout with exchange := (Exchange.empty.register channel).2 }

theorem served_run (timeout : Nat) (channel : String) : Run (new timeout) (served timeout channel) :=
  .single (.deal _ _ (.register .empty channel))

def askAll (s : Traffic) (channel : String) (payloads : List Json) : Traffic :=
  payloads.foldl (fun s payload => s.ask channel payload) s

theorem askAll_run (channel : String) (payloads : List Json) (s : Traffic) :
    Run s (s.askAll channel payloads) := by
  induction payloads generalizing s with
  | nil => exact .refl
  | cons payload payloads ih => exact .head (.ask s channel payload) (ih _)

theorem lone_request_is_never_late :
    let s := served 1000 resourceCreate
    Reached s ∧ s.exchange.HasRoom resourceCreate ∧
      ∀ s' c, Run (s.ask resourceCreate (.str ping)) s' → s'.callers[0]? = some c → ¬ s'.Late c := by
  intro s
  have hs : Reached s := ⟨1000,served_run 1000 resourceCreate⟩
  have hroom : s.exchange.HasRoom resourceCreate := by
    intro number hroute _
    cases hroute
    decide
  exact ⟨hs,hroom,((never_late_iff_room s hs).2 resourceCreate (.str ping)).mpr hroom⟩

theorem sweep_between_run (s : Traffic) (first rest : Nat) (h : s.mayPass first = true)
    (h' : (s.passed first).sweep.mayPass rest = true) : Run s ((s.passed first).sweep.passed rest) :=
  .head (.pass s first h) ((sweep_run _).tail (.pass _ rest h'))

/-- Sixty-four requests fill the mailbox. When their callers have all given up, one who has come after
them still stands in line. -/
theorem crowded_request_is_late :
    let crowded := (served 1000 resourceCreate).askAll resourceCreate
      (List.replicate 64 (.str ping))
    let start := crowded.ask resourceCreate (.str ping)
    let late := (start.passed 1000).sweep.passed 1
    Reached crowded ∧ Run start late ∧
      late.callers.map Caller.isWaiting = List.replicate 64 false ++ [true] ∧
      ∃ c, late.callers[crowded.callers.length]? = some c ∧ late.Late c := by
  intro crowded start late
  have hcrowded : Reached crowded := ⟨1000,(served_run 1000 _).trans (askAll_run _ _ _)⟩
  have hrun : Run start late := sweep_between_run start 1000 1 (by decide +kernel) (by decide +kernel)
  have hwaiting : late.callers.map Caller.isWaiting = List.replicate 64 false ++ [true] := by
    decide +kernel
  have hlast : (late.callers[crowded.callers.length]?).map (fun c => (c.isWaiting, c.start)) =
      some (true, 0) := by decide +kernel
  obtain ⟨c, hc, hstate⟩ := Option.map_eq_some_iff.mp hlast
  obtain ⟨hwaits, hstart⟩ := Prod.mk.inj hstate
  refine ⟨hcrowded,hrun,hwaiting,c,hc,hwaits,?_⟩
  rw [hstart]
  decide +kernel

end Traffic
end Central
end VmFleet
