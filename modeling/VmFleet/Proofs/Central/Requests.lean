import VmFleet.Proofs.Central.Looks

/-!
# What comes of a request

A thread that makes a request is told that nobody serves, or looks until there is a reply, the request
is lost, or its time is up. As long as whoever serves has room, the time runs from the moment of the
request, and no more than one request is sent however often one looks.
-/

set_option autoImplicit false

namespace VmFleet.Central

open Delegation Jobs Config Tasks

/-! ## What a sender is told -/

/-- What a filled slot, or one that is empty for too long, means to whoever sent the request. -/
def outcome (channel : String) (timeout : Nat) (isLate : Bool) :
    Slot → Option (Except TransportError Json)
  | .answered (.ok v) => some (.ok v)
  | .answered (.error f) => some (.error (.failure channel f))
  | .lost => some (.error (.closed channel))
  | .pending => if isLate then some (.error (.timeout channel timeout)) else none

/-- What has come by now of a request that was made in the world `w`. -/
def replyBy (channel : String) (w u : World) : Option (Except TransportError Json) :=
  match w.exchange.routes.lookup channel with
  | none => some (.error (.noHandler channel))
  | some number =>
    if (w.exchange.mailbox number).isOpen then
      outcome channel w.timeoutMillis (w.now + w.timeoutMillis ≤ u.now)
        (u.exchange.slots.getD w.exchange.slots.length .pending)
    else some (.error (.closed channel))

/-- Whoever serves the channel has room for one more request. -/
def HasRoom (channel : String) (w : World) : Prop :=
  ∀ number, w.exchange.routes.lookup channel = some number →
    (w.exchange.mailbox number).isOpen = true →
      (w.exchange.mailbox number).queue.length + (w.exchange.mailbox number).admitted.length <
        Mailbox.capacity

theorem await_eq (x : Exchange) (now timeout : Nat) (p : Exchange.Pending)
    (hline : x.isInLine p = false) :
    x.await now timeout p =
      match outcome p.channel timeout (p.deadline.getD (now + timeout) ≤ now) (x.slot p.ticket) with
      | some result => .over result
      | none => .due (p.deadline.getD (now + timeout)) := by
  unfold Exchange.await
  cases x.slot p.ticket with
  | answered reply => cases reply <;> rfl
  | lost => rfl
  | pending =>
    by_cases hlate : p.deadline.getD (now + timeout) ≤ now
    · simp [hline, outcome, hlate]
    · simp [hline, outcome, hlate]

theorem isInLine_enter (x : Exchange) (p q : Exchange.Pending) :
    (x.enter p).isInLine q = x.isInLine q := by
  unfold Exchange.isInLine Exchange.enter
  rcases Exchange.mailbox_onMailbox x p.number q.number (fun m => m.enter p.ticket) with h | ⟨heq, h⟩
  · rw [h]
  · rw [h, ← heq]
    rfl

theorem slot_enter (x : Exchange) (p : Exchange.Pending) (ticket : Nat) :
    (x.enter p).slot ticket = x.slot ticket := rfl

/-- A sender whose request is in its mailbox is told what came of it, or waits until its time is up. -/
theorem awaitReply_eq (w : World) (channel : String) (payload : Except String Json)
    (p : Exchange.Pending) (hline : w.exchange.isInLine p = false) :
    w.awaitReply channel payload p =
      match outcome p.channel w.timeoutMillis
          (p.deadline.getD (w.now + w.timeoutMillis) ≤ w.now) (w.exchange.slot p.ticket) with
      | some result => .answer result { w with exchange := (w.exchange.enter p).finish p }
      | none => .wait (.reply { p with deadline := some (p.deadline.getD (w.now + w.timeoutMillis)) })
          { w with exchange := w.exchange.enter p } := by
  have hline' : (w.exchange.enter p).isInLine p = false := (isInLine_enter _ p p).trans hline
  unfold World.awaitReply
  dsimp only
  rw [await_eq _ _ _ p hline', slot_enter]
  cases outcome p.channel w.timeoutMillis
    (p.deadline.getD (w.now + w.timeoutMillis) ≤ w.now) (w.exchange.slot p.ticket) with
  | some result => rfl
  | none => rfl

/-! ## A request under way -/

/-- The request that is sent in the world `w`, once its time runs. -/
def sentFrom (channel : String) (w : World) (number : Nat) : Exchange.Pending :=
  ⟨channel, number, w.exchange.slots.length, some (w.now + w.timeoutMillis)⟩

/-- The request that was sent in the world `w` is in its mailbox or has been taken from it, and its
time is not over yet. -/
structure UnderWay (channel : String) (w u : World) (number : Nat) : Prop where
  route : w.exchange.routes.lookup channel = some number
  isOpen : (w.exchange.mailbox number).isOpen = true
  slot : w.exchange.slots.length < u.exchange.slots.length
  line : u.exchange.isInLine (sentFrom channel w number) = false
  timeout : u.timeoutMillis = w.timeoutMillis
  now : u.now ≤ w.now + w.timeoutMillis

variable {channel : String} {w u v : World} {number : Nat}

theorem UnderWay.meanwhile {α : Type} (h : UnderWay channel w u number) (rest : Program α)
    (hm : Meanwhile ⟨rest, .reply (sentFrom channel w number)⟩ u v) : UnderWay channel w v number := by
  have hlater := Exchange.deals_later _ _ hm.exchange
  refine ⟨h.route, h.isOpen, Nat.lt_of_lt_of_le h.slot hlater.slots, ?_,
    hm.timeout.trans h.timeout, ?_⟩
  · exact hlater.isInLine (sentFrom channel w number) h.slot h.line
  · have hdue := hm.due (w.now + w.timeoutMillis) rfl
    have hnow := h.now
    omega

theorem UnderWay.replyBy_eq (h : UnderWay channel w u number) :
    replyBy channel w u = outcome channel u.timeoutMillis (w.now + w.timeoutMillis ≤ u.now)
      (u.exchange.slot w.exchange.slots.length) := by
  have hslot : u.exchange.slots.getD w.exchange.slots.length .pending =
      u.exchange.slot w.exchange.slots.length := by
    simp [Exchange.slot, List.getD_eq_getElem?_getD, List.getElem?_eq_getElem h.slot]
  simp only [replyBy, h.route, h.isOpen, if_true, h.timeout, hslot]

/-! ## What the world answers -/

/-- What the world answers when the request that is made in `w` is looked after in `u`, and so many
requests were sent before. -/
inductive Reacted (channel : String) (w u : World) (payload : Json) (sent : Nat) :
    Reaction (.delegate channel (.ok payload)) → Prop
  | answered (reply : Except TransportError Json) (v : World)
      (hreply : replyBy channel w u = some reply) (hrecords : v.records = u.records)
      (hsent : sent + (v.exchange.slots.length - u.exchange.slots.length) ≤ 1) :
      Reacted channel w u payload sent (.answer reply v)
  | waits (number : Nat) (v : World) (hreply : replyBy channel w u = none)
      (hway : UnderWay channel w v number) (hrecords : v.records = u.records)
      (hsent : sent + (v.exchange.slots.length - u.exchange.slots.length) = 1) :
      Reacted channel w u payload sent (.wait (.reply (sentFrom channel w number)) v)

theorem UnderWay.reacts (h : UnderWay channel w u number) (payload : Json) (p : Exchange.Pending)
    (hp : { p with deadline := some (p.deadline.getD (u.now + u.timeoutMillis)) } =
      sentFrom channel w number) :
    Reacted channel w u payload 1 (u.awaitReply channel (.ok payload) p) := by
  have hreply := h.replyBy_eq
  have hline : u.exchange.isInLine p = false := by
    rw [← h.line, ← hp]
    rfl
  obtain ⟨hchannel, -, hticket, hdeadline⟩ := Exchange.Pending.mk.inj hp
  rw [awaitReply_eq u _ _ p hline, hp, hchannel, hticket, Option.some.inj hdeadline, ← hreply]
  have hslots : (u.exchange.enter p).slots = u.exchange.slots := rfl
  cases hr : replyBy channel w u with
  | some reply => exact .answered reply _ hr rfl (by simp [Exchange.finish, Exchange.onMailbox, hslots])
  | none =>
    refine .waits number _ hr ⟨h.route, h.isOpen, h.slot, ?_, h.timeout, h.now⟩ rfl (by simp [hslots])
    exact (isInLine_enter u.exchange p _).trans h.line

theorem line_accept_of_room (m : Mailbox) (r : Request)
    (h : m.queue.length + m.admitted.length < Mailbox.capacity) : (m.accept r).line = m.line := by
  simp [Mailbox.accept, h]

theorem send_underWay (w : World) (number : Nat) (payload : Json)
    (hx : Exchange.Deals .empty w.exchange) (hroom : HasRoom channel w)
    (hroute : w.exchange.routes.lookup channel = some number)
    (hopen : (w.exchange.mailbox number).isOpen = true) :
    ∃ x, w.exchange.send channel payload =
        (.ok { sentFrom channel w number with deadline := none }, x) ∧
      x.slots.length = w.exchange.slots.length + 1 ∧
      UnderWay channel w { w with exchange := x } number ∧
      replyBy channel w { w with exchange := x } = replyBy channel w w := by
  have hline := Exchange.deals_line w.exchange hx number
  have hqueue := hroom number hroute hopen
  let accept (m : Mailbox) := m.accept ⟨w.exchange.slots.length, ⟨channel, payload⟩⟩
  have haccept : (accept (w.exchange.mailbox number)).line = (w.exchange.mailbox number).line :=
    line_accept_of_room _ _ hqueue
  have hsend : w.exchange.send channel payload =
      (.ok { sentFrom channel w number with deadline := none },
        { w.exchange.onMailbox number accept with slots := w.exchange.slots ++ [.pending] }) := by
    simp [Exchange.send, hroute, hopen, sentFrom, accept]
  refine ⟨_, hsend, by simp, ⟨hroute, hopen, by simp, ?_, rfl, Nat.le_add_right _ _⟩, ?_⟩
  · -- those in line got their tickets before
    refine List.any_eq_false.mpr fun r hr ht => ?_
    have hticket : r.ticket = w.exchange.slots.length := of_decide_eq_true ht
    have hbefore : r ∈ (w.exchange.mailbox number).line := by
      change r ∈ ((w.exchange.onMailbox number accept).mailbox number).line at hr
      rcases w.exchange.mailbox_onMailbox number number accept with h | ⟨-, h⟩
      · rwa [h] at hr
      · rwa [h, haccept] at hr
    exact Nat.ne_of_lt (hline r hbefore) hticket
  · simp [replyBy, hroute, hopen]

theorem sendRequest_reacts (w : World) (payload : Json)
    (hx : Exchange.Deals .empty w.exchange) (hroom : HasRoom channel w) :
    Reacted channel w w payload 0 (w.sendRequest channel (.ok payload)) := by
  unfold World.sendRequest
  cases hroute : w.exchange.routes.lookup channel with
  | none =>
    have hsend : w.exchange.send channel payload =
        (.error (.noHandler channel), w.exchange) := by simp [Exchange.send, hroute]
    simp only [hsend]
    exact .answered _ w (by simp [replyBy, hroute]) rfl (by omega)
  | some number =>
    cases hopen : (w.exchange.mailbox number).isOpen with
    | false =>
      have hsend : w.exchange.send channel payload =
          (.error (.closed channel), w.exchange) := by simp [Exchange.send, hroute, hopen]
      simp only [hsend]
      exact .answered _ w (by simp [replyBy, hroute, hopen]) rfl (by omega)
    | true =>
      obtain ⟨x, hsend, hslots, hway, hreply⟩ := send_underWay w number payload hx hroom hroute hopen
      simp only [hsend]
      have hreacted := hway.reacts payload { sentFrom channel w number with deadline := none } rfl
      revert hreacted
      generalize World.awaitReply _ _ _ _ = reaction
      intro hreacted
      cases hreacted with
      | answered reply v hr hrecords hsent =>
        dsimp only at hsent
        exact .answered reply v (hreply ▸ hr) hrecords (by omega)
      | waits n v hr hway hrecords hsent =>
        dsimp only at hsent
        have hslot := hway.slot
        exact .waits n v (hreply ▸ hr) hway hrecords (by omega)

/-! ## A thread that makes a request -/

section
variable {α : Type} {payload : Json} {next : Except TransportError Json → Program α}
  {t : Thread α} {sent : Nat}

/-- A program that makes a request and goes on with what comes of it. -/
def requesting (channel : String) (payload : Json)
    (next : Except TransportError Json → Program α) : Program α :=
  .perform (.delegate channel (.ok payload)) next

/-- The thread has sent so many requests and is about to look: for the first time, or again after its
request. -/
inductive Stage (channel : String) (payload : Json) (next : Except TransportError Json → Program α)
    (w : World) : Nat → Thread α → World → Prop
  | first : Stage channel payload next w 0 (.of (requesting channel payload next)) w
  | waiting (number : Nat) (u : World) (h : UnderWay channel w u number) :
      Stage channel payload next w 1
        ⟨requesting channel payload next, .reply (sentFrom channel w number)⟩ u

theorem Stage.rest (h : Stage channel payload next w sent t u) :
    t.rest = requesting channel payload next := by
  cases h with
  | first => rfl
  | waiting number u hway => rfl

theorem Stage.now (h : Stage channel payload next w sent t u) :
    u.now ≤ w.now + w.timeoutMillis := by
  cases h with
  | first => exact Nat.le_add_right _ _
  | waiting number u hway => exact hway.now

theorem Stage.reacts (h : Stage channel payload next w sent t u)
    (hx : Exchange.Deals .empty w.exchange) (hroom : HasRoom channel w) :
    Reacted channel w u payload sent (u.react false (.delegate channel (.ok payload)) t.wait) := by
  cases h with
  | first => exact sendRequest_reacts w payload hx hroom
  | waiting number u hway => exact hway.reacts payload (sentFrom channel w number) rfl

/-- Either nothing has come of the request, and the thread waits until its time is up; or it goes on
with what has come. -/
theorem Stage.look (h : Stage channel payload next w sent t u)
    (hx : Exchange.Deals .empty w.exchange) (hroom : HasRoom channel w) :
    (∃ number v, replyBy channel w u = none ∧ UnderWay channel w v number ∧
      t.look u = (.wait ⟨requesting channel payload next, .reply (sentFrom channel w number)⟩, v) ∧
      t.asks u = [] ∧ v.records = u.records ∧
      sent + (v.exchange.slots.length - u.exchange.slots.length) = 1) ∨
    ∃ reply v, replyBy channel w u = some reply ∧
      t.look u = proceed false (next reply) .nothing v ∧
      t.asks u = .delegate channel (.ok payload) :: asked false (next reply) .nothing v ∧
      v.records = u.records ∧
      sent + (v.exchange.slots.length - u.exchange.slots.length) ≤ 1 := by
  have hreacted := h.reacts hx hroom
  unfold Thread.look Thread.asks
  rw [h.rest, requesting, proceed, asked]
  generalize World.react _ _ _ _ = reaction at hreacted ⊢
  cases hreacted with
  | waits number v hreply hway hrecords hsent =>
    exact Or.inl ⟨number,v,hreply,hway,rfl,rfl,hrecords,hsent⟩
  | answered reply v hreply hrecords hsent =>
    exact Or.inr ⟨reply,v,hreply,rfl,rfl,hrecords,hsent⟩

/-- A thread that has to do with nobody else once it has its reply looks in these stages only. -/
theorem looks_stage (hx : Exchange.Deals .empty w.exchange) (hroom : HasRoom channel w)
    (hover : ∀ reply v, ∃ r v', proceed false (next reply) .nothing v = (.over r, v'))
    (effects : List Effect)
    (h : Thread.Looks (.of (requesting channel payload next)) w effects sent t u) :
    effects = [] ∧ Stage channel payload next w sent t u := by
  induction h with
  | start => exact ⟨rfl,.first⟩
  | again effects sent t t' u u' v hlooks hlook hmeanwhile ih =>
    obtain ⟨rfl, hstage⟩ := ih
    rcases hstage.look hx hroom with
      ⟨number, v', -, hway, hwaits, hasks, -, hsent⟩ | ⟨reply, v', -, hgoes, -⟩
    · rw [hwaits] at hlook
      cases hlook
      have hsends : sent + t.sends u = 1 := by rw [Thread.sends, hwaits]; exact hsent
      rw [hasks, hsends]
      exact ⟨rfl,.waiting number v (hway.meanwhile _ hmeanwhile)⟩
    · -- a thread that has its reply does not wait any more
      obtain ⟨r, v'', hend⟩ := hover reply v'
      rw [hgoes, hend] at hlook
      cases hlook

theorem Stage.canProceed (h : Stage channel payload next w sent t u)
    (reply : Except TransportError Json) (hreply : replyBy channel w u = some reply) :
    t.canProceed u = true := by
  cases h with
  | first => rfl
  | waiting number u hway =>
    have hline := (isInLine_enter u.exchange (sentFrom channel w number) _).trans hway.line
    have houtcome := hway.replyBy_eq.symm.trans hreply
    have hawait : (u.exchange.enter (sentFrom channel w number)).await u.now u.timeoutMillis
        (sentFrom channel w number) = .over reply := by
      rw [await_eq _ _ _ _ hline, slot_enter, sentFrom, Option.getD_some, houtcome]
    simp only [Thread.canProceed, hawait]

end

end VmFleet.Central
