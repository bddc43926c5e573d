import VmFleet.Delegation.Error

/-!
# The exchange of delegated requests

Each channel leads to the mailbox of the handler that was registered for it last. A mailbox holds up
to sixty-four requests that its handler has not taken yet; senders beyond that stand in line. Room
that becomes free is kept for the first in line, who puts the request in as soon as its turn comes.
Every request has a slot for its reply, under a ticket of its own, and a slot is filled at most
once.
-/

set_option autoImplicit false

namespace VmFleet.Delegation

structure Request where
  ticket : Nat
  envelope : Envelope

/-- What has become of a reply. It is lost when whoever held the request let go of it. -/
inductive Slot where
  | pending
  | answered (reply : Reply)
  | lost

structure Mailbox where
  /-- Whether the handler still takes requests. -/
  isOpen : Bool
  queue : List Request
  admitted : List Request
  line : List Request
  /-- The tickets of requests whose senders are not done with them. -/
  senders : List Nat

namespace Mailbox

def capacity : Nat := 64

def empty : Mailbox := ⟨true, [], [], [], []⟩

def accept (m : Mailbox) (r : Request) : Mailbox :=
  let m := { m with senders := m.senders ++ [r.ticket] }
  if m.queue.length + m.admitted.length < capacity then { m with queue := m.queue ++ [r] }
  else { m with line := m.line ++ [r] }

/-- Takes the oldest request; the room is kept for the first in line. -/
def take : Mailbox → Option (Request × Mailbox)
  | ⟨isOpen, r :: rest, admitted, line, senders⟩ =>
    some (r, ⟨isOpen, rest, admitted ++ line.take 1, line.drop 1, senders⟩)
  | ⟨_, [], _, _, _⟩ => none

def enter (m : Mailbox) (ticket : Nat) : Mailbox :=
  { m with
    queue := m.queue ++ m.admitted.filter fun r => r.ticket = ticket
    admitted := m.admitted.filter fun r => r.ticket ≠ ticket }

def untaken (m : Mailbox) : List Request := m.queue ++ (m.admitted ++ m.line)

def close (m : Mailbox) : Mailbox :=
  { m with isOpen := false, queue := [], admitted := [], line := [] }

def finish (m : Mailbox) (ticket : Nat) : Mailbox :=
  { m with senders := m.senders.filter (· ≠ ticket) }

theorem untaken_take (m n : Mailbox) (r : Request) (h : m.take = some (r, n)) :
    m.untaken = r :: n.untaken := by
  obtain ⟨isOpen, queue, admitted, line, senders⟩ := m
  cases queue with
  | nil => simp [take] at h
  | cons a rest =>
    simp only [take, Option.some.injEq, Prod.mk.injEq] at h
    obtain ⟨rfl, rfl⟩ := h
    cases line <;> simp [untaken]

end Mailbox

structure Exchange where
  routes : List (String × Nat)
  /-- All mailboxes by number, also those that no channel leads to any more. -/
  mailboxes : List Mailbox
  slots : List Slot

namespace Exchange

def empty : Exchange := ⟨[], [], []⟩

def unregister (x : Exchange) (channel : String) : Exchange :=
  { x with routes := x.routes.filter fun route => route.1 ≠ channel }

/-- Opens a mailbox and leads the channel to it, away from any other. -/
def register (x : Exchange) (channel : String) : Nat × Exchange :=
  let x := x.unregister channel
  let number := x.mailboxes.length
  (number,
    { x with
      routes := x.routes ++ [(channel, number)]
      mailboxes := x.mailboxes ++ [.empty] })

def mailbox (x : Exchange) (number : Nat) : Mailbox :=
  x.mailboxes.getD number ⟨false, [], [], [], []⟩

def onMailbox (x : Exchange) (number : Nat) (f : Mailbox → Mailbox) : Exchange :=
  { x with mailboxes := x.mailboxes.modify number f }

def slot (x : Exchange) (ticket : Nat) : Slot := x.slots.getD ticket .lost

/-- Fills a slot that is still pending; a slot that is filled stays as it is. -/
def settle (x : Exchange) (ticket : Nat) (outcome : Slot) : Exchange :=
  { x with
    slots := x.slots.modify ticket fun
      | .pending => outcome
      | filled => filled }

def reply (x : Exchange) (ticket : Nat) (r : Reply) : Exchange := x.settle ticket (.answered r)

def lose (x : Exchange) (ticket : Nat) : Exchange := x.settle ticket .lost

def loseAll (x : Exchange) (tickets : List Nat) : Exchange := tickets.foldl lose x

def isRegistered (x : Exchange) (number : Nat) : Bool := x.routes.any fun route => route.2 = number

def hasHandler (x : Exchange) (channel : String) : Bool :=
  match x.routes.lookup channel with
  | none => false
  | some number => (x.mailbox number).isOpen

inductive Taking where
  | request (r : Request)
  | nothing
  /-- No request can come any more. -/
  | closed

def take (x : Exchange) (number : Nat) : Taking × Exchange :=
  match (x.mailbox number).take with
  | some (r, m) => (.request r, x.onMailbox number fun _ => m)
  | none =>
    if x.isRegistered number || !(x.mailbox number).senders.isEmpty then (.nothing, x)
    else (.closed, x)

def isReady (x : Exchange) (number : Nat) : Bool :=
  match (x.take number).1 with
  | .nothing => false
  | _ => true

/-- The handler of a mailbox goes away, and with it the requests that it has not taken. -/
def close (x : Exchange) (number : Nat) : Exchange :=
  (x.onMailbox number Mailbox.close).loseAll ((x.mailbox number).untaken.map Request.ticket)

/-- A request under way, as its sender sees it. The time for the reply runs once the request is in
the mailbox. -/
structure Pending where
  channel : String
  number : Nat
  ticket : Nat
  deadline : Option Nat

def send (x : Exchange) (channel : String) (payload : Json) :
    Except TransportError Pending × Exchange :=
  match x.routes.lookup channel with
  | none => (.error (.noHandler channel), x)
  | some number =>
    if !(x.mailbox number).isOpen then (.error (.closed channel), x)
    else
      let ticket := x.slots.length
      (.ok ⟨channel, number, ticket, none⟩,
        { x.onMailbox number fun m => m.accept ⟨ticket, ⟨channel, payload⟩⟩ with
          slots := x.slots ++ [.pending] })

def enter (x : Exchange) (p : Pending) : Exchange :=
  x.onMailbox p.number fun m => m.enter p.ticket

def isInLine (x : Exchange) (p : Pending) : Bool :=
  (x.mailbox p.number).line.any fun r => r.ticket = p.ticket

def finish (x : Exchange) (p : Pending) : Exchange :=
  x.onMailbox p.number fun m => m.finish p.ticket

inductive Waiting where
  | over (result : Except TransportError Json)
  | due (deadline : Nat)
  | inLine

/-- What a sender finds when it looks. A reply that is there counts even when its time is up. -/
def await (x : Exchange) (now timeout : Nat) (p : Pending) : Waiting :=
  match x.slot p.ticket with
  | .answered (.ok v) => .over (.ok v)
  | .answered (.error f) => .over (.error (.failure p.channel f))
  | .lost => .over (.error (.closed p.channel))
  | .pending =>
    if x.isInLine p then .inLine
    else
      let deadline := p.deadline.getD (now + timeout)
      if deadline ≤ now then .over (.error (.timeout p.channel timeout)) else .due deadline

theorem lookup_routes_register (x : Exchange) (channel : String) :
    ((x.register channel).2).routes.lookup channel = some (x.register channel).1 := by
  simp only [register, unregister]
  induction x.routes with
  | nil => simp
  | cons route rest ih =>
    by_cases h : route.1 = channel
    · simpa [h] using ih
    · simp only [ne_eq, h, not_false_eq_true, decide_true, List.filter_cons_of_pos,
        List.cons_append]
      rw [List.lookup_cons]
      simp only [beq_eq_false_iff_ne.mpr (fun e => h e.symm)]
      simpa using ih

end Exchange
end VmFleet.Delegation
