import VmFleet.Delegation.Exchange

/-!
# Scripted handlers

A scripted handler treats one request per entry of its script, one after the other, and then goes
away. An entry may first wait; then it answers, lets go of the request, or keeps it unanswered.
-/

set_option autoImplicit false

namespace VmFleet.Delegation

inductive Treatment where
  | succeed (value : Json)
  | echo
  | fail (failure : Failure)
  /-- Replies with a value that cannot be encoded, for the reason given. -/
  | unencodable (reason : String)
  | hold
  | drop

structure ScriptEntry where
  delayMillis : Nat
  treatment : Treatment

/-- What a treatment does to the reply slot; a held request stays pending. -/
def Treatment.apply (t : Treatment) (r : Request) (x : Exchange) : Exchange :=
  match t with
  | .succeed value => x.reply r.ticket (.ok value)
  | .echo => x.reply r.ticket (.ok r.envelope.payload)
  | .fail failure => x.reply r.ticket (.error failure)
  | .unencodable reason => x.reply r.ticket (.error (.fault s!"failed to encode reply: {reason}"))
  | .hold => x
  | .drop => x.lose r.ticket

structure Handler where
  mailbox : Nat
  script : List ScriptEntry
  current : Option (Request × Treatment × Nat)
  /-- The tickets of the requests that are kept unanswered. -/
  held : List Nat

namespace Handler

inductive Move where
  | take (r : Request) (h : Handler)
  | treat (h : Handler)
  | wait
  | leave

/-- Goes away: what it holds and what it has not taken is lost. -/
def leave (h : Handler) (x : Exchange) : Exchange := (x.close h.mailbox).loseAll h.held

def treat (h : Handler) (r : Request) (t : Treatment) : Handler :=
  match t with
  | .hold => { h with current := none, held := h.held ++ [r.ticket] }
  | _ => { h with current := none }

def move (h : Handler) (now : Nat) (x : Exchange) : Move × Exchange :=
  match h.current with
  | some (r, t, due) => if due ≤ now then (.treat (h.treat r t), t.apply r x) else (.wait, x)
  | none =>
    match h.script with
    | [] => (.leave, h.leave x)
    | entry :: rest =>
      match x.take h.mailbox with
      | (.request r, x) =>
        let current := some (r, entry.treatment, now + entry.delayMillis)
        (.take r { h with script := rest, current }, x)
      | (.nothing, x) => (.wait, x)
      | (.closed, x) => (.leave, h.leave x)

def due (h : Handler) : Option Nat := h.current.map fun c => c.2.2

def canMove (h : Handler) (now : Nat) (x : Exchange) : Bool :=
  match h.current with
  | some (_, _, due) => due ≤ now
  | none => h.script.isEmpty || x.isReady h.mailbox

end Handler
end VmFleet.Delegation
