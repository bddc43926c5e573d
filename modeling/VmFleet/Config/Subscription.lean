/-!
# Subscriptions that may lag

A subscription keeps the newest sixteen items that its subscriber has not read. Older ones are lost;
the next read says how many, and the kept ones follow in order.
-/

set_option autoImplicit false

namespace VmFleet.Config

/-- The unread items, oldest first, and how many were lost before them. Once the source is closed
nothing is added. -/
structure Subscription (α : Type) where
  unread : List α
  lost : Nat
  closed : Bool

inductive Delivery (α : Type) where
  | item (a : α)
  | lagged (count : Nat)
  | empty
  | closed

namespace Subscription

variable {α : Type}

def capacity : Nat := 16

def new : Subscription α := ⟨[], 0, false⟩

def push (q : Subscription α) (a : α) : Subscription α :=
  if q.closed then q
  else if q.unread.length < capacity then { q with unread := q.unread ++ [a] }
  else { q with unread := q.unread.drop 1 ++ [a], lost := q.lost + 1 }

def pushAll (q : Subscription α) (as : List α) : Subscription α := as.foldl push q

def close (q : Subscription α) : Subscription α := { q with closed := true }

def receive (q : Subscription α) : Delivery α × Subscription α :=
  if 0 < q.lost then (.lagged q.lost, { q with lost := 0 })
  else match q.unread with
    | a :: rest => (.item a, { q with unread := rest })
    | [] => (if q.closed then .closed else .empty, q)

def hasNews (q : Subscription α) : Bool := q.closed || q.lost ≠ 0 || !q.unread.isEmpty

theorem pushAll_append (q : Subscription α) (as bs : List α) :
    q.pushAll (as ++ bs) = (q.pushAll as).pushAll bs := by simp [pushAll]

end Subscription
end VmFleet.Config
