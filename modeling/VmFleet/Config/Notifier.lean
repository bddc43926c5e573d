import VmFleet.Config.Settings
import VmFleet.Config.Subscription

/-!
# Announcing changed settings

The settings fall into four parts, each announced on a topic of its own. A part is announced only
when its old and its new value differ, by more than the way a path is written; the first announcement
of all has no old value.
-/

set_option autoImplicit false

namespace VmFleet.Config

inductive Part where
  | runtime
  | central
  | worker
  | jobs
  deriving DecidableEq, Repr

def Part.all : List Part := [.runtime, .central, .worker, .jobs]

theorem Part.mem_all (p : Part) : p ∈ Part.all := by cases p <;> decide

def Part.name : Part → String
  | .runtime => "runtime"
  | .central => "central"
  | .worker => "cloud_worker"
  | .jobs => "jobs"

def Part.topic (p : Part) : String := s!"configuration.changed.{p.name}"

/-- The settings that a part consists of. -/
def Part.Value : Part → Type
  | .runtime => RuntimeSettings
  | .central => CentralSettings
  | .worker => WorkerSettings
  | .jobs => JobsSettings

/-- The two values count as the same one. -/
def Part.Same : (p : Part) → p.Value → p.Value → Prop
  | .runtime => Eq
  | .central => CentralSettings.Same
  | .worker => Eq
  | .jobs => Eq

instance : (p : Part) → (a b : p.Value) → Decidable (p.Same a b)
  | .runtime => inferInstanceAs (DecidableEq RuntimeSettings)
  | .central => fun (a b : CentralSettings) => inferInstanceAs (Decidable (a.Same b))
  | .worker => inferInstanceAs (DecidableEq WorkerSettings)
  | .jobs => inferInstanceAs (DecidableEq JobsSettings)

theorem Part.same_equivalence (p : Part) : Equivalence p.Same := by
  cases p with
  | central =>
    refine ⟨fun _ => ⟨rfl,rfl,rfl⟩,fun h => ⟨h.1.symm,h.2.1.symm,h.2.2.symm⟩,?_⟩
    exact fun h k => ⟨h.1.trans k.1,h.2.1.trans k.2.1,h.2.2.trans k.2.2⟩
  | _ => exact ⟨Eq.refl,Eq.symm,Eq.trans⟩

def Settings.part (s : Settings) : (p : Part) → p.Value
  | .runtime => s.runtime
  | .central => s.central
  | .worker => s.worker
  | .jobs => s.jobs

/-- The old and the new value of something; either may be missing. -/
structure Change (α : Type) where
  previous : Option α
  current : Option α
  deriving DecidableEq, Repr

/-- Both sides of a change. A subscriber does nothing about a change that has only one. -/
def Change.both {α : Type} (c : Change α) : Option (α × α) :=
  match c.previous, c.current with
  | some a, some b => some (a, b)
  | _, _ => none

def changeOf (previous : Option Settings) (current : Settings) (p : Part) :
    Option (Change p.Value) :=
  let old := previous.map fun s => s.part p
  if old.any fun value => p.Same value (current.part p) then none
  else some ⟨old, some (current.part p)⟩

theorem changeOf_same (s next : Settings) (p : Part) (h : p.Same (s.part p) (next.part p)) :
    changeOf (some s) next p = none := by
  simp [changeOf, h]

example :
    let s := { Settings.default with central := ⟨some "/data/central.db", "admin", "secret"⟩ }
    let next := { Settings.default with central := ⟨some "/data//./central.db", "admin", "secret"⟩ }
    s ≠ next ∧ changeOf (some s) next .central = none :=
  ⟨by decide,changeOf_same _ _ .central (by decide)⟩

theorem changeOf_different (s next : Settings) (p : Part)
    (h : ¬ p.Same (s.part p) (next.part p)) :
    changeOf (some s) next p = some ⟨some (s.part p), some (next.part p)⟩ := by
  simp [changeOf, h]

structure Subscriber where
  name : String
  part : Part
  queue : Subscription (Change part.Value)

structure Notifier where
  subscribers : List Subscriber

namespace Notifier

def new : Notifier := ⟨[]⟩

def unsubscribe (n : Notifier) (name : String) : Notifier :=
  ⟨n.subscribers.filter fun s => s.name ≠ name⟩

/-- Subscribes under a name, in the place of an earlier subscription of that name. -/
def subscribe (n : Notifier) (name : String) (p : Part) : Notifier :=
  ⟨(n.unsubscribe name).subscribers ++ [⟨name, p, .new⟩]⟩

def announce (n : Notifier) (p : Part) (c : Change p.Value) : Notifier :=
  ⟨n.subscribers.map fun s =>
    if h : s.part = p then { s with queue := s.queue.push (h ▸ c) } else s⟩

def close (n : Notifier) (p : Part) : Notifier :=
  ⟨n.subscribers.map fun s => if s.part = p then { s with queue := s.queue.close } else s⟩

def announcePart (previous : Option Settings) (current : Settings) (r : List Part × Notifier)
    (p : Part) : List Part × Notifier :=
  match changeOf previous current p with
  | none => r
  | some c => (r.1 ++ [p], r.2.announce p c)

/-- Announces every part that differs, and says which. -/
def publish (n : Notifier) (previous : Option Settings) (current : Settings) :
    List Part × Notifier :=
  Part.all.foldl (announcePart previous current) ([], n)

structure Received where
  part : Part
  delivery : Delivery (Change part.Value)

def receive (n : Notifier) (name : String) : Option Received × Notifier :=
  match n.subscribers.find? (fun s => s.name = name) with
  | none => (none, n)
  | some s =>
    let r := s.queue.receive
    (some ⟨s.part, r.1⟩,
      ⟨n.subscribers.map fun t => if t.name = name then { s with queue := r.2 } else t⟩)

end Notifier
end VmFleet.Config
