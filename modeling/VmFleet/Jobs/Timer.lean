/-!
# Periodic timers

A timer fires first one period after its start. A tick is waited for before the next firing; firings
that come due meanwhile are not made up for.
-/

set_option autoImplicit false

namespace VmFleet.Jobs

inductive Timer.Phase where
  | idle
  | ticking (run : Nat)
  | stopped
  deriving DecidableEq, Repr

structure Timer where
  job : String
  period : Nat
  due : Nat
  isCancelled : Bool
  phase : Timer.Phase
  deriving DecidableEq, Repr

namespace Timer

def start (job : String) (now period : Nat) (isCancelled : Bool) : Timer :=
  ⟨job, period, now + period, isCancelled, .idle⟩

/-- The firing after one that was due and happened at `now`: the first later point of the grid that
the due time and the period span. -/
def next (due period now : Nat) : Nat := due + ((now - due) / period + 1) * period

def cancel (t : Timer) : Timer := { t with isCancelled := true }

def stop (t : Timer) : Timer := { t with phase := .stopped }

def fire (t : Timer) (now run : Nat) : Timer :=
  { t with due := next t.due t.period now, phase := .ticking run }

def skip (t : Timer) (now : Nat) : Timer := { t with due := next t.due t.period now }

def rest (t : Timer) : Timer := { t with phase := .idle }

def run? (t : Timer) : Option Nat :=
  match t.phase with
  | .ticking run => some run
  | _ => none

theorem next_of_eq (due period : Nat) : next due period due = due + period := by simp [next]

end Timer
end VmFleet.Jobs
