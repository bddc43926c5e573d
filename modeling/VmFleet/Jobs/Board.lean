import VmFleet.Jobs.Job

/-!
# The board of jobs

What is known of the jobs at any time: which have a tick in progress, at what period each is
scheduled, and how its last tick ended. A tick begins only while no other tick of its job is in
progress.
-/

set_option autoImplicit false

namespace VmFleet.Jobs

inductive Trigger where
  | timer
  | manual
  deriving DecidableEq, Repr

def Trigger.name : Trigger → String
  | .timer => "timer"
  | .manual => "manual"

structure RunInfo where
  durationMillis : Nat
  outcome : TickOutcome
  report : Option String
  trigger : Trigger
  deriving DecidableEq, Repr

/-- One value per key; a new value takes the place of an old one. -/
def insertEntry {α : Type} (key : String) (a : α) (entries : List (String × α)) :
    List (String × α) :=
  entries.filter (fun entry => entry.1 ≠ key) ++ [(key, a)]

def eraseEntry {α : Type} (key : String) (entries : List (String × α)) : List (String × α) :=
  entries.filter fun entry => entry.1 ≠ key

theorem lookup_eraseEntry_self {α : Type} (key : String) (entries : List (String × α)) :
    (eraseEntry key entries).lookup key = none := by
  unfold eraseEntry
  induction entries with
  | nil => rfl
  | cons entry rest ih =>
    by_cases h : entry.1 = key
    · simpa [h] using ih
    · simp only [ne_eq, h, not_false_eq_true, decide_true, List.filter_cons_of_pos]
      rw [List.lookup_cons, beq_eq_false_iff_ne.mpr (fun e => h e.symm)]
      exact ih

theorem lookup_eraseEntry_of_ne {α : Type} {key other : String} (h : other ≠ key)
    (entries : List (String × α)) :
    (eraseEntry key entries).lookup other = entries.lookup other := by
  unfold eraseEntry
  induction entries with
  | nil => rfl
  | cons entry rest ih =>
    by_cases he : entry.1 = key
    · have hne : (other == entry.1) = false := beq_eq_false_iff_ne.mpr (by rw [he]; exact h)
      simp only [he, ne_eq, not_true_eq_false, decide_false, Bool.false_eq_true, not_false_eq_true,
        List.filter_cons_of_neg]
      rw [ih, List.lookup_cons, hne]
    · simp only [ne_eq, he, not_false_eq_true, decide_true, List.filter_cons_of_pos]
      rw [List.lookup_cons, List.lookup_cons, ih]

theorem lookup_append_singleton {α : Type} (entries : List (String × α)) (key other : String)
    (a : α) : (entries ++ [(key, a)]).lookup other =
      (entries.lookup other).or (if other = key then some a else none) := by
  induction entries with
  | nil =>
    by_cases h : other = key
    · simp [h]
    · simp [List.lookup_cons, h, beq_eq_false_iff_ne.mpr h]
  | cons entry rest ih =>
    rw [List.cons_append, List.lookup_cons, List.lookup_cons, ih]
    split <;> simp

theorem lookup_insertEntry_self {α : Type} (key : String) (a : α) (entries : List (String × α)) :
    (insertEntry key a entries).lookup key = some a := by
  have h := lookup_eraseEntry_self key entries
  simp only [insertEntry, lookup_append_singleton]
  rw [show entries.filter (fun entry => entry.1 ≠ key) = eraseEntry key entries from rfl, h]
  simp

theorem lookup_insertEntry_of_ne {α : Type} {key other : String} (h : other ≠ key) (a : α)
    (entries : List (String × α)) :
    (insertEntry key a entries).lookup other = entries.lookup other := by
  simp only [insertEntry, lookup_append_singleton, if_neg h, Option.or_none]
  exact lookup_eraseEntry_of_ne h entries

structure Board where
  running : List String
  scheduled : List (String × Nat)
  lastRuns : List (String × RunInfo)
  deriving DecidableEq, Repr

namespace Board

def empty : Board := ⟨[], [], []⟩

def isRunning (b : Board) (job : String) : Bool := b.running.contains job

def beginRun (b : Board) (job : String) : Option Board :=
  if b.isRunning job then none else some { b with running := b.running ++ [job] }

def finishRun (b : Board) (job : String) (info : RunInfo) : Board :=
  { b with
    running := b.running.filter (· ≠ job)
    lastRuns := insertEntry job info b.lastRuns }

def schedule (b : Board) (job : String) (period : Nat) : Board :=
  { b with scheduled := insertEntry job period b.scheduled }

def unschedule (b : Board) (job : String) : Board :=
  { b with scheduled := eraseEntry job b.scheduled }

theorem beginRun_eq_none_iff (b : Board) (job : String) :
    b.beginRun job = none ↔ job ∈ b.running := by
  unfold beginRun isRunning
  split <;> simp_all

end Board

structure JobInfo where
  id : String
  name : String
  description : String
  periodMillis : Option Nat
  isRunning : Bool
  lastRun : Option RunInfo
  deriving DecidableEq, Repr

def Board.info (b : Board) (job : Job) : JobInfo :=
  ⟨job.id, job.name, job.description, b.scheduled.lookup job.id, b.isRunning job.id,
   b.lastRuns.lookup job.id⟩

end VmFleet.Jobs
