import VmFleet.Metrics.Registry

/-!
# What events add to a registry

The value of a series is what the entries under its labels add up to. An event adds one to the value
of its own series and leaves every other as it was. So after any number of events the series of any
kind have grown together by as much as there were events of that kind.
-/

set_option autoImplicit false

namespace VmFleet.Metrics

/-- Where one entry of a list is changed, only this entry can change what is counted. -/
theorem countP_modify {α : Type} (p : α → Bool) (f : α → α) (l : List α) (n : Nat) (a : α)
    (h : l[n]? = some a) : (l.modify n f).countP p + (if p a then 1 else 0) =
      l.countP p + if p (f a) then 1 else 0 := by
  induction l generalizing n with
  | nil => cases h
  | cons b l ih =>
    cases n with
    | zero =>
      cases h
      rw [List.modify_zero_cons, List.countP_cons, List.countP_cons]
      omega
    | succ n =>
      have hrest := ih n h
      rw [List.modify_succ_cons, List.countP_cons, List.countP_cons]
      omega

namespace Counts

def value (key : String × String) : Counts → Nat
  | [] => 0
  | entry :: rest => (if entry.1 = key then entry.2 else 0) + value key rest

/-- What all series add up to whose labels are wanted. -/
def sumOver (wanted : String × String → Bool) : Counts → Nat
  | [] => 0
  | entry :: rest => (if wanted entry.1 then entry.2 else 0) + sumOver wanted rest

theorem sumOver_cons (wanted : String × String → Bool) (entry : (String × String) × Nat)
    (counts : Counts) :
    sumOver wanted (entry :: counts) =
      (if wanted entry.1 then entry.2 else 0) + sumOver wanted counts := rfl

theorem sumOver_bump (key : String × String) (wanted : String × String → Bool) (counts : Counts) :
    (counts.bump key).sumOver wanted = counts.sumOver wanted + if wanted key then 1 else 0 := by
  have hadd (n : Nat) : (if wanted key then n + 1 else 0) =
      (if wanted key then n else 0) + if wanted key then 1 else 0 := by
    split <;> rfl
  induction counts with
  | nil => simp [bump, sumOver]
  | cons entry rest ih =>
    unfold bump
    split
    · rename_i hkey
      rw [sumOver_cons, sumOver_cons, ← hkey, hadd]
      omega
    · split
      · rw [sumOver_cons, Nat.add_comm]
      · rw [sumOver_cons, sumOver_cons, ih]
        omega

theorem value_eq_sumOver (key : String × String) (counts : Counts) :
    counts.value key = counts.sumOver (· = key) := by
  induction counts with
  | nil => rfl
  | cons entry rest ih => simp [value, sumOver, ih]

theorem value_bump (key other : String × String) (counts : Counts) :
    (counts.bump key).value other = counts.value other + if other = key then 1 else 0 := by
  rw [value_eq_sumOver, value_eq_sumOver, sumOver_bump]
  simp only [decide_eq_true_eq, @eq_comm _ other key]

end Counts

/-- How many durations were observed under the label. -/
def Durations.count (label : String) : Durations → Nat
  | [] => 0
  | entry :: rest => (if entry.1 = label then entry.2.length else 0) + count label rest

theorem Durations.count_observe (label other : String) (millis : Nat) (durations : Durations) :
    (Durations.observe label millis durations).count other =
      durations.count other + if label = other then 1 else 0 := by
  induction durations with
  | nil => simp [observe, count]
  | cons entry rest ih =>
    unfold observe
    split
    · rename_i hlabel
      by_cases hother : entry.1 = other
      · simp [count, hlabel, hother]
        omega
      · simp [count, hlabel, hother]
    · split
      · simp only [count, List.length_singleton]
        omega
      · simp only [count, ih]
        omega

/-! ## Events -/

/-- The operation and the outcome that an event tells of, if it is about a task. -/
def Event.task? : Event → Option (String × String)
  | .task operation outcome => some (operation, outcome)
  | _ => none

/-- The job and the outcome that an event tells of, if it is about a tick. -/
def Event.tick? : Event → Option (String × String)
  | .tick job outcome _ => some (job, outcome)
  | _ => none

namespace Registry

def recordAll (r : Registry) (events : List Event) : Registry := events.foldl record r

theorem record_tasks (r : Registry) (event : Event) (wanted : String × String → Bool) :
    (r.record event).tasks.sumOver wanted =
      r.tasks.sumOver wanted + if event.task?.any wanted then 1 else 0 := by
  cases event with
  | task operation outcome => exact Counts.sumOver_bump (operation, outcome) wanted r.tasks
  | _ => rfl

theorem record_ticks (r : Registry) (event : Event) (wanted : String × String → Bool) :
    (r.record event).ticks.sumOver wanted =
      r.ticks.sumOver wanted + if event.tick?.any wanted then 1 else 0 := by
  cases event with
  | tick job outcome millis => exact Counts.sumOver_bump (job, outcome) wanted r.ticks
  | _ => rfl

theorem record_durations (r : Registry) (event : Event) (job : String) :
    (r.record event).tickDurations.count job =
      r.tickDurations.count job + if event.tick?.any (·.1 = job) then 1 else 0 := by
  cases event with
  | tick own outcome millis =>
    have hobserved := Durations.count_observe own job millis r.tickDurations
    simpa [Event.tick?, record] using hobserved
  | _ => rfl

/-- What each event of some kind adds one to has grown by the number of such events. -/
theorem recordAll_of_record (measure : Registry → Nat) (kind : Event → Bool)
    (h : ∀ r event, measure (r.record event) = measure r + if kind event then 1 else 0)
    (r : Registry) (events : List Event) :
    measure (r.recordAll events) = measure r + events.countP kind := by
  induction events generalizing r with
  | nil => rfl
  | cons event events ih =>
    rw [List.countP_cons]
    have hrest := ih (r.record event)
    rw [h] at hrest
    change measure ((r.record event).recordAll events) = _
    omega

theorem recordAll_tasks (r : Registry) (events : List Event) (wanted : String × String → Bool) :
    (r.recordAll events).tasks.sumOver wanted =
      r.tasks.sumOver wanted + events.countP fun event => event.task?.any wanted :=
  recordAll_of_record (fun r => r.tasks.sumOver wanted) _ (fun r event => record_tasks r event wanted)
    r events

theorem recordAll_ticks (r : Registry) (events : List Event) (wanted : String × String → Bool) :
    (r.recordAll events).ticks.sumOver wanted =
      r.ticks.sumOver wanted + events.countP fun event => event.tick?.any wanted :=
  recordAll_of_record (fun r => r.ticks.sumOver wanted) _ (fun r event => record_ticks r event wanted)
    r events

theorem recordAll_durations (r : Registry) (events : List Event) (job : String) :
    (r.recordAll events).tickDurations.count job =
      r.tickDurations.count job + events.countP fun event => event.tick?.any (·.1 = job) :=
  recordAll_of_record (fun r => r.tickDurations.count job) _
    (fun r event => record_durations r event job) r events

/-- One more request of the channel is counted under the label, and nothing else is. -/
structure CountsOnce (channel label : String) (before after : Registry) : Prop where
  requests : ∀ key, after.requests.value key =
    before.requests.value key + if key = (channel, label) then 1 else 0
  others : after = { before with requests := after.requests }

theorem record_request (r : Registry) (channel label : String) :
    r.CountsOnce channel label (r.record (.request channel label)) := by
  refine ⟨?_, rfl⟩
  intro key
  exact Counts.value_bump (channel, label) key r.requests

end Registry

end VmFleet.Metrics
