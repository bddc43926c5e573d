import VmFleet.Proofs.Metrics.Counting
import VmFleet.Proofs.Tasks.Reached

/-!
# What is recorded of a submission

A submission asks for a task, for a principal or for whoever has an account. However it is answered,
it records nothing before the task has a result, and then one event that tells of this result. A
submission for somebody who has no account ends without a word.
-/

set_option autoImplicit false

namespace VmFleet

open Store Security

/-- What is recorded as this effect is answered. -/
def Effect.events : Effect → List Metrics.Event
  | .record event => [event]
  | _ => []

namespace Tasks

/-! ## Reports -/

def silent : Terms := ⟨fun e => e.events = [],fun _ _ => True⟩

theorem execute_silent (t : Task) (p : Principal) : (t.execute p).run.Within silent := by
  apply execute_within
  · intro id firstName lastName _
    apply Attempt.within_authorize
    intro _
    exact Attempt.within_accounts _ _ _ rfl fun _ _ => ⟨rfl,fun _ _ => trivial⟩
  · intro provider _
    apply Attempt.within_authorize
    intro _
    apply Attempt.within_bind _ _ _ (checkOwner_within p silent rfl)
    intro _
    apply Attempt.within_bind _ _ _ (freshId_within silent _ rfl)
    intro id
    apply Attempt.within_machines
    · rfl
    · intro stored _
      exact Attempt.within_ask _ _ _ rfl fun _ _ => trivial
  · intro call _
    rfl
  · intro call _
    rfl
  · intro count
    rfl

/-- Whatever the answers, the last thing that the program does is to report its result under this
operation, and it records nothing else. -/
inductive Reports {α : Type} (o : Operation) : Program (Except TaskError α) → Prop
  | last (result : Except TaskError α) :
      Reports o (.perform (.record (.task o.name (outcomeLabel result))) fun _ => .done result)
  | before (e : Effect) (next : e.Answer → Program (Except TaskError α)) (h : e.events = [])
      (hnext : ∀ answer, Reports o (next answer)) : Reports o (.perform e next)

theorem reports_of_within {α : Type} (o : Operation) (p : Program (Except TaskError α))
    (h : p.Within silent) :
    Reports o (p.bind fun result =>
      .perform (.record (.task o.name (outcomeLabel result))) fun _ => .done result) := by
  induction p with
  | done result => exact .last result
  | perform e next ih => exact .before e _ h.1 fun answer => ih answer (h.2 answer trivial)

theorem submitTrusted_reports (t : Task) (p : Principal) :
    Reports t.operation (t.submitTrusted p).run := by
  rw [submitTrusted_run]
  exact reports_of_within t.operation _ (execute_silent t p)

/-! ## Submissions -/

/-- A task that somebody has submitted, and what is left to do of it. -/
structure Submission where
  task : Task
  rest : Program (Except TaskError task.Result)
  /-- Whether it is known for whom the task is to run. -/
  isResolved : Bool

namespace Submission

def trust (t : Task) (p : Principal) : Submission := ⟨t, (t.submitTrusted p).run, true⟩

def submit (t : Task) (accountId : String) : Submission := ⟨t, (t.submit accountId).run, false⟩

/-- The answer shows an account. -/
def finds : (e : Effect) → e.Answer → Bool
  | .accounts (.get _), .ok _ => true
  | _, _ => false

def effect? (b : Submission) : Option Effect :=
  match b.rest with
  | .done _ => none
  | .perform e _ => some e

/-- Goes on with the answer to the next effect. -/
def go (answer : (e : Effect) → e.Answer) : Submission → Submission
  | ⟨t, .perform e next, isResolved⟩ =>
    ⟨t, next (answer e), isResolved || finds e (answer e)⟩
  | b => b

/-- The operation of a task that has run, and its outcome, once the submission has returned. -/
def ran? (b : Submission) : Option (Operation × String) :=
  match b.rest with
  | .done result => if b.isResolved then some (b.task.operation, outcomeLabel result) else none
  | .perform _ _ => none

/-- The account that is found is the principal for whom the task runs. -/
theorem submit_go (t : Task) (accountId : String) (answer : (e : Effect) → e.Answer) :
    (submit t accountId).go answer =
      match answer (.accounts (.get accountId)) with
      | .ok a => trust t (.ofAccount a)
      | .error e => ⟨t, .done (.error (.ofStore e)), false⟩ := by
  unfold submit
  rw [submit_run]
  dsimp only [go]
  cases answer (.accounts (.get accountId)) <;> rfl

/-- How far a submission can be. -/
inductive Stands : Submission → Prop
  | waiting (t : Task) (accountId : String) : Stands (.submit t accountId)
  | unknown (t : Task) (e : TaskError) : Stands ⟨t, .done (.error e), false⟩
  | running (t : Task) (rest : Program (Except TaskError t.Result))
      (h : Reports t.operation rest) : Stands ⟨t, rest, true⟩
  | returned (t : Task) (result : Except TaskError t.Result) : Stands ⟨t, .done result, true⟩

theorem trust_stands (t : Task) (p : Principal) : (trust t p).Stands :=
  .running t _ (submitTrusted_reports t p)

/-- What is recorded of a submission as it goes on is that its task has run. -/
structure Tells (b b' : Submission) (e : Effect) : Prop where
  stands : b'.Stands
  task : b'.task = b.task
  isNew : b.ran? = none
  events : e.events = (b'.ran?.map fun ran => .task ran.1.name ran.2).toList

theorem effect_of_reports (t : Task) (rest : Program (Except TaskError t.Result))
    (isResolved : Bool) (h : Reports t.operation rest) :
    (effect? ⟨t, rest, isResolved⟩).isSome = true := by
  cases h <;> rfl

theorem ran_of_reports (t : Task) (rest : Program (Except TaskError t.Result))
    (h : Reports t.operation rest) : ran? ⟨t, rest, true⟩ = none := by
  cases h <;> rfl

theorem trust_ran (t : Task) (p : Principal) : (trust t p).ran? = none :=
  ran_of_reports t _ (submitTrusted_reports t p)

theorem go_tells (b : Submission) (e : Effect) (answer : (e : Effect) → e.Answer) (h : b.Stands)
    (he : b.effect? = some e) : b.Tells (b.go answer) e := by
  cases h with
  | unknown t e => cases he
  | returned t result => cases he
  | waiting t accountId =>
    have hget : e = .accounts (.get accountId) := (Option.some.inj he).symm
    rw [submit_go, hget]
    cases answer (.accounts (.get accountId)) with
    | ok a => exact ⟨trust_stands t _,rfl,rfl,by rw [trust_ran]; rfl⟩
    | error e => exact ⟨.unknown t _,rfl,rfl,rfl⟩
  | running t rest hreports =>
    cases hreports with
    | last result =>
      cases he
      exact ⟨.returned t result,rfl,rfl,rfl⟩
    | before e next hsilent hnext =>
      cases he
      refine ⟨.running t _ (hnext _),rfl,rfl,?_⟩
      change e.events = ((ran? ⟨t, next (answer e), true⟩).map _).toList
      rw [hsilent, ran_of_reports t _ (hnext _)]
      rfl

end Submission

end Tasks
end VmFleet
