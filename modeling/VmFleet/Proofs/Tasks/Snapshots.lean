import VmFleet.Jobs.Job
import VmFleet.Proofs.Delegation.Replies
import VmFleet.Proofs.Tasks.Reached

/-!
# What background work puts back

Provisioning holds the machine that was stored when it began, and a tick that moves machines up holds
all machines as it has read them. Whatever else goes on, each of the two puts back nothing but what it
holds, moved up. A task puts what it is given, adds machines of its own, and starts provisioning of
nothing but what it has just added.
-/

set_option autoImplicit false

namespace VmFleet

open Security Store Delegation

namespace Tasks

/-- What an answered effect has shown of the stored machines. -/
def captured? : (e : Effect) → e.Answer → Option (List Machine)
  | .machines .getAll, .ok ms => some ms
  | .machines (.add _ _), .ok m => some [m]
  | _, _ => none

/-- What an answered effect has stored, in order. -/
def stores : (e : Effect) → e.Answer → List Machine
  | .machines (.put m), .ok _ => [m]
  | .machines (.putAll ms), .ok _ => ms
  | .machines (.add m true), .ok _ => [m]
  | _, _ => []

/-- How an effect is answered while a worker serves requests, or nobody does. -/
def Served : (e : Effect) → e.Answer → Prop
  | .delegate _ payload, answer =>
    ∀ v, answer = .ok v → ∃ sent, payload = .ok sent ∧ Provides sent (.ok v)
  | _, _ => True

def MovedUp (held : List Machine) (w : Machine) : Prop := ∃ m ∈ held, w = m.withStatus .up

/-- What somebody who holds these machines asks for, in the background or for a task. -/
def May (isBackground : Bool) (held : List Machine) : Effect → Prop
  | .machines (.put w) => isBackground = true ∧ MovedUp held w
  | .machines (.putAll ws) => isBackground = true → ∀ w ∈ ws, MovedUp held w
  | .machines (.add _ ensureUnique) => isBackground = false ∧ ensureUnique = true
  | .machines (.delete _) => False
  | .provision m => isBackground = false ∧ held = [m]
  | _ => True

end Tasks

namespace Program

open Tasks

variable {α β : Type}

/-- The program asks for what it may along every run, where what it holds is what it was shown last. -/
def Heeds (isBackground : Bool) (Q : List Machine → α → Prop) : List Machine → Program α → Prop
  | held, .done a => Q held a
  | held, .perform e next => May isBackground held e ∧ ∀ answer, Served e answer →
      Heeds isBackground Q ((captured? e answer).getD held) (next answer)

theorem heeds_bind (isBackground : Bool) (Q : List Machine → β → Prop) (p : Program α)
    (f : α → Program β) (held : List Machine) :
    (p.bind f).Heeds isBackground Q held ↔
      p.Heeds isBackground (fun held a => (f a).Heeds isBackground Q held) held := by
  induction p generalizing held with
  | done a => rfl
  | perform e next ih => simp only [bind, Heeds, ih]

theorem Heeds.mono {isBackground : Bool} {Q R : List Machine → α → Prop} {p : Program α}
    {held : List Machine} (h : p.Heeds isBackground Q held) (hq : ∀ held a, Q held a → R held a) :
    p.Heeds isBackground R held := by
  induction p generalizing held with
  | done a => exact hq held a h
  | perform e next ih => exact ⟨h.1,fun answer hs => ih answer (h.2 answer hs)⟩

theorem heeds_forget (isBackground : Bool) (Q : List Machine → α → Prop) (p : Program α)
    (held : List Machine) (h : p.Heeds isBackground Q held) :
    p.forget.Heeds isBackground (fun _ _ => True) held :=
  (heeds_bind isBackground _ p _ held).mpr (h.mono fun _ _ _ => trivial)

/-- Effects that may be asked for whatever one holds. -/
def freely (isBackground : Bool) : Terms := ⟨fun e => ∀ held, May isBackground held e,fun _ _ => True⟩

theorem heeds_of_within (isBackground : Bool) (p : Program α) (held : List Machine)
    (h : p.Within (freely isBackground)) : p.Heeds isBackground (fun _ _ => True) held := by
  induction p generalizing held with
  | done a => trivial
  | perform e next ih => exact ⟨h.1 held,fun answer _ => ih answer _ (h.2 answer trivial)⟩

end Program

namespace Tasks

/-! ## In the background -/

theorem transitions_movedUp (held machines : List Machine) (h : ∀ m ∈ machines, m ∈ held) :
    ∀ w ∈ Machine.transitions machines, MovedUp held w := by
  intro w hw
  simp only [Machine.transitions, List.mem_map, List.mem_filter] at hw
  obtain ⟨m, ⟨hm, -⟩, rfl⟩ := hw
  exact ⟨m,h m hm,rfl⟩

/-- What becomes of a reply once it is read. -/
def keepReply (m : Machine) : Except TransportError Machine → Program (Except TaskError Machine)
  | .ok reply => (if describes reply m then Attempt.machines (.put reply)
      else throw (.transport (mismatch reply m))).run
  | .error e => .done (.error (.transport e))

theorem provision_run (m : Machine) :
    (provision m).run = .perform (.delegate resourceCreate (.ok m.encode)) fun answer =>
      .perform (.record (.request resourceCreate
        (Delegation.outcomeLabel (readReply resourceCreate Machine.decode answer)))) fun _ =>
          keepReply m (readReply resourceCreate Machine.decode answer) := by
  refine congrArg (Program.perform _) (funext fun answer => ?_)
  refine congrArg (Program.perform _) (funext fun _ => ?_)
  cases readReply resourceCreate Machine.decode answer <;> rfl

/-- The machine that provisioning puts is the one that it has sent, since a worker replies with no
other. -/
theorem provisioning_heeds (m : Machine) :
    (provisioning m).Heeds true (fun _ _ => True) [m] := by
  apply Program.heeds_forget true fun _ _ => True
  rw [provision_run]
  refine ⟨trivial,fun answer hserved => ⟨trivial,fun _ _ => ?_⟩⟩
  change Program.Heeds true _ [m] (keepReply m (readReply resourceCreate Machine.decode answer))
  cases answer with
  | error e => trivial
  | ok v =>
    obtain ⟨sent, hsent, hprovides⟩ := hserved v rfl
    cases hsent
    have hread : readReply resourceCreate Machine.decode (.ok v) = .ok (m.withStatus .up) := by
      rw [readReply, provides_of_encode m v hprovides]
      rfl
    have hdescribes : describes (m.withStatus .up) m = true := by simp [describes, Machine.withStatus]
    rw [hread, keepReply, if_pos hdescribes]
    exact ⟨⟨rfl,m,List.mem_singleton_self m,rfl⟩,fun _ _ => trivial⟩

/-- What a tick does about the machines that it has to move. -/
def moveUp (updates : List Machine) : Jobs.Steps Unit :=
  if updates.isEmpty then return ()
  else do
    Jobs.stopIfCancelled
    let _ ← Jobs.perform (.bulkUpdateVms updates)
    return ()

theorem updateStatuses_run :
    Jobs.updateStatuses.run = .perform .isCancelled fun
      | true => .done (.error .cancelled)
      | false => .perform (.machines .getAll) fun answer =>
        let listed := answer.map (visible Jobs.jobPrincipal) |>.mapError TaskError.ofStore
        .perform (.record (.task Operation.getAllVms.name (outcomeLabel listed))) fun _ =>
          match answer with
          | .ok ms => (moveUp (Machine.transitions (visible Jobs.jobPrincipal ms))).run
          | .error e => .done (.error (.task (.ofStore e))) := by
  refine congrArg (Program.perform _) (funext fun isCancelled => ?_)
  cases isCancelled with
  | true => rfl
  | false =>
    refine congrArg (Program.perform _) (funext fun answer => ?_)
    cases answer <;> rfl

theorem moveUp_run (m : Machine) (ms : List Machine) :
    (moveUp (m :: ms)).run = .perform .isCancelled fun
      | true => .done (.error .cancelled)
      | false => .perform (.machines (.putAll (m :: ms))) fun answer =>
        let stored := answer.mapError TaskError.ofStore
        .perform (.record (.task Operation.bulkUpdateVms.name (outcomeLabel stored))) fun _ =>
          .done ((stored.mapError .task).map fun _ => ()) := by
  refine congrArg (Program.perform _) (funext fun isCancelled => ?_)
  cases isCancelled with
  | true => rfl
  | false =>
    refine congrArg (Program.perform _) (funext fun answer => ?_)
    cases answer <;> rfl

theorem moveUp_heeds (held updates : List Machine) (h : ∀ w ∈ updates, MovedUp held w) :
    (moveUp updates).run.Heeds true (fun _ _ => True) held := by
  cases updates with
  | nil => trivial
  | cons m ms =>
    rw [moveUp_run]
    refine ⟨trivial,fun isCancelled _ => ?_⟩
    cases isCancelled with
    | true => trivial
    | false => exact ⟨fun _ => h,fun _ _ => ⟨trivial,fun _ _ => trivial⟩⟩

/-- A tick puts nothing but machines that it has read, moved up. -/
theorem updateStatuses_heeds (held : List Machine) :
    Jobs.updateStatuses.run.Heeds true (fun _ _ => True) held := by
  rw [updateStatuses_run]
  refine ⟨trivial,fun isCancelled _ => ?_⟩
  cases isCancelled with
  | true => trivial
  | false =>
    refine ⟨trivial,fun answer _ => ⟨trivial,fun _ _ => ?_⟩⟩
    cases answer with
    | error e => trivial
    | ok ms =>
      apply moveUp_heeds
      apply transitions_movedUp
      intro m hm
      exact List.mem_of_mem_filter hm

theorem work_heeds (n : Nat) (held : List Machine) :
    (Jobs.updateStatusJob.work n).forget.Heeds true (fun _ _ => True) held := by
  apply Program.heeds_forget true fun _ _ => True
  exact (Program.heeds_bind _ _ _ _ _).mpr ((updateStatuses_heeds held).mono fun _ _ _ => trivial)

/-! ## For a task -/

theorem heeds_attempt {α β : Type} (isBackground : Bool) (Q : List Machine → Except TaskError α → Prop)
    (a : Attempt α) (f : α → Attempt β) (held : List Machine) (h : a.run.Heeds isBackground Q held)
    (hf : ∀ held x, Q held (.ok x) → (f x).run.Heeds isBackground (fun _ _ => True) held) :
    (a >>= f).run.Heeds isBackground (fun _ _ => True) held := by
  rw [Attempt.run_bind]
  refine (Program.heeds_bind _ _ _ _ _).mpr (h.mono fun held r hr => ?_)
  cases r with
  | ok x => exact hf held x hr
  | error e => trivial

/-- Of all tasks only one that creates a machine starts provisioning, and of that machine. -/
theorem createVm_heeds (p : Principal) (provider : Provider) (held : List Machine) :
    (createVm p provider).run.Heeds false (fun _ _ => True) held := by
  have hadd : ∀ (m : Machine) (held : List Machine), (Attempt.machines (.add m true)).run.Heeds false
      (fun held r => ∀ x, r = .ok x → held = [x]) held := by
    intro m held
    refine ⟨⟨rfl,rfl⟩,fun answer _ => ?_⟩
    cases answer with
    | error e =>
      intro x hx
      cases hx
    | ok stored =>
      intro x hx
      cases hx
      rfl
  have howner : ∀ held, (checkOwner p).run.Heeds false (fun _ _ => True) held := fun held =>
    Program.heeds_of_within false _ held (checkOwner_within p _ fun _ => trivial)
  have hid : ∀ held, (freshId "VM:").run.Heeds false (fun _ _ => True) held := fun held =>
    Program.heeds_of_within false _ held (freshId_within _ _ fun _ => trivial)
  cases h : isAllowed p .createVm .noTarget with
  | false =>
    rw [createVm, Attempt.authorize_denied _ _ _ _ h]
    trivial
  | true =>
    rw [createVm, Attempt.authorize_allowed _ _ _ _ h]
    apply heeds_attempt false _ _ _ held (howner held)
    intro held _ _
    apply heeds_attempt false _ _ _ held (hid held)
    intro held id _
    apply heeds_attempt false _ _ _ held (hadd _ held)
    intro held stored hstored
    exact ⟨⟨rfl,hstored stored rfl⟩,fun _ _ => trivial⟩

theorem execute_heeds (t : Task) (p : Principal) (held : List Machine) :
    (t.execute p).run.Heeds false (fun _ _ => True) held := by
  by_cases hcreate : ∃ provider, t = .createVm provider
  · obtain ⟨provider, rfl⟩ := hcreate
    exact createVm_heeds p provider held
  · apply Program.heeds_of_within
    apply execute_within
    · intro id firstName lastName _
      apply Attempt.within_authorize
      intro _
      exact Attempt.within_accounts _ _ _ (fun _ => trivial) fun _ _ => ⟨fun _ => trivial,fun _ _ => trivial⟩
    · intro provider ht
      exact absurd ⟨provider,ht⟩ hcreate
    · intro call _ held
      trivial
    · rintro call (hread | ⟨ms, rfl⟩) held
      · cases call with
        | getAll => trivial
        | get id => trivial
        | _ => cases hread
      · intro hbackground
        cases hbackground
    · intro count held
      trivial

theorem submitTrusted_heeds (t : Task) (p : Principal) (held : List Machine) :
    (t.submitTrusted p).run.Heeds false (fun _ _ => True) held := by
  rw [submitTrusted_run]
  exact (Program.heeds_bind _ _ _ _ _).mpr
    ((execute_heeds t p held).mono fun _ _ _ => ⟨trivial,fun _ _ => trivial⟩)

theorem runsTask_heeds (q : Program Unit) (h : RunsTask q) (held : List Machine) :
    q.Heeds false (fun _ _ => True) held := by
  obtain ⟨t, ⟨p, rfl⟩ | ⟨id, rfl⟩⟩ := h
  · exact Program.heeds_forget false _ _ held (submitTrusted_heeds t p held)
  · apply Program.heeds_forget false fun _ _ => True
    rw [submit_run]
    refine ⟨trivial,fun answer _ => ?_⟩
    cases answer with
    | error e => trivial
    | ok a => exact submitTrusted_heeds t (.ofAccount a) held

end Tasks
end VmFleet
