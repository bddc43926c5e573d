import VmFleet.Central.Run
import VmFleet.Proofs.Program.Terms

/-!
# Refused tasks leave everything alone

A task is refused exactly when no row of the capability table admits its principal's relation to the
target. It then has asked nothing of the stores and of nobody else; only the lookup of a machine has
to read that machine first, since nothing else tells its owner. A caller without an account gets no
further than the lookup of that account.
-/

set_option autoImplicit false

namespace VmFleet

/-! ## Programs that are never kept waiting -/

/-- Effects that tasks make use of; all of them are answered at once. Tasks never write accounts in
batches. -/
def Effect.isPlain : Effect → Bool
  | .accounts (.putAll _) => false
  | .delegate _ _ => false
  | .wait _ => false
  | _ => true

def Terms.plain : Terms := ⟨fun e => e.isPlain = true,fun _ _ => True⟩

namespace Central

theorem react_plain (w : World) (isCancelled : Bool) (e : Effect) (wait : Wait)
    (h : e.isPlain = true) : ∃ answer w', w.react isCancelled e wait = .answer answer w' := by
  cases e with
  | delegate channel payload => cases h
  | wait millis => cases h
  | _ => exact ⟨_,_,rfl⟩

theorem proceed_plain {α : Type} (isCancelled : Bool) (Q : α → Prop) (p : Program α)
    (h : p.Keeps .plain Q) (wait : Wait) (w : World) :
    ∃ a w', proceed isCancelled p wait w = (.over a, w') ∧ Q a := by
  induction p generalizing wait w with
  | done a => exact ⟨a,w,rfl,h⟩
  | perform e next ih =>
    obtain ⟨answer, w', hr⟩ := react_plain w isCancelled e wait h.1
    obtain ⟨a, w'', hp, ha⟩ := ih answer (h.2 answer trivial) .nothing w'
    refine ⟨a, w'', ?_, ha⟩
    rw [proceed, hr]
    exact hp

/-- Some reads at most were asked of the stores, and nobody else was asked for anything. -/
structure OnlyRead (accountReads machineReads : Nat) (w w' : World) : Prop where
  accounts : w'.records.accounts.repository = w.records.accounts.repository
  machines : w'.records.machines.repository = w.records.machines.repository
  accountReads : w'.records.accounts.reads = w.records.accounts.reads + accountReads
  accountWrites : w'.records.accounts.writes = w.records.accounts.writes
  machineReads : w'.records.machines.reads = w.records.machines.reads + machineReads
  machineWrites : w'.records.machines.writes = w.records.machines.writes
  exchange : w'.exchange = w.exchange
  /-- Not even provisioning was started. -/
  activities : w'.ready = w.ready ∧ w'.blocked = w.blocked

end Central

namespace Security

/-- No two rows of the table are about the same operation and role. -/
theorem capability_unique : ∀ c ∈ capabilities, ∀ d ∈ capabilities,
    c.operation = d.operation → c.role = d.role → c = d := by
  decide

theorem isAllowed_eq_false_iff (p : Principal) (o : Operation) (w : Ownership) :
    isAllowed p o w = false ↔
      ∀ c ∈ capabilities, c.operation = o → c.role = p.role → c.grant.admits w = false := by
  unfold isAllowed grantFor
  cases hf : capabilities.find? fun c => c.operation = o ∧ c.role = p.role with
  | none =>
    have hnone := List.find?_eq_none.mp hf
    simp only [Option.map_none, true_iff]
    intro c hc ho hr
    exact absurd (decide_eq_true ⟨ho,hr⟩) (hnone c hc)
  | some d =>
    have hd := List.mem_of_find?_eq_some hf
    have hmatch := List.find?_some hf
    simp only [decide_eq_true_eq] at hmatch
    obtain ⟨hdo, hdr⟩ := hmatch
    simp only [Option.map_some]
    constructor
    · intro h c hc ho hr
      rw [capability_unique c hc d hd (ho.trans hdo.symm) (hr.trans hdr.symm)]
      exact h
    · intro h
      exact h d hd hdo hdr

end Security

namespace Tasks

open Security Store Central

variable {α β : Type}

/-! ## What comes after the check -/

def Admitted (r : Except TaskError α) : Prop := ∀ d, r ≠ .error (.unauthorized d)

theorem admitted_mapError {ε : Type} (f : ε → TaskError) (hf : ∀ e d, f e ≠ .unauthorized d)
    (r : Except ε α) : Admitted (r.mapError f) := by
  intro d
  cases r with
  | ok x => exact fun h => nomatch h
  | error e => exact fun h => hf e d (Except.error.inj h)

theorem ofStore_ne_unauthorized (e : StoreError) (d : Denial) :
    TaskError.ofStore e ≠ .unauthorized d := by
  cases e <;> exact fun h => nomatch h

/-- Attempts that only ask for what is answered at once and are not refused any more. -/
def GoesOn (a : Attempt α) : Prop := a.run.Keeps .plain Admitted

theorem goesOn_bind (a : Attempt α) (f : α → Attempt β) (ha : GoesOn a) (hf : ∀ x, GoesOn (f x)) :
    GoesOn (a >>= f) := by
  refine (Attempt.keeps_bind .plain Admitted a f).mpr (ha.mono ?_)
  intro r hr
  refine ⟨fun x _ => hf x, ?_⟩
  rintro e rfl d h
  cases h
  exact hr d rfl

theorem goesOn_authorized (p : Principal) (o : Operation) (w : Ownership) (f : Unit → Attempt α)
    (h : isAllowed p o w = true) (hf : GoesOn (f ())) : GoesOn (Attempt.authorize p o w >>= f) := by
  unfold GoesOn
  rw [Attempt.authorize_allowed p o w f h]
  exact hf

theorem goesOn_accounts (call : Call Account) (h : (Effect.accounts call).isPlain = true) :
    GoesOn (Attempt.accounts call) :=
  ⟨h,fun answer _ => admitted_mapError _ ofStore_ne_unauthorized answer⟩

theorem goesOn_machines (call : Call Machine) : GoesOn (Attempt.machines call) :=
  ⟨rfl,fun answer _ => admitted_mapError _ ofStore_ne_unauthorized answer⟩

theorem goesOn_ask (e : Effect) (h : e.isPlain = true) : GoesOn (Attempt.ask e) :=
  ⟨h,fun _ _ _ h => nomatch h⟩

theorem goesOn_pure (x : α) : GoesOn (pure x : Attempt α) := fun _ h => nomatch h

theorem goesOn_ofExcept {ε : Type} (f : ε → TaskError) (hf : ∀ e d, f e ≠ .unauthorized d)
    (r : Except ε α) : GoesOn (Attempt.ofExcept f r) := admitted_mapError f hf r

theorem goesOn_freshId (kind : String) : GoesOn (freshId kind) :=
  goesOn_bind _ _ (goesOn_ask _ rfl) fun _ => goesOn_pure _

theorem goesOn_freshSalt : GoesOn freshSalt :=
  goesOn_bind _ _ (goesOn_ask _ rfl) fun _ => goesOn_pure _

theorem check_ne_unauthorized (new : NewAccount) : Admitted new.check := by
  intro d
  unfold NewAccount.check
  split
  · exact fun h => nomatch h
  · split <;> exact fun h => nomatch h

theorem goesOn_check (new : NewAccount) : GoesOn (Attempt.ofExcept id new.check) := by
  have h := check_ne_unauthorized new
  intro d
  cases hc : new.check with
  | ok x => exact fun h => nomatch h
  | error e =>
    intro he
    apply h d
    rw [hc, Except.error.injEq]
    exact Except.error.inj he

theorem goesOn_checkOwner (p : Principal) : GoesOn (checkOwner p) := by
  unfold checkOwner
  cases p.kind with
  | account => exact goesOn_bind _ _ (goesOn_accounts _ rfl) fun _ => goesOn_pure _
  | system identity => exact goesOn_pure ()

/-! ## The tasks -/

/-- How a task's target relates to its principal, as far as the task itself tells. -/
def Task.stated (p : Principal) : Task → Ownership
  | .getUser id => .of p id
  | .updateUser id _ _ => .of p id
  | .deleteUser id => .of p id
  | _ => .noTarget

/-- The relation that the answer to a lookup shows: a machine tells its owner. -/
def shown (p : Principal) : Except StoreError Machine → Ownership
  | .ok m => .of p m.ownerId
  | .error _ => .noTarget

/-- How a task's target relates to its principal. -/
def Task.relation (p : Principal) (w : World) : Task → Ownership
  | .getVm id => shown p (w.records.machines.run (.get id)).1
  | t => t.stated p

theorem operation_eq_getVm_iff (t : Task) : t.operation = .getVm ↔ ∃ id, t = .getVm id := by
  cases t <;> simp [Task.operation]

theorem execute_denied (t : Task) (p : Principal)
    (h : isAllowed p t.operation (t.stated p) = false) :
    (t.execute p).run = .done (.error (.unauthorized ⟨p.id, t.operation⟩)) := by
  cases t <;> exact Attempt.authorize_denied _ _ _ _ h

theorem execute_goesOn (t : Task) (p : Principal) (hvm : t.operation ≠ .getVm)
    (h : isAllowed p t.operation (t.stated p) = true) : GoesOn (t.execute p) := by
  cases t with
  | createUser new ensureUnique =>
    refine goesOn_authorized p .createUser .noTarget _ h ?_
    refine goesOn_bind _ _ (goesOn_check new) fun _ => ?_
    refine goesOn_bind _ _ goesOn_freshSalt fun salt => ?_
    refine goesOn_bind _ _ (goesOn_ofExcept faulty (fun _ _ h => nomatch h) _) fun hashed => ?_
    exact goesOn_bind _ _ (goesOn_freshId _) fun id => goesOn_accounts (.add _ ensureUnique) rfl
  | getUser id => exact goesOn_authorized p .getUser _ _ h (goesOn_accounts (.get id) rfl)
  | getAllUsers => exact goesOn_authorized p .getAllUsers _ _ h (goesOn_accounts .getAll rfl)
  | updateUser id firstName lastName =>
    refine goesOn_authorized p .updateUser _ _ h ?_
    exact goesOn_bind _ _ (goesOn_accounts (.get id) rfl) fun _ => goesOn_accounts (.put _) rfl
  | deleteUser id => exact goesOn_authorized p .deleteUser _ _ h (goesOn_accounts (.delete id) rfl)
  | createVm provider =>
    refine goesOn_authorized p .createVm .noTarget _ h ?_
    refine goesOn_bind _ _ (goesOn_checkOwner p) fun _ => ?_
    refine goesOn_bind _ _ (goesOn_freshId _) fun id => ?_
    refine goesOn_bind _ _ (goesOn_machines (.add _ true)) fun stored => ?_
    exact goesOn_bind _ _ (goesOn_ask (.provision stored) rfl) fun _ => goesOn_pure stored
  | getVm id => exact absurd rfl hvm
  | getAllVms =>
    refine goesOn_authorized p .getAllVms .noTarget _ h ?_
    exact goesOn_bind _ _ (goesOn_machines .getAll) fun _ => goesOn_pure _
  | bulkUpdateVms machines =>
    refine goesOn_authorized p .bulkUpdateVms .noTarget _ h ?_
    cases machines with
    | nil => exact goesOn_pure []
    | cons m rest => exact goesOn_machines (.putAll (m :: rest))

theorem getVm_stated (p : Principal) : isAllowed p .getVm .noTarget = true := by
  obtain ⟨id, role, kind⟩ := p
  cases role <;> rfl

/-- What fetching a machine has come to, once the principal may see machines at all. -/
def seen (p : Principal) : Except StoreError Machine → Except TaskError Machine
  | .ok m =>
    if isAllowed p .getVm (.of p m.ownerId) then .ok m
    else .error (.unauthorized ⟨p.id, .getVm⟩)
  | .error e => .error (.ofStore e)

theorem seen_unauthorized_iff (p : Principal) (answer : Except StoreError Machine) :
    (∃ d, seen p answer = .error (.unauthorized d)) ↔ isAllowed p .getVm (shown p answer) = false := by
  cases answer with
  | error e =>
    rw [shown, getVm_stated]
    constructor
    · rintro ⟨d, hd⟩
      exact absurd (Except.error.inj hd) (ofStore_ne_unauthorized e d)
    · intro h
      cases h
  | ok m =>
    rw [seen, shown]
    cases isAllowed p .getVm (.of p m.ownerId) with
    | true =>
      constructor
      · rintro ⟨d, hd⟩
        cases hd
      · intro h
        cases h
    | false => exact ⟨fun _ => rfl,fun _ => ⟨_,rfl⟩⟩

theorem seen_unauthorized (p : Principal) (answer : Except StoreError Machine) (d : Denial)
    (h : seen p answer = .error (.unauthorized d)) : d = ⟨p.id, .getVm⟩ := by
  cases answer with
  | error e => exact absurd (Except.error.inj h) (ofStore_ne_unauthorized e d)
  | ok m =>
    rw [seen] at h
    split at h
    · cases h
    · cases h
      rfl

theorem seen_allowed (p : Principal) (m : Machine)
    (h : isAllowed p .getVm (.of p m.ownerId) = true) : seen p (.ok m) = .ok m := if_pos h

theorem seen_denied (p : Principal) (m : Machine)
    (h : isAllowed p .getVm (.of p m.ownerId) = false) :
    seen p (.ok m) = .error (.unauthorized ⟨p.id, .getVm⟩) := if_neg (Bool.eq_false_iff.mp h)

theorem getVm_run (p : Principal) (id : String) :
    (getVm p id).run = .perform (.machines (.get id)) fun answer => .done (seen p answer) := by
  refine (Attempt.authorize_allowed p .getVm .noTarget _ (getVm_stated p)).trans ?_
  refine congrArg (Program.perform (.machines (.get id))) (funext fun answer => ?_)
  cases answer with
  | error e => rfl
  | ok m =>
    cases h : isAllowed p .getVm (.of p m.ownerId) with
    | true =>
      exact (Attempt.authorize_allowed _ _ _ _ h).trans (congrArg Program.done (seen_allowed p m h).symm)
    | false =>
      exact (Attempt.authorize_denied _ _ _ _ h).trans (congrArg Program.done (seen_denied p m h).symm)

theorem submitTrusted_run (t : Task) (p : Principal) :
    (t.submitTrusted p).run = (t.execute p).run.bind fun r =>
      .perform (.record (.task t.operation.name (outcomeLabel r))) fun _ => .done r := rfl

theorem submit_denied (t : Task) (p : Principal) (isCancelled : Bool) (wait : Wait) (w : World)
    (h : isAllowed p t.operation (t.stated p) = false) :
    proceed isCancelled (t.submitTrusted p).run wait w =
      (.over (.error (.unauthorized ⟨p.id, t.operation⟩)),
        w.record [.task t.operation.name "unauthorized"]) := by
  rw [submitTrusted_run, execute_denied t p h]
  rfl

theorem submit_goesOn (t : Task) (p : Principal) (hvm : t.operation ≠ .getVm)
    (h : isAllowed p t.operation (t.stated p) = true) : GoesOn (t.submitTrusted p) := by
  rw [GoesOn, submitTrusted_run, Program.keeps_bind]
  exact (execute_goesOn t p hvm h).mono fun r hr => ⟨rfl,fun _ _ => hr⟩

theorem submit_getVm (id : String) (p : Principal) (isCancelled : Bool) (wait : Wait) (w : World) :
    proceed isCancelled ((Task.getVm id).submitTrusted p).run wait w =
      (.over (seen p (w.records.machines.run (.get id)).1),
        { w with records := (w.records.onMachines (.get id)).2 }.record
          [.task "vm.get" (outcomeLabel (seen p (w.records.machines.run (.get id)).1))]) := by
  rw [submitTrusted_run, Task.execute, getVm_run]
  rfl

theorem submit_run (t : Task) (id : String) :
    (t.submit id).run = .perform (.accounts (.get id)) fun
      | .ok a => (t.submitTrusted (.ofAccount a)).run
      | .error e => .done (.error (.ofStore e)) := by
  refine congrArg (Program.perform (.accounts (.get id))) (funext fun answer => ?_)
  cases answer <;> rfl

/-! ## What is left alone -/

theorem onlyRead_refl (w : World) : OnlyRead 0 0 w w := ⟨rfl,rfl,rfl,rfl,rfl,rfl,rfl,rfl,rfl⟩

theorem onlyRead_record (a m : Nat) (w w' : World) (event : Metrics.Event)
    (h : OnlyRead a m w w') : OnlyRead a m w (w'.record [event]) := by
  obtain ⟨h1, h2, h3, h4, h5, h6, h7, h8⟩ := h
  exact ⟨h1,h2,h3,h4,h5,h6,h7,h8⟩

theorem metered_get [Tabled α] (m : Metered α) (id : String) :
    (m.run (.get id)).2.repository = m.repository ∧ (m.run (.get id)).2.reads = m.reads + 1 ∧
      (m.run (.get id)).2.writes = m.writes := by
  obtain ⟨repository, reads, writes, faults⟩ := m
  cases faults with
  | cons reason rest => exact ⟨rfl,rfl,rfl⟩
  | nil => cases repository <;> exact ⟨rfl,rfl,rfl⟩

theorem onlyRead_machine (w : World) (id : String) :
    OnlyRead 0 1 w { w with records := (w.records.onMachines (.get id)).2 } := by
  obtain ⟨hrepository, hreads, hwrites⟩ := metered_get w.records.machines id
  exact ⟨rfl,hrepository,rfl,rfl,hreads,hwrites,rfl,rfl,rfl⟩

theorem onlyRead_account (w : World) (id : String) :
    OnlyRead 1 0 w { w with records := (w.records.onAccounts (.get id)).2 } := by
  obtain ⟨hrepository, hreads, hwrites⟩ := metered_get w.records.accounts id
  exact ⟨hrepository,rfl,hreads,hwrites,rfl,rfl,rfl,rfl,rfl⟩

/-- A record with the id is stored, readable or not. -/
def Stores [Tabled α] (r : Repository α) (id : String) : Prop :=
  match r with
  | .memory items => ∃ e ∈ items, Keyed.id e = id
  | .table sheet => ∃ row ∈ sheet.rows, Table.hasId id row = true

theorem get_missing [Tabled α] (m : Metered α) (id : String) (h : ¬ Stores m.repository id) :
    (m.run (.get id)).1 = .error (missing α id) ∨
      ∃ reason ∈ m.faults, (m.run (.get id)).1 = .error (.backend reason) := by
  obtain ⟨repository, reads, writes, faults⟩ := m
  cases faults with
  | cons reason rest => exact Or.inr ⟨reason,by simp,rfl⟩
  | nil =>
    left
    cases repository with
    | memory items =>
      have hnone : items.find? (fun e => Keyed.id e = id) = none := by
        rw [List.find?_eq_none]
        intro e he hid
        exact h ⟨e,he,of_decide_eq_true hid⟩
      change Memory.get items id = _
      rw [Memory.get, hnone]
      rfl
    | table sheet =>
      have hnone : sheet.rows.find? (Table.hasId id) = none := by
        rw [List.find?_eq_none]
        intro row hr hid
        exact h ⟨row,hr,hid⟩
      change Table.get sheet id = _
      rw [Table.get, hnone]
      rfl

/-! ## Main statement -/

theorem relation_eq_stated (t : Task) (p : Principal) (w : World) (hvm : t.operation ≠ .getVm) :
    t.relation p w = t.stated p := by
  cases t with
  | getVm id => exact absurd rfl hvm
  | _ => rfl

theorem trusted_refused_iff (t : Task) (p : Principal) (w : World) (isCancelled : Bool) :
    ∃ result w', proceed isCancelled (t.submitTrusted p).run .nothing w = (.over result, w') ∧
      ((∃ d, result = .error (.unauthorized d)) ↔
        isAllowed p t.operation (t.relation p w) = false) ∧
      ∀ d, result = .error (.unauthorized d) → d = ⟨p.id, t.operation⟩ ∧
        OnlyRead 0 (if t.operation = .getVm then 1 else 0) w w' := by
  by_cases hvm : t.operation = .getVm
  -- only the machine itself tells whose it is, so that it has been fetched when the check is made
  · obtain ⟨id, rfl⟩ := (operation_eq_getVm_iff t).mp hvm
    refine ⟨_, _, submit_getVm id p isCancelled .nothing w, ?_, ?_⟩
    · exact seen_unauthorized_iff p _
    · intro d hd
      exact ⟨seen_unauthorized p _ d hd, onlyRead_record _ _ _ _ _ (onlyRead_machine w id)⟩
  · rw [relation_eq_stated t p w hvm, if_neg hvm]
    cases h : isAllowed p t.operation (t.stated p) with
    | false =>
      refine ⟨_, _, submit_denied t p isCancelled .nothing w h, ⟨fun _ => rfl,fun _ => ⟨_,rfl⟩⟩, ?_⟩
      intro d hd
      cases hd
      exact ⟨rfl, onlyRead_record _ _ _ _ _ (onlyRead_refl w)⟩
    | true =>
      obtain ⟨result, w', hp, hadmitted⟩ :=
        proceed_plain isCancelled Admitted _ (submit_goesOn t p hvm h) .nothing w
      refine ⟨result, w', hp, ⟨?_,fun hf => nomatch hf⟩, ?_⟩
      · rintro ⟨d, hd⟩
        exact absurd hd (hadmitted d)
      · intro d hd
        exact absurd hd (hadmitted d)

theorem submit_missing (t : Task) (id : String) (w : World) (isCancelled : Bool)
    (h : ¬ Stores w.records.accounts.repository id) :
    ∃ result w', proceed isCancelled (t.submit id).run .nothing w = (.over result, w') ∧
      (result = .error (.notFound "user" id) ∨
        ∃ reason ∈ w.records.accounts.faults, result = .error (.store reason)) ∧
      OnlyRead 1 0 w w' := by
  have hproceed : ∀ e, (w.records.accounts.run (.get id)).1 = .error e →
      proceed isCancelled (t.submit id).run .nothing w =
        (.over (.error (.ofStore e)), { w with records := (w.records.onAccounts (.get id)).2 }) := by
    intro e he
    have hanswer : (w.records.onAccounts (.get id)).1 = .error e := he
    rw [submit_run]
    simp only [proceed, World.react]
    rw [hanswer]
    rfl
  rcases get_missing w.records.accounts id h with hm | ⟨reason, hreason, hf⟩
  · exact ⟨_,_,hproceed _ hm,Or.inl rfl,onlyRead_account w id⟩
  · exact ⟨_,_,hproceed _ hf,Or.inr ⟨reason,hreason,rfl⟩,onlyRead_account w id⟩

/-- A task run for a principal is refused exactly when no row of the capability table admits the
relation of its target, and it is then as if nothing had been asked for, but for the one lookup of a
machine. A caller without an account is told so after the lookup of that account; the only other
way for it to end is that this lookup was due to fail. -/
theorem refused_exactly_by_table (t : Task) (w : World) (isCancelled : Bool) :
    (∀ p : Principal, ∃ result w',
      proceed isCancelled (t.submitTrusted p).run .nothing w = (.over result, w') ∧
      ((∃ d, result = .error (.unauthorized d)) ↔
        ∀ c ∈ capabilities, c.operation = t.operation → c.role = p.role →
          c.grant.admits (t.relation p w) = false) ∧
      ∀ d, result = .error (.unauthorized d) → d = ⟨p.id, t.operation⟩ ∧
        OnlyRead 0 (if t.operation = .getVm then 1 else 0) w w') ∧
    ∀ id, ¬ Stores w.records.accounts.repository id → ∃ result w',
      proceed isCancelled (t.submit id).run .nothing w = (.over result, w') ∧
      (result = .error (.notFound "user" id) ∨
        ∃ reason ∈ w.records.accounts.faults, result = .error (.store reason)) ∧
      OnlyRead 1 0 w w' := by
  constructor
  · intro p
    simp only [← isAllowed_eq_false_iff]
    exact trusted_refused_iff t p w isCancelled
  · intro id h
    exact submit_missing t id w isCancelled h

end Tasks
end VmFleet
