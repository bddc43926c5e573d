import VmFleet.Proofs.Store.Held
import VmFleet.Proofs.Store.Lookup
import VmFleet.Proofs.Tasks.Snapshots
import VmFleet.Proofs.Tasks.Succession

/-!
# One tick of the upkeep of machines

A tick reads all machines and puts those that are not up back as up, in one call. While nobody else
writes, every machine is up after it and nothing else of any of them has changed; the next tick has
nothing to write. A tick that is cancelled makes no call from then on.
-/

set_option autoImplicit false

namespace VmFleet.Jobs

open Store Tasks

/-! ## The machines that are moved up -/

theorem transitions_nodup (items : List Machine) (h : (items.map Keyed.id).Nodup) :
    ((Machine.transitions items).map Keyed.id).Nodup := by
  have hids : (Machine.transitions items).map Keyed.id =
      (items.filter fun m => m.status ≠ .up).map Keyed.id := by
    rw [Machine.transitions, List.map_map]
    rfl
  rw [hids]
  exact (List.Sublist.map Keyed.id List.filter_sublist).nodup h

theorem mem_transitions (items : List Machine) (x : Machine) :
    x ∈ Machine.transitions items ↔ ∃ m ∈ items, m.status ≠ .up ∧ m.withStatus .up = x := by
  simp [Machine.transitions, and_assoc]

theorem transitions_eq_nil_iff (items : List Machine) :
    Machine.transitions items = [] ↔ ∀ m ∈ items, m.status = .up := by
  simp [Machine.transitions]

theorem last_transitions (items : List Machine) (h : (items.map Keyed.id).Nodup) (m : Machine)
    (hm : m ∈ items) :
    (Memory.last? (Keyed.id m) (Machine.transitions items)).getD m = m.withStatus .up := by
  by_cases hup : m.status = .up
  · have hnone : Memory.last? (Keyed.id m) (Machine.transitions items) = none := by
      rw [Option.eq_none_iff_forall_ne_some]
      intro x hx
      obtain ⟨hmem, hid⟩ := Memory.last_eq_some _ _ x hx
      obtain ⟨y, hy, hdown, rfl⟩ := (mem_transitions items x).mp hmem
      cases List.inj_on_of_nodup_map h hy hm hid
      exact hdown hup
    obtain ⟨id, provider, status, owner⟩ := m
    cases hup
    rw [hnone]
    rfl
  · have hmem := (mem_transitions items (m.withStatus .up)).mpr ⟨m,hm,hup,rfl⟩
    have hfind := Memory.find_eq_of_mem _ (transitions_nodup items h) _ hmem
    rw [Memory.last_eq_find _ (transitions_nodup items h)]
    exact congrArg (Option.getD · m) hfind

/-- Putting them back moves all machines up, each in its place. -/
theorem placeAll_transitions (items : List Machine) (h : (items.map Keyed.id).Nodup) :
    Memory.placeAll (Machine.transitions items) items = items.map (·.withStatus .up) := by
  rw [Memory.placeAll_eq_map _ items h]
  · exact List.map_congr_left (last_transitions items h)
  · intro x hx
    obtain ⟨m, hm, -, rfl⟩ := (mem_transitions items x).mp hx
    exact ⟨m,hm,rfl⟩

theorem putAll_transitions (items : List Machine) (h : (items.map Keyed.id).Nodup) :
    Memory.run items (.putAll (Machine.transitions items)) =
      (.ok (Machine.transitions items), items.map (·.withStatus .up)) := by
  rw [← placeAll_transitions items h]
  rcases Memory.putAll_cases items (Machine.transitions items) with ⟨x, -, hconflicts, -⟩ | ⟨-, hput⟩
  · rw [Memory.conflicts_of_key_eq_id fun _ => rfl] at hconflicts
    cases hconflicts
  · exact hput

/-! ## A tick on its own -/

/-- The records while nobody else writes, the calls on machines that were made so far, and what will
be found at each look whether the tick is cancelled. -/
structure Solo where
  records : Records
  calls : List (Call Machine)
  looks : List Bool

namespace Solo

def callsOf : Effect → List (Call Machine)
  | .machines call => [call]
  | _ => []

def looksAfter (looks : List Bool) : Effect → List Bool
  | .isCancelled => looks.tail
  | _ => looks

def answer (s : Solo) (e : Effect) : e.Answer × Solo :=
  let a := s.records.respond { Supply.nothing with isCancelled := s.looks.headD false } e
  (a.1, ⟨a.2.1, s.calls ++ callsOf e, looksAfter s.looks e⟩)

end Solo

/-- A tick that looks first and second whether it is cancelled. -/
def tick (n : Nat) (r : Records) (first second : Bool) : Ending × Solo :=
  (updateStatusJob.work n).run Solo.answer ⟨r, [], [first, second]⟩

theorem visible_jobPrincipal (items : List Machine) : visible jobPrincipal items = items := by
  refine List.filter_eq_self.mpr fun m _ => ?_
  cases Security.Ownership.of jobPrincipal m.ownerId <;> rfl

/-- What a tick goes on with once it has asked for all machines. -/
def afterRead (listed : Except StoreError (List Machine)) : Program (Except JobError Unit) :=
  .perform (.record (.task Security.Operation.getAllVms.name
    (Tasks.outcomeLabel (listed.mapError TaskError.ofStore)))) fun _ =>
      match listed with
      | .ok ms => (moveUp (Machine.transitions ms)).run
      | .error e => .done (.error (.task (.ofStore e)))

theorem updateStatuses_reads :
    updateStatuses.run = .perform .isCancelled fun
      | true => .done (.error .cancelled)
      | false => .perform (.machines .getAll) afterRead := by
  rw [updateStatuses_run]
  refine congrArg (Program.perform _) (funext fun isCancelled => ?_)
  cases isCancelled with
  | true => rfl
  | false =>
    refine congrArg (Program.perform _) (funext fun listed => ?_)
    cases listed with
    | error e => rfl
    | ok ms =>
      have hvisible := visible_jobPrincipal ms
      exact congrArg (fun shown =>
        Program.perform (.record (.task Security.Operation.getAllVms.name "ok"))
          fun _ => (moveUp (Machine.transitions shown)).run) hvisible

theorem tick_goes_on (n : Nat) (r : Records) (second : Bool)
    (listed : Except StoreError (List Machine)) (machines : Metered Machine)
    (h : r.machines.run .getAll = (listed, machines)) :
    tick n r false second =
      let rest := (afterRead listed).run Solo.answer ⟨{ r with machines }, [.getAll], [second]⟩
      (.ofExcept rest.1, rest.2) := by
  have hwork : updateStatusJob.work n =
      updateStatuses.run.bind fun result => .done (.ofExcept result) := rfl
  have hlisted : listed = (r.machines.run .getAll).1 := congrArg Prod.fst h.symm
  have hmachines : machines = (r.machines.run .getAll).2 := congrArg Prod.snd h.symm
  rw [tick, hwork, Program.run_bind, updateStatuses_reads, hlisted, hmachines]
  rfl

/-- What a tick ends with once it has put machines back. -/
def afterWrite (stored : Except StoreError (List Machine)) : Program (Except JobError Unit) :=
  .perform (.record (.task Security.Operation.bulkUpdateVms.name
    (Tasks.outcomeLabel (stored.mapError TaskError.ofStore)))) fun _ =>
      .done (((stored.mapError TaskError.ofStore).mapError .task).map fun _ => ())

theorem moveUp_goes_on (updates : List Machine) (h : updates ≠ []) (r : Records)
    (stored : Except StoreError (List Machine)) (machines : Metered Machine)
    (hput : r.machines.run (.putAll updates) = (stored, machines)) :
    (moveUp updates).run.run Solo.answer ⟨r, [.getAll], [false]⟩ =
      (afterWrite stored).run Solo.answer ⟨{ r with machines }, [.getAll, .putAll updates], []⟩ := by
  cases updates with
  | nil => exact absurd rfl h
  | cons m ms =>
    have hstored : stored = (r.machines.run (.putAll (m :: ms))).1 := congrArg Prod.fst hput.symm
    have hmachines : machines = (r.machines.run (.putAll (m :: ms))).2 := congrArg Prod.snd hput.symm
    rw [moveUp_run, hstored, hmachines]
    rfl

theorem moveUp_cancelled (updates : List Machine) (h : updates ≠ []) (r : Records) :
    (moveUp updates).run.run Solo.answer ⟨r, [.getAll], [true]⟩ =
      (.error .cancelled, ⟨r, [.getAll], []⟩) := by
  cases updates with
  | nil => exact absurd rfl h
  | cons m ms => rfl

/-- How a tick ends that finds these machines, where the next calls fail for these reasons; the calls
that it makes, and the machines that it leaves. -/
inductive Ticked (items : List Machine) (faults : List String) :
    Bool → Bool → Ending → List (Call Machine) → List Machine → Prop
  | cancelled (second : Bool) : Ticked items faults true second (.failed .cancelled) [] items
  | unread (second : Bool) (reason : String) (rest : List String) (h : faults = reason :: rest) :
      Ticked items faults false second (.failed (.task (.ofStore (.backend reason)))) [.getAll] items
  | idle (second : Bool) (h : faults = []) (hup : ∀ m ∈ items, m.status = .up) :
      Ticked items faults false second .finished [.getAll] items
  | interrupted (h : faults = []) (hdown : ∃ m ∈ items, m.status ≠ .up) :
      Ticked items faults false true (.failed .cancelled) [.getAll] items
  | moved (h : faults = []) (hdown : ∃ m ∈ items, m.status ≠ .up) :
      Ticked items faults false false .finished
        [.getAll, .putAll (Machine.transitions items)] (items.map (·.withStatus .up))

/-- What a tick leaves: the accounts as they were, and as many reads and writes of machines as it
has made calls of the kind. -/
structure Leaves (r : Records) (calls : List (Call Machine)) (items : List Machine) (r' : Records) :
    Prop where
  accounts : r'.accounts = r.accounts
  reads : r'.machines.reads = r.machines.reads + calls.countP (·.isRead)
  writes : r'.machines.writes = r.machines.writes + calls.countP (! ·.isRead)
  holds : r'.machines.repository.Holds items

theorem tick_spec (n : Nat) (r : Records) (items : List Machine)
    (h : r.machines.repository.Holds items) (first second : Bool) :
    ∃ items', Ticked items r.machines.faults first second (tick n r first second).1
        (tick n r first second).2.calls items' ∧
      Leaves r (tick n r first second).2.calls items' (tick n r first second).2.records := by
  cases first with
  | true => exact ⟨items,.cancelled second,rfl,rfl,rfl,h⟩
  | false =>
    cases hfaults : r.machines.faults with
    | cons reason rest =>
      have hread := r.machines.run_faulted reason rest hfaults .getAll
      rw [tick_goes_on n r second _ _ hread]
      exact ⟨items,.unread second reason rest rfl,rfl,rfl,rfl,h⟩
    | nil =>
      obtain ⟨repository, hholds, hread⟩ := r.machines.run_faultless items h hfaults .getAll trivial
      have hgoes := tick_goes_on n r second _ _ hread
      let read : Records :=
        { r with machines := ⟨repository, r.machines.reads + 1, r.machines.writes, []⟩ }.record
          (.task Security.Operation.getAllVms.name "ok")
      have hmoves : tick n r false second =
          let rest := (moveUp (Machine.transitions items)).run.run Solo.answer ⟨read,[.getAll],[second]⟩
          (.ofExcept rest.1,rest.2) := hgoes
      rw [hmoves]
      by_cases hup : ∀ m ∈ items, m.status = .up
      · rw [(transitions_eq_nil_iff items).mpr hup]
        exact ⟨items,.idle second rfl hup,rfl,rfl,rfl,hholds⟩
      · have hsome := fun hnone => hup ((transitions_eq_nil_iff items).mp hnone)
        have hdown : ∃ m ∈ items, m.status ≠ .up := by simpa using hup
        cases second with
        | true =>
          rw [moveUp_cancelled _ hsome]
          exact ⟨items,.interrupted rfl hdown,rfl,rfl,rfl,hholds⟩
        | false =>
          obtain ⟨repository', hholds', hput⟩ := read.machines.run_faultless items hholds rfl
            (.putAll (Machine.transitions items)) (Table.alike_of_key_eq_id (fun _ => rfl) _)
          rw [putAll_transitions items (Repository.holds_nodup _ items h)] at hput hholds'
          rw [moveUp_goes_on _ hsome read _ _ hput]
          exact ⟨_,.moved rfl hdown,rfl,rfl,rfl,hholds'⟩

variable {items items' : List Machine} {faults : List String} {first second : Bool} {ending : Ending}
  {calls : List (Call Machine)}

/-- A tick that gets to its end leaves all machines up, and otherwise as they were. -/
theorem Ticked.all_up (h : Ticked items faults first second ending calls items')
    (hend : ending = .finished) : items' = items.map (·.withStatus .up) := by
  cases h with
  | cancelled => cases hend
  | unread => cases hend
  | interrupted => cases hend
  | moved => rfl
  | idle second hfaults hup =>
    have hkept : ∀ m ∈ items, m.withStatus .up = id m := by
      intro m hm
      have hstatus := hup m hm
      obtain ⟨id, provider, status, owner⟩ := m
      cases hstatus
      rfl
    rw [List.map_congr_left hkept, List.map_id]

/-- When all machines are up, a tick only reads. -/
theorem Ticked.only_reads (h : Ticked items faults first second ending calls items')
    (hup : ∀ m ∈ items, m.status = .up) : items' = items ∧ ∀ call ∈ calls, call = .getAll := by
  cases h with
  | cancelled => exact ⟨rfl,fun _ hcall => absurd hcall List.not_mem_nil⟩
  | unread => exact ⟨rfl,fun _ hcall => List.mem_singleton.mp hcall⟩
  | idle => exact ⟨rfl,fun _ hcall => List.mem_singleton.mp hcall⟩
  | interrupted hfaults hdown =>
    obtain ⟨m, hm, hstatus⟩ := hdown
    exact absurd (hup m hm) hstatus
  | moved hfaults hdown =>
    obtain ⟨m, hm, hstatus⟩ := hdown
    exact absurd (hup m hm) hstatus

/-- On a repository of either kind a tick that nobody else disturbs reads once, unless it is already
cancelled, and then puts back the machines that are not up, in one call, unless there is none or it is
cancelled by then. When it gets to its end all machines are up and otherwise as they were, and from
then on no tick puts anything. -/
theorem tick_moves_machines_up (n : Nat) (r : Records) (items : List Machine)
    (h : r.machines.repository.Holds items) (first second : Bool) :
    ∃ items',
      Ticked items r.machines.faults first second (tick n r first second).1
        (tick n r first second).2.calls items' ∧
      Leaves r (tick n r first second).2.calls items' (tick n r first second).2.records ∧
      ((tick n r first second).1 = .finished → items' = items.map (·.withStatus .up) ∧
        ∀ n' first' second',
          let next := tick n' (tick n r first second).2.records first' second'
          (∀ call ∈ next.2.calls, call = .getAll) ∧
            Leaves (tick n r first second).2.records next.2.calls items' next.2.records) := by
  obtain ⟨items', hticked, hleaves⟩ := tick_spec n r items h first second
  refine ⟨items', hticked, hleaves, fun hend => ?_⟩
  have hup := hticked.all_up hend
  refine ⟨hup, fun n' first' second' => ?_⟩
  obtain ⟨items'', hnext, hleaves'⟩ := tick_spec n' _ items' hleaves.holds first' second'
  have hall : ∀ m ∈ items', m.status = .up := by
    intro m hm
    rw [hup] at hm
    obtain ⟨m', -, rfl⟩ := List.mem_map.mp hm
    rfl
  obtain ⟨rfl, hreads⟩ := hnext.only_reads hall
  exact ⟨hreads,hleaves'⟩

theorem sole_machine_comes_up :
    let r := Records.inMemory [] [⟨"VM:1",.aws,.down,"USER:1"⟩]
    (tick 0 r false false).2.records.machines.repository.Holds [⟨"VM:1",.aws,.up,"USER:1"⟩] := by
  intro r
  obtain ⟨items', -, hleaves, hend⟩ := tick_moves_machines_up 0 r _ ⟨rfl,by decide⟩ false false
  obtain ⟨rfl, -⟩ := hend rfl
  exact hleaves.holds

end VmFleet.Jobs
