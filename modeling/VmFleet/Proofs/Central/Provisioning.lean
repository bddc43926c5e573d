import VmFleet.Central.Control
import VmFleet.Proofs.Central.Requests
import VmFleet.Proofs.Tasks.Reached
import VmFleet.Proofs.Tasks.Snapshots

/-!
# Provisioning and whoever serves it

A task that creates a machine is over at once, with the machine that it has stored. Provisioning then
sends one request and waits for what comes of it. Whoever serves may reply with anything at any time,
let go of the request, go away or never look at it: at most one machine is put, exactly when a reply in
time is the machine that was asked for, and it is the machine of the reply.
-/

set_option autoImplicit false

namespace VmFleet.Central

open Delegation Jobs Config Tasks Store Security

/-! ## The task that creates the machine -/

/-- An insertion that asks for uniqueness never returns a machine that was there before. -/
theorem eq_of_added (machines : Metered Machine) (m x : Machine)
    (h : (machines.run (.add m true)).1 = .ok x) : x = m := by
  obtain ⟨repository, reads, writes, faults⟩ := machines
  cases faults with
  | cons reason faults => cases h
  | nil =>
    cases repository with
    | memory items =>
      change (Memory.add items m true).1 = .ok x at h
      unfold Memory.add at h
      split at h <;> cases h
      rfl
    | table sheet =>
      change (Table.add sheet m true).1 = .ok x at h
      unfold Table.add at h
      split at h
      · unfold Table.put at h
        split at h <;> cases h
        rfl
      · split at h <;> cases h

/-- What the task does once the machine is stored, or is not. -/
def announcing : Except StoreError Machine → Program (Except TaskError Machine)
  | .ok stored => .perform (.provision stored) fun _ => .done (.ok stored)
  | .error e => .done (.error (.ofStore e))

/-- What is left of the task once its principal is known to be allowed and to be there. -/
def adding (p : Principal) (provider : Provider) : Program (Except TaskError Machine) :=
  .perform (.draw idBytes) fun bytes =>
    .perform (.machines (.add ⟨"VM:" ++ Text.Base64.encode .addressSafe bytes, provider,
      .initializing, p.id⟩ true)) announcing

theorem createVm_run (p : Principal) (provider : Provider)
    (h : isAllowed p .createVm .noTarget = true) :
    (createVm p provider).run =
      match p.kind with
      | .account => .perform (.accounts (.get p.id)) fun
        | .ok _ => adding p provider
        | .error e => .done (.error (.ofStore e))
      | .system _ => adding p provider := by
  rw [createVm, Attempt.authorize_allowed _ _ _ _ h, checkOwner]
  have hadding : Attempt.run (do
      let id ← freshId "VM:"
      let stored ← Attempt.machines (.add ⟨id, provider, .initializing, p.id⟩ true)
      Attempt.ask (.provision stored)
      return stored) = adding p provider := by
    refine congrArg (Program.perform _) (funext fun bytes => ?_)
    refine congrArg (Program.perform _) (funext fun answer => ?_)
    cases answer <;> rfl
  cases p.kind with
  | system identity => exact hadding
  | account =>
    refine congrArg (Program.perform _) (funext fun answer => ?_)
    cases answer with
    | ok a => exact hadding
    | error e => rfl

/-- How a task that creates a machine ends, and what it leaves: an error, or the machine that it has
stored with provisioning of it about to begin. -/
inductive Created (p : Principal) (provider : Provider) (machines : Metered Machine)
    (ready : List Activity) : Except TaskError Machine → World → Prop
  | refused (e : TaskError) (w : World) (hready : w.ready = ready) :
      Created p provider machines ready (.error e) w
  | stored (m : Machine) (w : World) (hprovider : m.provider = provider)
      (hstatus : m.status = .initializing) (howner : m.ownerId = p.id)
      (hstored : machines.run (.add m true) = (.ok m, w.records.machines))
      (hready : w.ready = ready ++ [.provisioning (.of (provision m).run)]) :
      Created p provider machines ready (.ok m) w

theorem adding_ends (p : Principal) (provider : Provider) (w : World) :
    ∃ r w', proceed false (adding p provider) .nothing w = (.over r, w') ∧
      w'.exchange = w.exchange ∧ Created p provider w.records.machines w.ready r w' := by
  let m : Machine := ⟨"VM:" ++ Text.Base64.encode .addressSafe (w.records.draw idBytes).1, provider,
    .initializing, p.id⟩
  have hproceed : proceed false (adding p provider) .nothing w =
      proceed false (announcing (w.records.machines.run (.add m true)).1) .nothing
        { w with records := ((w.records.draw idBytes).2.onMachines (.add m true)).2 } := rfl
  rw [hproceed]
  cases hanswer : (w.records.machines.run (.add m true)).1 with
  | error e => exact ⟨_,_,rfl,rfl,.refused _ _ rfl⟩
  | ok stored =>
    have hsame : stored = m := eq_of_added w.records.machines m stored hanswer
    subst hsame
    exact ⟨_,_,rfl,rfl,.stored m _ rfl rfl rfl (Prod.ext hanswer rfl) rfl⟩

theorem createVm_ends (p : Principal) (provider : Provider) (w : World) :
    ∃ r w', proceed false (createVm p provider).run .nothing w = (.over r, w') ∧
      w'.exchange = w.exchange ∧ Created p provider w.records.machines w.ready r w' := by
  cases h : isAllowed p .createVm .noTarget with
  | false =>
    rw [createVm, Attempt.authorize_denied _ _ _ _ h]
    exact ⟨_,w,rfl,rfl,.refused _ w rfl⟩
  | true =>
    rw [createVm_run p provider h]
    cases p.kind with
    | system identity => exact adding_ends p provider w
    | account =>
      change ∃ r w', proceed false _ .nothing { w with records := (w.records.onAccounts _).2 } = _ ∧ _
      cases (w.records.onAccounts (.get p.id)).1 with
      | ok a => exact adding_ends p provider _
      | error e => exact ⟨_,_,rfl,rfl,.refused _ _ rfl⟩

/-! ## What becomes of the reply -/

variable {m : Machine}

/-- What is done once the reply is there. -/
def concluding (m : Machine) (reply : Except TransportError Json) :
    Program (Except TaskError Machine) :=
  .perform (.record (.request resourceCreate
    (Delegation.outcomeLabel (readReply resourceCreate Machine.decode reply)))) fun _ =>
      keepReply m (readReply resourceCreate Machine.decode reply)

theorem provision_requests (m : Machine) :
    (provision m).run = requesting resourceCreate m.encode (concluding m) := provision_run m

/-- The reply reads as a machine with the id and the owner of the one that was asked for. -/
def Fits (m : Machine) (reply : Json) (x : Machine) : Prop :=
  Machine.decode reply = .ok x ∧ x.id = m.id ∧ x.ownerId = m.ownerId

/-- The error tells what has come instead of a machine that fits. -/
def Explains (m : Machine) : Except TransportError Json → TransportError → Prop
  | .error failure, e => e = failure
  | .ok reply, e =>
    (∃ problem, Machine.decode reply = .error problem ∧
      e = .malformedReply resourceCreate problem.message) ∨
    ∃ x, Machine.decode reply = .ok x ∧ e = mismatch x m

theorem describes_iff (x m : Machine) :
    describes x m = true ↔ x.id = m.id ∧ x.ownerId = m.ownerId := decide_eq_true_iff

theorem keepReply_fits (reply : Json) (x : Machine) (h : Fits m reply x) :
    keepReply m (readReply resourceCreate Machine.decode (.ok reply)) =
      .perform (.machines (.put x)) fun answer => .done (answer.mapError .ofStore) := by
  obtain ⟨hdecode, hsame⟩ := h
  rw [readReply, hdecode, Except.mapError, keepReply, if_pos ((describes_iff x m).mpr hsame)]
  rfl

theorem keepReply_unfit (reply : Except TransportError Json)
    (h : ∀ json x, reply = .ok json → ¬ Fits m json x) :
    ∃ e, keepReply m (readReply resourceCreate Machine.decode reply) =
      .done (.error (.transport e)) ∧ Explains m reply e := by
  cases reply with
  | error e => exact ⟨e,rfl,rfl⟩
  | ok json =>
    rw [readReply]
    cases hdecode : Machine.decode json with
    | error problem => exact ⟨_,rfl,Or.inl ⟨problem,hdecode,rfl⟩⟩
    | ok x =>
      have hother : ¬ describes x m = true := fun hsame =>
        h json x rfl ⟨hdecode,(describes_iff x m).mp hsame⟩
      rw [Except.mapError, keepReply, if_neg hother]
      exact ⟨_,rfl,Or.inr ⟨x,hdecode,rfl⟩⟩

/-- Whoever keeps these machines either stores exactly this one when it is put, or fails and stores
nothing. -/
def PutsExactly (machines : Metered Machine) (x : Machine) : Prop :=
  ∀ items, machines.repository.Holds items →
    (machines.run (.put x)).1 = .ok x ∧
        (machines.run (.put x)).2.repository.Holds (Memory.place x items) ∨
      (∃ reason, (machines.run (.put x)).1 = .error (.backend reason)) ∧
        (machines.run (.put x)).2.repository.Holds items

theorem puts_exactly (machines : Metered Machine) (x : Machine) : PutsExactly machines x := by
  intro items hitems
  have hput : Memory.run items (.put x) = (.ok x, Memory.place x items) :=
    if_neg (Bool.eq_false_iff.mp (Memory.conflicts_of_key_eq_id (fun _ => rfl) items x))
  have hrun := machines.run_holds items hitems (.put x) trivial
  rw [hput] at hrun
  exact hrun.symm

/-- How provisioning ends once it has its reply, what it asks for then, and what it leaves. -/
inductive Concluded (m : Machine) (reply : Except TransportError Json) (machines : Metered Machine) :
    Except TaskError Machine → List Effect → Metered Machine → Prop
  | kept (json : Json) (x : Machine) (event : Metrics.Event) (hreply : reply = .ok json)
      (hfits : Fits m json x) (hputs : PutsExactly machines x) :
      Concluded m reply machines ((machines.run (.put x)).1.mapError .ofStore)
        [.record event, .machines (.put x)] (machines.run (.put x)).2
  | failed (e : TransportError) (event : Metrics.Event)
      (hunfit : ∀ json x, reply = .ok json → ¬ Fits m json x) (hexplains : Explains m reply e) :
      Concluded m reply machines (.error (.transport e)) [.record event] machines

theorem concluding_concludes (m : Machine) (reply : Except TransportError Json) (v : World) :
    ∃ r v', proceed false (concluding m reply) .nothing v = (.over r, v') ∧
      v'.exchange = v.exchange ∧
      Concluded m reply v.records.machines r (asked false (concluding m reply) .nothing v)
        v'.records.machines := by
  by_cases hfits : ∃ json x, reply = .ok json ∧ Fits m json x
  · obtain ⟨json, x, rfl, hfits⟩ := hfits
    unfold concluding
    rw [keepReply_fits json x hfits]
    exact ⟨_,_,rfl,rfl,.kept json x _ rfl hfits (puts_exactly _ x)⟩
  · have hunfit : ∀ json x, reply = .ok json → ¬ Fits m json x :=
      fun json x hreply h => hfits ⟨json,x,hreply,h⟩
    obtain ⟨e, hkeep, hexplains⟩ := keepReply_unfit reply hunfit
    unfold concluding
    rw [hkeep]
    exact ⟨_,_,rfl,rfl,.failed e _ hunfit hexplains⟩

/-! ## Main statement -/

/-- A task that creates a machine is over at once, with an error or with the machine that it has
stored as initializing. Provisioning sends one request at most, whoever serves, and asks for nothing
else as long as there is no reply, which is until its time is up at the longest. It can go on as soon
as there is one: it puts the machine of a reply that fits, and leaves the machines alone otherwise. -/
theorem provisioning_follows_reply :
    (∀ (p : Principal) (provider : Provider) (w : World),
      ∃ r w', proceed false (createVm p provider).run .nothing w = (.over r, w') ∧
        w'.exchange = w.exchange ∧ Created p provider w.records.machines w.ready r w') ∧
    ∀ (m : Machine) (w : World), Exchange.Deals .empty w.exchange → HasRoom resourceCreate w →
      ∀ (effects : List Effect) (sent : Nat) (t : Thread (Except TaskError Machine)) (u : World),
        Thread.Looks (.of (provision m).run) w effects sent t u →
          effects = [] ∧ sent + t.sends u ≤ 1 ∧ u.now ≤ w.now + w.timeoutMillis ∧
          (replyBy resourceCreate w u = none → ∃ t' v, t.look u = (.wait t', v) ∧
            t'.due = some (w.now + w.timeoutMillis) ∧ t.asks u = [] ∧ v.records = u.records) ∧
          ∀ reply, replyBy resourceCreate w u = some reply → t.canProceed u = true ∧
            ∃ r v rest, t.look u = (.over r, v) ∧
              t.asks u = .delegate resourceCreate (.ok m.encode) :: rest ∧
              Concluded m reply u.records.machines r rest v.records.machines := by
  refine ⟨createVm_ends, ?_⟩
  intro m w hx hroom effects sent t u hlooks
  have hover (reply : Except TransportError Json) (v : World) :
      ∃ r v', proceed false (concluding m reply) .nothing v = (.over r, v') := by
    obtain ⟨r, v', hend, -⟩ := concluding_concludes m reply v
    exact ⟨r,v',hend⟩
  rw [provision_requests] at hlooks
  obtain ⟨rfl, hstage⟩ := looks_stage hx hroom hover effects hlooks
  rcases hstage.look hx hroom with
    ⟨number, v, hreply, -, hlook, hasks, hrecords, hsent⟩ |
    ⟨reply, v, hreply, hlook, hasks, hrecords, hsent⟩
  · have hsends : sent + t.sends u ≤ 1 := by rw [Thread.sends, hlook]; exact Nat.le_of_eq hsent
    refine ⟨rfl, hsends, hstage.now, fun _ => ⟨_, v, hlook, rfl, hasks, hrecords⟩, ?_⟩
    intro reply h
    rw [hreply] at h
    cases h
  · obtain ⟨r, v', hend, hexchange, hconcluded⟩ := concluding_concludes m reply v
    have hsends : sent + t.sends u ≤ 1 := by rw [Thread.sends, hlook, hend, hexchange]; exact hsent
    refine ⟨rfl, hsends, hstage.now, ?_, ?_⟩
    · intro h
      rw [hreply] at h
      cases h
    · intro reply' h
      cases hreply.symm.trans h
      rw [hrecords] at hconcluded
      exact ⟨hstage.canProceed reply hreply,r,v',_,hlook.trans hend,hasks,hconcluded⟩

/-- A machine is stored, and somebody serves requests for machines. -/
def served (m : Machine) : World :=
  { World.new (.memory []) (.memory [m]) 1000 ⟨fun _ => false, fun _ => .error .missing⟩ with
    exchange := (Exchange.empty.register resourceCreate).2 }

/-- The request was taken and answered with the machine, moved up, before its time was over. -/
def answered (m : Machine) : World :=
  let asked := ((Thread.of (provision m).run).look (served m)).2
  { asked with
    now := 10
    exchange := (asked.exchange.take 0).2.reply 0 (.ok (m.withStatus .up).encode) }

theorem prompt_reply_is_kept :
    let m : Machine := ⟨"VM:1", .aws, .initializing, "USER:1"⟩
    ∃ t v, ((Thread.of (provision m).run).look (served m)).1 = .wait t ∧
      t.look (answered m) = (.over (.ok (m.withStatus .up)), v) ∧
      v.records.machines.repository = .memory [m.withStatus .up] := by
  intro m
  have hdeals : Exchange.Deals .empty (served m).exchange := .single (.register .empty _)
  have hroom : HasRoom resourceCreate (served m) := by
    intro number hroute _
    cases hroute
    decide
  have hmeanwhile : Meanwhile ⟨(provision m).run, .reply (sentFrom resourceCreate (served m) 0)⟩
      ((Thread.of (provision m).run).look (served m)).2 (answered m) := by
    refine ⟨?_, rfl, Nat.zero_le _, ?_⟩
    · exact .head (.take _ 0) (.single (.reply _ 0 (.ok (m.withStatus .up).encode)))
    · intro d hd
      cases hd
      decide
  have hlooks : Thread.Looks (.of (provision m).run) (served m) [] 1
      ⟨(provision m).run, .reply (sentFrom resourceCreate (served m) 0)⟩ (answered m) :=
    .again [] 0 _ _ _ _ _ .start rfl hmeanwhile
  obtain ⟨-, -, -, -, hreply⟩ :=
    provisioning_follows_reply.2 m (served m) hdeals hroom [] 1 _ _ hlooks
  obtain ⟨-, r, v, rest, hlook, -, hconcluded⟩ := hreply (.ok (m.withStatus .up).encode) rfl
  have hdecode : Machine.decode (m.withStatus .up).encode = .ok (m.withStatus .up) :=
    Machine.decode_encode _
  generalize hafter : v.records.machines = machines at hconcluded
  cases hconcluded with
  | failed e event hunfit hexplains => exact absurd ⟨hdecode,rfl,rfl⟩ (hunfit _ _ rfl)
  | kept json x event hjson hfits hputs =>
    cases hjson
    cases hdecode.symm.trans hfits.1
    exact ⟨_,v,rfl,hlook,by rw [hafter]; rfl⟩

end VmFleet.Central
