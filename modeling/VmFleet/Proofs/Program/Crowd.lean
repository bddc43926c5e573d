import Mathlib.Logic.Relation
import VmFleet.Central.Step
import VmFleet.Proofs.Delegation.Deals
import VmFleet.Proofs.Program.Terms

/-!
# Programs in a crowd

A crowd is the records together with any number of programs at work on them. In one step another
program starts, or some program asks for one effect and is answered; nothing tells whose turn it is.
Replies to delegated work, the bytes drawn and the passing of time are up to the surroundings. What
the central side does with a program, a crowd can do as well.
-/

set_option autoImplicit false

namespace VmFleet

open Store Tasks

/-- Leaves the result of a program aside. -/
def Program.forget {α : Type} (p : Program α) : Program Unit := p.bind fun _ => .done ()

/-- Provisioning as it goes on in the background. -/
def provisioning (m : Machine) : Program Unit := (provision m).run.forget

/-- How an effect may be answered, what becomes of the records, and which machines are to be
provisioned from now on. -/
inductive Reply (r : Records) : (e : Effect) → e.Answer → Records → List Machine → Prop
  | accounts (call : Call Account) :
      Reply r (.accounts call) (r.onAccounts call).1 (r.onAccounts call).2 []
  | machines (call : Call Machine) :
      Reply r (.machines call) (r.onMachines call).1 (r.onMachines call).2 []
  | draw (count : Nat) (bytes : List UInt8) (drawn : Nat) :
      Reply r (.draw count) bytes { r with drawn } []
  | record (event : Metrics.Event) : Reply r (.record event) () (r.record event) []
  | provision (m : Machine) : Reply r (.provision m) () r [m]
  | delegate (channel : String) (payload : Except String Json)
      (reply : Except Delegation.TransportError Json) :
      Reply r (.delegate channel payload) reply r []
  | wait (millis : Nat) : Reply r (.wait millis) () r []
  | isCancelled (answer : Bool) : Reply r .isCancelled answer r []

structure Crowd where
  records : Records
  running : List (Program Unit)

namespace Crowd

/-- One step, when the programs that may start are these. -/
inductive Step (may : Program Unit → Prop) : Crowd → Crowd → Prop
  | start (c : Crowd) (p : Program Unit) (h : may p) : Step may c ⟨c.records,p :: c.running⟩
  | go (before after : List (Program Unit)) (e : Effect) (next : e.Answer → Program Unit)
      (answer : e.Answer) (r r' : Records) (started : List Machine)
      (h : Reply r e answer r' started) :
      Step may ⟨r,before ++ .perform e next :: after⟩
        ⟨r',before ++ next answer :: (after ++ started.map provisioning)⟩

def Run (may : Program Unit → Prop) : Crowd → Crowd → Prop := Relation.ReflTransGen (Step may)

end Crowd

/-! ## Terms in a crowd -/

theorem Program.forget_within {α : Type} (k : Terms) (p : Program α) (h : p.Within k) :
    p.forget.Within k := within_bind k p _ h fun _ => trivial

/-- The terms can be relied on while the records are as wanted: what they allow leaves the records
as wanted, is answered within the terms, and starts nothing that breaks them. -/
def Terms.Upheld (k : Terms) (wanted : Records → Prop) : Prop :=
  ∀ (r : Records) (e : Effect) (answer : e.Answer) (r' : Records) (started : List Machine),
    wanted r → k.allows e → Reply r e answer r' started →
      wanted r' ∧ k.grants e answer ∧ ∀ m ∈ started, (provisioning m).Within k

namespace Crowd

variable {k : Terms} {wanted : Records → Prop} {may : Program Unit → Prop}

/-- The records are as wanted and all programs keep the terms. -/
structure Orderly (k : Terms) (wanted : Records → Prop) (c : Crowd) : Prop where
  records : wanted c.records
  running : ∀ p ∈ c.running, p.Within k

theorem step_orderly (hk : k.Upheld wanted) (hmay : ∀ p, may p → p.Within k) (c c' : Crowd)
    (hs : Step may c c') (hc : c.Orderly k wanted) : c'.Orderly k wanted := by
  cases hs with
  | start _ p hp =>
    refine ⟨hc.records, ?_⟩
    intro q hq
    rcases List.mem_cons.mp hq with rfl | hq
    · exact hmay _ hp
    · exact hc.running q hq
  | go before after e next answer r r' started hr =>
    have hkeeps : Program.Within k (.perform e next) := hc.running _ (by simp)
    obtain ⟨hw, hg, hstarted⟩ := hk r e answer r' started hc.records hkeeps.1 hr
    refine ⟨hw, ?_⟩
    intro q hq
    simp only [List.mem_append, List.mem_cons, List.mem_map] at hq
    rcases hq with hq | rfl | hq | ⟨m, hm, rfl⟩
    · exact hc.running q (by simp [hq])
    · exact hkeeps.2 answer hg
    · exact hc.running q (by simp [hq])
    · exact hstarted m hm

theorem run_orderly (hk : k.Upheld wanted) (hmay : ∀ p, may p → p.Within k) (c c' : Crowd)
    (hr : Run may c c') (hc : c.Orderly k wanted) : c'.Orderly k wanted := by
  induction hr with
  | refl => exact hc
  | tail _ hs ih => exact step_orderly hk hmay _ _ hs ih

end Crowd

/-! ## The central side as a crowd -/

namespace Central

def Reaction.world {e : Effect} : Reaction e → World
  | .answer _ w => w
  | .wait _ w => w

/-- Whoever looks after a request changes nothing but the exchange, and that as anybody may. -/
theorem awaitReply_world (w : World) (channel : String) (payload : Except String Json)
    (p : Delegation.Exchange.Pending) :
    ∃ x, w.exchange.Deals x ∧ (w.awaitReply channel payload p).world = { w with exchange := x } := by
  unfold World.awaitReply
  dsimp only
  split
  · exact ⟨_,.head (.enter w.exchange p) (.single (.finish _ p)),rfl⟩
  · exact ⟨_,.single (.enter w.exchange p),rfl⟩
  · exact ⟨_,.single (.enter w.exchange p),rfl⟩

theorem sendRequest_world (w : World) (channel : String) (payload : Except String Json) :
    ∃ x, w.exchange.Deals x ∧ (w.sendRequest channel payload).world = { w with exchange := x } := by
  unfold World.sendRequest
  split
  · exact ⟨w.exchange,.refl,rfl⟩
  · rename_i v
    split
    · exact ⟨w.exchange,.refl,rfl⟩
    · rename_i p x hs
      have hsent := Delegation.Exchange.Deal.send w.exchange channel v
      rw [hs] at hsent
      obtain ⟨y, hdeals, hw⟩ := awaitReply_world { w with exchange := x } channel (.ok v) p
      exact ⟨y,.head hsent hdeals,hw⟩

theorem delegate_world (w : World) (isCancelled : Bool) (channel : String)
    (payload : Except String Json) (wait : Wait) :
    ∃ x, w.exchange.Deals x ∧
      (w.react isCancelled (.delegate channel payload) wait).world = { w with exchange := x } := by
  cases wait with
  | reply p => exact awaitReply_world w channel payload p
  | _ => exact sendRequest_world w channel payload

theorem wait_world (w : World) (isCancelled : Bool) (millis : Nat) (wait : Wait) :
    (w.react isCancelled (.wait millis) wait).world = w := by
  cases wait with
  | due time =>
    simp only [World.react]
    split <;> rfl
  | _ =>
    simp only [World.react]
    split <;> rfl

/-- What holds of the worlds before and after every effect holds of those before and after a program
has gone on. -/
theorem proceed_related {α : Type} (R : World → World → Prop) (hrefl : ∀ w, R w w)
    (htrans : ∀ u v w, R u v → R v w → R u w) (isCancelled : Bool)
    (hreact : ∀ w e wait, R w (w.react isCancelled e wait).world) (p : Program α) (wait : Wait)
    (w : World) : R w (proceed isCancelled p wait w).2 := by
  induction p generalizing wait w with
  | done a => exact hrefl w
  | perform e next ih =>
    have hfirst := hreact w e wait
    unfold proceed
    cases hr : w.react isCancelled e wait with
    | answer answer w' =>
      rw [hr] at hfirst
      exact htrans _ _ _ hfirst (ih answer .nothing w')
    | wait wait' w' =>
      rw [hr] at hfirst
      exact hfirst

def provisionings (machines : List Machine) : List Activity :=
  machines.map fun m => .provisioning (.of (provision m).run)

/-- An answer that the central side gives is one that surroundings may give. -/
theorem react_answer (w : World) (isCancelled : Bool) (e : Effect) (wait : Wait)
    (answer : e.Answer) (w' : World) (h : w.react isCancelled e wait = .answer answer w') :
    ∃ started, Reply w.records e answer w'.records started ∧
      w'.ready = w.ready ++ provisionings started := by
  cases e with
  | accounts call =>
    cases h
    exact ⟨[],.accounts call,(List.append_nil _).symm⟩
  | machines call =>
    cases h
    exact ⟨[],.machines call,(List.append_nil _).symm⟩
  | draw count =>
    cases h
    exact ⟨[],.draw count _ _,(List.append_nil _).symm⟩
  | record event =>
    cases h
    exact ⟨[],.record event,(List.append_nil _).symm⟩
  | provision m =>
    cases h
    exact ⟨[m],.provision m,rfl⟩
  | delegate channel payload =>
    obtain ⟨x, -, hw⟩ := delegate_world w isCancelled channel payload wait
    rw [h] at hw
    change w' = { w with exchange := x } at hw
    rw [hw]
    exact ⟨[],.delegate channel payload answer,(List.append_nil _).symm⟩
  | wait millis =>
    have hw := wait_world w isCancelled millis wait
    rw [h] at hw
    change w' = w at hw
    rw [hw]
    exact ⟨[],.wait millis,(List.append_nil _).symm⟩
  | isCancelled =>
    cases h
    exact ⟨[],.isCancelled isCancelled,(List.append_nil _).symm⟩

theorem react_wait (w : World) (isCancelled : Bool) (e : Effect) (wait wait' : Wait) (w' : World)
    (h : w.react isCancelled e wait = .wait wait' w') :
    w'.records = w.records ∧ w'.ready = w.ready := by
  cases e with
  | delegate channel payload =>
    obtain ⟨x, -, hw⟩ := delegate_world w isCancelled channel payload wait
    rw [h] at hw
    change w' = { w with exchange := x } at hw
    rw [hw]
    exact ⟨rfl,rfl⟩
  | wait millis =>
    have hw := wait_world w isCancelled millis wait
    rw [h] at hw
    change w' = w at hw
    rw [hw]
    exact ⟨rfl,rfl⟩
  | _ => cases h

/-- What is left to do of a program, its result aside. -/
def Progress.rest {α : Type} : Progress α → Program Unit
  | .over _ => .done ()
  | .wait t => t.rest.forget

/-- However far the central side gets with a program, a crowd can get as far in any company. -/
theorem proceed_crowd {α : Type} (may : Program Unit → Prop) (isCancelled : Bool) (p : Program α)
    (wait : Wait) (w : World) (before after : List (Program Unit)) :
    ∃ started,
      Crowd.Run may ⟨w.records,before ++ p.forget :: after⟩
        ⟨(proceed isCancelled p wait w).2.records,
          before ++ (proceed isCancelled p wait w).1.rest :: (after ++ started.map provisioning)⟩ ∧
      (proceed isCancelled p wait w).2.ready = w.ready ++ provisionings started := by
  induction p generalizing wait w after with
  | done a =>
    refine ⟨[], ?_, (List.append_nil _).symm⟩
    rw [List.map_nil, List.append_nil]
    exact Relation.ReflTransGen.refl
  | perform e next ih =>
    unfold proceed
    cases hr : w.react isCancelled e wait with
    | wait wait' w' =>
      obtain ⟨hrecords, hready⟩ := react_wait w isCancelled e wait wait' w' hr
      refine ⟨[], ?_, hready.trans (List.append_nil _).symm⟩
      rw [List.map_nil, List.append_nil]
      dsimp only
      rw [hrecords]
      exact Relation.ReflTransGen.refl
    | answer answer w' =>
      -- what is started joins the crowd at its end, out of the way of this program
      obtain ⟨first, hreply, hready⟩ := react_answer w isCancelled e wait answer w' hr
      obtain ⟨started, hrun, hrest⟩ := ih answer .nothing w' (after ++ first.map provisioning)
      refine ⟨first ++ started, ?_, ?_⟩
      · rw [List.map_append, ← List.append_assoc]
        exact Relation.ReflTransGen.head (.go before after e _ answer _ _ first hreply) hrun
      · dsimp only
        rw [hrest, hready, List.append_assoc, provisionings, provisionings, provisionings,
          List.map_append]

theorem proceed_alone {α : Type} (may : Program Unit → Prop) (p : Program α) (h : may p.forget)
    (w : World) :
    ∃ running, Crowd.Run may ⟨w.records,[]⟩
      ⟨(proceed false p .nothing w).2.records,running⟩ := by
  obtain ⟨started, hrun, -⟩ := proceed_crowd may false p .nothing w [] []
  exact ⟨_,Relation.ReflTransGen.head (.start _ _ h) hrun⟩

end Central
end VmFleet
