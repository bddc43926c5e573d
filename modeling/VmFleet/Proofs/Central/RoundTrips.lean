import VmFleet.Proofs.Central.Verdicts
import VmFleet.Proofs.Delegation.Completion
import VmFleet.Proofs.Json.Forms

/-!
# Machines that are sent and come back

Whoever asks a worker for a machine gets that machine back, moved up, as long as the provisioner does
not fail: what is sent reads as what was meant, and so does what is replied. Nothing that can be written
is lost on the way.
-/

set_option autoImplicit false

namespace VmFleet.Central

open Delegation Json

/-! ## Looking at a slot -/

section

variable {w : World} {p : Exchange.Pending}

theorem awaitReply_answered (channel : String) (payload : Except String Json) (json : Json)
    (hslot : w.exchange.slot p.ticket = .answered (.ok json)) :
    w.awaitReply channel payload p =
      .answer (.ok json) { w with exchange := (w.exchange.enter p).finish p } := by
  have hentered : (w.exchange.enter p).slot p.ticket = .answered (.ok json) := hslot
  unfold World.awaitReply Exchange.await
  simp only [hentered]

/-- As long as nothing is in its slot, a sender waits or its time is up. -/
theorem awaitReply_pending (channel : String) (payload : Except String Json)
    (hslot : w.exchange.slot p.ticket = .pending) :
    (∃ wait v, w.awaitReply channel payload p = .wait wait v) ∨
      ∃ v, w.awaitReply channel payload p =
        .answer (.error (.timeout p.channel w.timeoutMillis)) v := by
  have hentered : (w.exchange.enter p).slot p.ticket = .pending := hslot
  unfold World.awaitReply Exchange.await
  simp only [hentered]
  split
  · rename_i hover
    split at hover
    · cases hover
    · split at hover
      · cases hover
        exact Or.inr ⟨_,rfl⟩
      · cases hover
  · exact Or.inl ⟨_,_,rfl⟩
  · exact Or.inl ⟨_,_,rfl⟩

end

/-- Somebody has asked for this machine and looks after the reply under this ticket. -/
structure AsksFor (m : Machine) (ticket : Nat) (t : Thread (Except TransportError Machine)) : Prop where
  rest : t.rest = request resourceCreate (.ok m.encode) Machine.decode
  wait : ∃ p, t.wait = .reply p ∧ p.channel = resourceCreate ∧ p.ticket = ticket

section

variable {m : Machine} {ticket : Nat} {t : Thread (Except TransportError Machine)} {w : World}

/-- Whoever gets a reply is over with what it reads. -/
theorem AsksFor.look_answer (h : AsksFor m ticket t) (reply : Except TransportError Json) (x : World)
    (hreact : w.react false (.delegate resourceCreate (.ok m.encode)) t.wait = .answer reply x) :
    ∃ v, t.look w = (.over (readReply resourceCreate Machine.decode reply), v) := by
  have hrest : t.rest = counting resourceCreate m.encode Machine.decode .done := h.rest
  unfold Thread.look
  rw [hrest, counting, requesting, proceed, hreact]
  exact ⟨_,rfl⟩

theorem AsksFor.look_wait (h : AsksFor m ticket t) (wait : Wait) (x : World)
    (hreact : w.react false (.delegate resourceCreate (.ok m.encode)) t.wait = .wait wait x) :
    ∃ t', t.look w = (.wait t', x) := by
  have hrest : t.rest = counting resourceCreate m.encode Machine.decode .done := h.rest
  unfold Thread.look
  rw [hrest, counting, requesting, proceed, hreact]
  exact ⟨_,rfl⟩

theorem slot_of_getElem {x : Exchange} {slot : Slot} (h : x.slots[ticket]? = some slot) :
    x.slot ticket = slot := by
  rw [Exchange.slot, List.getD_eq_getElem?_getD, h, Option.getD_some]

/-- What is in the slot is read as the machine that was asked for, moved up. -/
theorem AsksFor.look_answered (h : AsksFor m ticket t)
    (hslot : w.exchange.slots[ticket]? = some (.answered (.ok (m.withStatus .up).encode))) :
    ∃ v, t.look w = (.over (.ok (m.withStatus .up)), v) := by
  obtain ⟨p, hwait, -, rfl⟩ := h.wait
  have hreact := awaitReply_answered resourceCreate (.ok m.encode) _ (slot_of_getElem hslot)
  obtain ⟨v, hlook⟩ := h.look_answer (w := w) _ _ (by rw [hwait]; exact hreact)
  rw [readReply, Machine.decode_encode] at hlook
  exact ⟨v,hlook⟩

/-- While nothing is in the slot there is no other error than that the time is up. -/
theorem AsksFor.look_pending (h : AsksFor m ticket t)
    (hslot : w.exchange.slots[ticket]? = some .pending) (r : Except TransportError Machine) (v : World)
    (hlook : t.look w = (.over r, v)) : r = .error (.timeout resourceCreate w.timeoutMillis) := by
  obtain ⟨p, hwait, hchannel, rfl⟩ := h.wait
  rcases awaitReply_pending resourceCreate (.ok m.encode) (slot_of_getElem hslot) with
    ⟨wait, x, hreact⟩ | ⟨x, hreact⟩
  · obtain ⟨t', hwaits⟩ := h.look_wait (w := w) wait x (by rw [hwait]; exact hreact)
    rw [hwaits] at hlook
    cases hlook
  · obtain ⟨v', hover⟩ := h.look_answer (w := w) _ x (by rw [hwait]; exact hreact)
    rw [hover, hchannel] at hlook
    cases hlook
    rfl

end

/-! ## The round trip -/

section

variable {poolSize : Nat} {σ : Nat → Depot} {k n : Nat} {e : Errand} {m : Machine}

/-- The only reply to an errand for a machine whose provisioning does not fail is the machine, moved up. -/
theorem course_of_machine {events : List Event} {reply : Delegation.Reply}
    (h : Course m.encode events reply) (hsucceeds : ∀ text, Event.returned (.error text) ∉ events) :
    reply = .ok (m.withStatus .up).encode := by
  cases h with
  | refused problem hdecode =>
    rw [Machine.decode_encode] at hdecode
    cases hdecode
  | failed m' text hdecode => exact absurd (by simp) (hsucceeds text)
  | provided m' hdecode =>
    rw [Machine.decode_encode] at hdecode
    cases hdecode
    rfl

/-- Whoever looks after such an errand waits, gives up, or is over with the machine, moved up; and if
nothing is left standing for ever, this is so whenever they look from some time on. -/
structure ComesBack (m : Machine) (ticket start : Nat) (poolSize : Nat) (σ : Nat → Depot) : Prop where
  exact : ∀ k, start ≤ k → ∀ t w r v, AsksFor m ticket t → w.exchange = (σ k).exchange →
    t.look w = (.over r, v) →
      r = .ok (m.withStatus .up) ∨ r = .error (.timeout resourceCreate w.timeoutMillis)
  ends : 1 ≤ poolSize → Depot.Fair σ → ∃ j, start ≤ j ∧ ∀ k, j ≤ k → ∀ t w, AsksFor m ticket t →
    w.exchange = (σ k).exchange → ∃ v, t.look w = (.over (.ok (m.withStatus .up)), v)

theorem machine_comes_back (h : Depot.Run poolSize σ) (he : (σ k).worker.errands[n]? = some e)
    (hsent : e.request.envelope = ⟨resourceCreate, m.encode⟩)
    (hsucceeds : ∀ j text, Event.returned (.error text) ∉ (σ j).history n) :
    ComesBack m e.request.ticket k poolSize σ := by
  obtain ⟨-, hstandings, hends⟩ := Depot.requests_are_answered_once h
  constructor
  · intro j hj t w r v hasks hworld hlook
    obtain ⟨s, he', -⟩ := (Depot.run_onward h hj).errands n e he
    obtain ⟨hstanding, hpending, -⟩ := hstandings j n _ he'
    by_cases hover : s = .over
    · left
      subst hover
      obtain ⟨reply, hcourse, hslot⟩ := hstanding.of_over
      rw [hsent] at hcourse
      rw [course_of_machine hcourse (hsucceeds j), ← hworld] at hslot
      obtain ⟨v', hover⟩ := hasks.look_answered hslot
      rw [hover] at hlook
      cases hlook
      rfl
    · right
      exact hasks.look_pending (hworld ▸ hpending hover) r v hlook
  · intro hsize hfair
    obtain ⟨j, events, reply, hj, hcourse, hsettled⟩ := hends hsize hfair k n e he
    refine ⟨j, hj, fun i hi t w hasks hworld => ?_⟩
    obtain ⟨rfl, hslot⟩ := hsettled i hi
    rw [hsent] at hcourse
    rw [course_of_machine hcourse (hsucceeds i), ← hworld] at hslot
    exact hasks.look_answered hslot

end

/-- A machine that is asked for comes back moved up and otherwise as it was; every record and message
reads as it was written; and just those values read as a machine that are written in one of its forms. -/
theorem delegation_loses_nothing :
    (∀ (poolSize : Nat) (σ : Nat → Depot) (k n : Nat) (e : Errand) (m : Machine),
      Depot.Run poolSize σ → (σ k).worker.errands[n]? = some e →
      e.request.envelope = ⟨resourceCreate, m.encode⟩ →
      (∀ j text, Event.returned (.error text) ∉ (σ j).history n) →
        ComesBack m e.request.ticket k poolSize σ) ∧
    (∀ m : Machine, Machine.decode m.encode = .ok m) ∧
    (∀ a : Account, Account.decode a.encode = .ok a) ∧
    (∀ e : Envelope, Envelope.decode e.encode = .ok e) ∧
    (∀ f : Failure, f.code < 65536 → Failure.decode f.encode = .ok f) ∧
    ∀ v : Json, (∀ ms, v = .obj ms → (ms.map Prod.fst).Nodup) →
      ∀ m, Machine.decode v = .ok m ↔ Machine.Written m v :=
  ⟨fun _ _ _ _ _ _ h he hsent hsucceeds => machine_comes_back h he hsent hsucceeds,
    Machine.decode_encode, Account.decode_encode, Envelope.decode_encode, Failure.decode_encode,
    fun v h m => Machine.decode_eq_ok_iff v h m⟩

theorem lone_succeeds (m : Machine) (k : Nat) (text : String) :
    Event.returned (.error text) ∉ (Depot.lone m k).history 0 := by
  have hnone : Event.returned (.error text) ∉ ([] : List Event) := List.not_mem_nil
  match k with
  | 0 => exact hnone
  | 1 => exact hnone
  | 2 => exact hnone
  | 3 => exact hnone
  | 4 =>
    change _ ∉ [Event.handed m]
    simp
  | _ + 5 =>
    change _ ∉ [Event.handed m, .returned (.ok ()), .answered _]
    simp

/-- The sender of the request that the only worker has taken, and a machine that is written out as an
array. -/
theorem lone_machine_comes_back :
    let m : Machine := ⟨"VM:1",.aws,.initializing,"USER:1"⟩
    ComesBack m 0 2 1 (Depot.lone m) ∧
      Failure.decode (Failure.encode ⟨400,"bad"⟩) = .ok ⟨400,"bad"⟩ ∧
      Machine.decode (.arr [.str "VM:1", .str "AWS", .obj [("UP", .null)], .str "USER:1"]) =
        .ok (m.withStatus .up) := by
  intro m
  obtain ⟨hcomes, -, -, -, hfailure, hforms⟩ := delegation_loses_nothing
  have hform := (hforms (.arr [.str "VM:1", .str "AWS", .obj [("UP", .null)], .str "USER:1"])
    (fun ms h => nomatch h) (m.withStatus .up)).mpr (.array _ _ (Or.inl rfl) (Or.inr rfl))
  exact ⟨hcomes 1 _ 2 0 _ m (Depot.lone_run m) rfl rfl (lone_succeeds m),hfailure _ (by decide),hform⟩

end VmFleet.Central
