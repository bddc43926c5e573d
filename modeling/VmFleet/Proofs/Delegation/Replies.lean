import VmFleet.Delegation.Worker

/-!
# What a worker replies

A machine that is sent as a payload is read back as it was. Whatever errands a worker has taken on and
however far they have come, the only value that it replies to a request for a machine is the machine
that was sent, moved up. Its other fields come from the request, not from what is stored by then.
-/

set_option autoImplicit false

namespace VmFleet

theorem Machine.decode_encode (m : Machine) : Machine.decode m.encode = .ok m := by
  obtain ⟨id, provider, status, ownerId⟩ := m
  cases provider <;> cases status <;> rfl

namespace Delegation

/-- A failure, or the machine of the payload, moved up. -/
def Provides (payload : Json) (reply : Reply) : Prop :=
  ∀ v, reply = .ok v → ∃ m, Machine.decode payload = .ok m ∧ v = (m.withStatus .up).encode

theorem provides_error (payload : Json) (f : Failure) : Provides payload (.error f) := by
  intro v h
  cases h

theorem provides_of_encode (m : Machine) (v : Json) (h : Provides m.encode (.ok v)) :
    Machine.decode v = .ok (m.withStatus .up) := by
  obtain ⟨n, hn, rfl⟩ := h v rfl
  rw [Machine.decode_encode] at hn
  cases hn
  exact Machine.decode_encode _

/-- An errand that has been looked at is about the machine of its request. -/
def Errand.Sound (e : Errand) : Prop :=
  match e.stage with
  | .waiting m => Machine.decode e.request.envelope.payload = .ok m
  | .provisioning m _ => Machine.decode e.request.envelope.payload = .ok m
  | _ => True

namespace Worker

def Sound (w : Worker) : Prop := ∀ e ∈ w.errands, e.Sound

variable {w w' : Worker} {x x' : Exchange}

theorem start_sound (x : Exchange) (poolSize latencyMillis : Nat) (fault : Option String) :
    (start x poolSize latencyMillis fault).1.Sound := by
  intro e he
  cases he

theorem setStage_sound (h : w.Sound) (n : Nat) (e : Errand) (stage : Errand.Stage)
    (hn : w.errands[n]? = some e) (hs : ({ e with stage } : Errand).Sound) :
    (w.setStage n stage).Sound := by
  intro f hf
  obtain ⟨k, hk⟩ := List.mem_iff_getElem?.mp hf
  simp only [setStage, List.getElem?_modify, Option.map_eq_map, Option.map_eq_some_iff] at hk
  obtain ⟨g, hg, rfl⟩ := hk
  by_cases heq : n = k
  · subst heq
    cases Option.some.inj (hn.symm.trans hg)
    simpa using hs
  · simpa [heq] using h g (List.mem_of_getElem? hg)

theorem move_sound (h : w.Sound) (hm : w.move x = (.dispatch w', x')) : w'.Sound := by
  unfold move at hm
  split at hm
  · cases hm
  · split at hm
    · cases hm
      intro e he
      rcases List.mem_append.mp he with he | he
      · exact h e he
      · cases List.mem_singleton.mp he
        trivial
    · cases hm
    · split at hm <;> cases hm

theorem reconfigure_sound (h : w.Sound) (change : Config.Change Config.WorkerSettings) :
    (w.reconfigure change).Sound := by
  unfold reconfigure
  split
  · exact h
  · exact h

theorem acquire_sound (h : w.Sound) (n : Nat) : (w.acquire n).Sound := by
  unfold acquire
  split
  · exact h
  · exact h

/-- One step of an errand: either nothing is replied, or what the request asks for. -/
theorem advance_provides (n now : Nat) (h : w.Sound) (ha : w.advance n now x = some (w', x')) :
    w'.Sound ∧ (x' = x ∨ ∃ e ∈ w.errands, ∃ reply, x' = x.reply e.request.ticket reply ∧
      Provides e.request.envelope.payload reply) := by
  unfold advance at ha
  cases hn : w.errands[n]? with
  | none => simp [hn] at ha
  | some e =>
    have he := List.mem_of_getElem? hn
    have hover := setStage_sound h n e .over hn trivial
    have hsound := h e he
    simp only [hn] at ha
    cases hstage : e.stage with
    | taken =>
      simp only [hstage] at ha
      cases hd : Machine.decode e.request.envelope.payload with
      | error problem =>
        simp only [hd] at ha
        cases ha
        exact ⟨hover,Or.inr ⟨e,he,_,rfl,provides_error _ _⟩⟩
      | ok m =>
        simp only [hd] at ha
        cases ha
        exact ⟨acquire_sound (setStage_sound h n e (.waiting m) hn hd) n,Or.inl rfl⟩
    | waiting m =>
      simp only [hstage] at ha
      simp only [Errand.Sound, hstage] at hsound
      by_cases hbusy : w.busy.contains n = true
      · rw [if_pos hbusy] at ha
        cases hfault : w.fault with
        | some text =>
          simp only [hfault] at ha
          cases ha
          exact ⟨hover,Or.inr ⟨e,he,_,rfl,provides_error _ _⟩⟩
        | none =>
          simp only [hfault] at ha
          cases ha
          exact ⟨setStage_sound h n e (.provisioning m _) hn hsound,Or.inl rfl⟩
      · rw [if_neg hbusy] at ha
        cases ha
    | provisioning m due =>
      simp only [hstage] at ha
      simp only [Errand.Sound, hstage] at hsound
      by_cases hdue : due ≤ now
      · rw [if_pos hdue] at ha
        cases ha
        have hprovides : Provides e.request.envelope.payload (.ok (m.withStatus .up).encode) := by
          intro v hv
          cases hv
          exact ⟨m,hsound,rfl⟩
        exact ⟨hover,Or.inr ⟨e,he,_,rfl,hprovides⟩⟩
      · rw [if_neg hdue] at ha
        cases ha
    | _ => simp [hstage] at ha

/-- Workers at any time of their lives, whatever the exchange has come to meanwhile. -/
inductive Serves : Worker → Prop
  | start (x : Exchange) (poolSize latencyMillis : Nat) (fault : Option String) :
      Serves (start x poolSize latencyMillis fault).1
  | move (w w' : Worker) (x x' : Exchange) (h : Serves w) (hm : w.move x = (.dispatch w', x')) :
      Serves w'
  | reconfigure (w : Worker) (change : Config.Change Config.WorkerSettings) (h : Serves w) :
      Serves (w.reconfigure change)
  | stop (w : Worker) (h : Serves w) : Serves { w with isStopping := true }
  | advance (w w' : Worker) (x x' : Exchange) (n now : Nat) (h : Serves w)
      (ha : w.advance n now x = some (w', x')) : Serves w'

theorem serves_sound (h : Serves w) : w.Sound := by
  induction h with
  | start x poolSize latencyMillis fault => exact start_sound x poolSize latencyMillis fault
  | move w w' x x' _ hm ih => exact move_sound ih hm
  | reconfigure w change _ ih => exact reconfigure_sound ih change
  | stop w _ ih => exact ih
  | advance w w' x x' n now _ ha ih => exact (advance_provides n now ih ha).1

/-- So whatever such a worker replies is what the request asked it to provide. -/
theorem serves_provides (n now : Nat) (h : Serves w) (ha : w.advance n now x = some (w', x')) :
    x' = x ∨ ∃ e ∈ w.errands, ∃ reply, x' = x.reply e.request.ticket reply ∧
      Provides e.request.envelope.payload reply :=
  (advance_provides n now (serves_sound h) ha).2

end Worker
end Delegation
end VmFleet
