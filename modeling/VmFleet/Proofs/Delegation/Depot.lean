import VmFleet.Proofs.Delegation.Handover
import VmFleet.Proofs.Delegation.Slots

/-!
# What becomes of provisioning requests

Every request that a worker takes is an errand from then on, whether the worker is still there or not.
Errands go on in any order, provisioning takes any time and ends in any way, and meanwhile others use
the exchange as they like. An errand that is over has been answered once, as its payload and the
provisioner have it.
-/

set_option autoImplicit false

namespace VmFleet.Delegation

/-- What may happen to a request once it is taken. -/
inductive Event where
  | handed (machine : Machine)
  | returned (result : Except String Unit)
  | answered (reply : Reply)

/-- The reply to a request when the provisioner returns. -/
def outcome (m : Machine) : Except String Unit → Reply
  | .ok () => .ok (m.withStatus .up).encode
  | .error text => .error (.fault text)

/-- All that happens to a request in the end, and the reply to it. -/
inductive Course (payload : Json) : List Event → Reply → Prop
  | refused (problem : Json.DecodeError) (h : Machine.decode payload = .error problem) :
      Course payload [.answered (.error ⟨400,s!"invalid vm payload: {problem.message}"⟩)]
        (.error ⟨400,s!"invalid vm payload: {problem.message}"⟩)
  | failed (m : Machine) (text : String) (h : Machine.decode payload = .ok m) :
      Course payload [.handed m, .returned (.error text), .answered (.error ⟨500,text⟩)]
        (.error ⟨500,text⟩)
  | provided (m : Machine) (h : Machine.decode payload = .ok m) :
      Course payload [.handed m, .returned (.ok ()), .answered (.ok (m.withStatus .up).encode)]
        (.ok (m.withStatus .up).encode)

/-- How far a request is, what has happened to it by then, and what is in its slot if it is over. -/
inductive Standing (payload : Json) : Errand.Stage → List Event → Option Slot → Prop
  | taken (slot : Option Slot) : Standing payload .taken [] slot
  | waiting (m : Machine) (slot : Option Slot) (h : Machine.decode payload = .ok m) :
      Standing payload (.waiting m) [] slot
  | provisioning (m : Machine) (due : Nat) (slot : Option Slot) (h : Machine.decode payload = .ok m) :
      Standing payload (.provisioning m due) [.handed m] slot
  | settled (events : List Event) (reply : Reply) (h : Course payload events reply) :
      Standing payload .over events (some (.answered reply))

theorem course_outcome {payload : Json} (m : Machine) (result : Except String Unit)
    (h : Machine.decode payload = .ok m) :
    Course payload [.handed m, .returned result, .answered (outcome m result)] (outcome m result) := by
  cases result with
  | ok => exact .provided m h
  | error text => exact .failed m text h

section Standing

variable {payload : Json} {m : Machine} {due : Nat} {events : List Event} {slot : Option Slot}

theorem Standing.of_taken (h : Standing payload .taken events slot) : events = [] := by
  cases h
  rfl

theorem Standing.of_waiting (h : Standing payload (.waiting m) events slot) :
    Machine.decode payload = .ok m ∧ events = [] := by
  cases h with
  | waiting _ _ h => exact ⟨h,rfl⟩

theorem Standing.of_provisioning (h : Standing payload (.provisioning m due) events slot) :
    Machine.decode payload = .ok m ∧ events = [.handed m] := by
  cases h with
  | provisioning _ _ _ h => exact ⟨h,rfl⟩

theorem Standing.of_over (h : Standing payload .over events slot) :
    ∃ reply, Course payload events reply ∧ slot = some (.answered reply) := by
  cases h with
  | settled events reply h => exact ⟨reply,h,rfl⟩

end Standing

theorem Standing.later {payload : Json} {s : Errand.Stage} {events : List Event}
    {slot slot' : Option Slot} (h : Standing payload s events slot)
    (hslot : ∀ reply, slot = some (.answered reply) → slot' = some (.answered reply)) :
    Standing payload s events slot' := by
  cases h with
  | taken => exact .taken _
  | waiting m _ h => exact .waiting m _ h
  | provisioning m due _ h => exact .provisioning m due _ h
  | settled events reply h =>
    rw [hslot reply rfl]
    exact .settled events reply h

inductive Phase where
  | serving
  /-- The worker has unregistered the first of its channels. -/
  | leaving
  | gone
  deriving DecidableEq, Repr

/-- A worker, the exchange it is at, and the requests that others have taken. -/
structure Depot where
  exchange : Exchange
  worker : Worker
  phase : Phase
  theirs : List Nat
  /-- All that has happened to the errands, by their numbers. -/
  log : List (Nat × Event)

namespace Depot

open Exchange

def opened (x : Exchange) (theirs : List Nat) (poolSize latencyMillis : Nat) (fault : Option String) :
    Depot :=
  let (w, x) := Worker.start x poolSize latencyMillis fault
  ⟨x, w, .serving, theirs, []⟩

def history (d : Depot) (n : Nat) : List Event := (d.log.filter fun entry => entry.1 = n).map Prod.snd

def tell (d : Depot) (n : Nat) (events : List Event) : List (Nat × Event) :=
  d.log ++ events.map fun event => (n, event)

/-- After these events the errand is answered, which leaves the worker like this. -/
def answer (d : Depot) (n : Nat) (e : Errand) (w : Worker) (events : List Event) (reply : Reply) :
    Depot :=
  { d with
    exchange := d.exchange.reply e.request.ticket reply
    worker := w
    log := d.tell n (events ++ [.answered reply]) }

inductive Step (d : Depot) : Depot → Prop
  | others (x : Exchange) (hands : List Nat)
      (h : d.exchange.Others [d.worker.createBox, d.worker.healthBox] d.theirs x hands) :
      Step d { d with exchange := x, theirs := hands }
  | dispatch (cue : Cue) (w : Worker) (x : Exchange) (hphase : d.phase = .serving)
      (h : d.worker.heed d.exchange cue = (.dispatch w, x)) :
      Step d { d with exchange := x, worker := w }
  | pong (cue : Cue) (x : Exchange) (hphase : d.phase = .serving)
      (h : d.worker.heed d.exchange cue = (.answer, x)) : Step d { d with exchange := x }
  | leave (cue : Cue) (x : Exchange) (hphase : d.phase = .serving)
      (h : d.worker.heed d.exchange cue = (.leave, x)) :
      Step d { d with exchange := d.exchange.unregister resourceCreate, phase := .leaving }
  | depart (hphase : d.phase = .leaving) :
      Step d { d with
        exchange := ((d.exchange.unregister workerHealthcheck).close d.worker.createBox).close
          d.worker.healthBox
        phase := .gone }
  | stop : Step d { d with worker := { d.worker with isStopping := true } }
  | reconfigure (change : Config.Change Config.WorkerSettings) :
      Step d { d with worker := d.worker.reconfigure change }
  | refuse (n : Nat) (e : Errand) (problem : Json.DecodeError) (he : d.worker.errands[n]? = some e)
      (hs : e.stage = .taken) (h : Machine.decode e.request.envelope.payload = .error problem) :
      Step d (d.answer n e (d.worker.setStage n .over) [] (.error (Worker.badPayload problem)))
  | accept (n : Nat) (e : Errand) (m : Machine) (he : d.worker.errands[n]? = some e)
      (hs : e.stage = .taken) (h : Machine.decode e.request.envelope.payload = .ok m) :
      Step d { d with worker := (d.worker.setStage n (.waiting m)).acquire n }
  | begin (n : Nat) (e : Errand) (m : Machine) (due : Nat) (he : d.worker.errands[n]? = some e)
      (hs : e.stage = .waiting m) (hbusy : n ∈ d.worker.busy) :
      Step d { d with
        worker := d.worker.setStage n (.provisioning m due)
        log := d.tell n [.handed m] }
  /-- The provisioner returns. -/
  | finish (n : Nat) (e : Errand) (m : Machine) (due : Nat) (result : Except String Unit)
      (he : d.worker.errands[n]? = some e) (hs : e.stage = .provisioning m due) :
      Step d (d.answer n e ((d.worker.setStage n .over).release n) [.returned result]
        (outcome m result))

/-! ## What the running worker does -/

theorem setStage_setStage (w : Worker) (n : Nat) (s t : Errand.Stage) :
    (w.setStage n s).setStage n t = w.setStage n t := by
  simp only [Worker.setStage, List.modify_modify_eq]
  rfl

/-- An errand of the running worker goes on in such steps. -/
theorem advance_steps (d : Depot) (n now : Nat) (w : Worker) (x : Exchange)
    (h : d.worker.advance n now d.exchange = some (w, x)) :
    ∃ log, Relation.ReflTransGen Step d { d with exchange := x, worker := w, log := log } := by
  unfold Worker.advance at h
  split at h
  · cases h
  · next e he =>
    split at h
    · next hs =>
      split at h
      · next problem hd =>
        cases h
        exact ⟨_,.single (.refuse n e problem he hs hd)⟩
      · next m hd =>
        cases h
        exact ⟨_,.single (.accept n e m he hs hd)⟩
    · next m hs =>
      split at h
      · next hbusy =>
        have hbusy := List.contains_iff_mem.mp hbusy
        split at h
        · next text _ =>
          -- the provisioner is asked, and returns at once
          cases h
          have hset : (d.worker.setStage n (.provisioning m now)).errands[n]? =
              some ⟨e.request,.provisioning m now⟩ := by
            simp [Worker.setStage, he]
          have hbegin := Step.begin n e m now he hs hbusy
          have hfinish : Step _ _ := .finish (d := { d with
              worker := d.worker.setStage n (.provisioning m now)
              log := d.tell n [.handed m] })
            n ⟨e.request,.provisioning m now⟩ m now (.error text) hset rfl
          rw [answer, setStage_setStage] at hfinish
          exact ⟨_,.head hbegin (.single hfinish)⟩
        · cases h
          exact ⟨_,.single (.begin n e m _ he hs hbusy)⟩
      · cases h
    · next m due hs =>
      split at h
      · cases h
        exact ⟨_,.single (.finish n e m due (.ok ()) he hs)⟩
      · cases h
    · cases h

/-- So does the worker itself while it serves; when it goes off, it takes two. -/
theorem move_steps (d : Depot) (hphase : d.phase = .serving) :
    match d.worker.move d.exchange with
    | (.dispatch w, x) => Step d { d with exchange := x, worker := w }
    | (.answer, x) => Step d { d with exchange := x }
    | (.wait, _) => True
    | (.leave, x) => Relation.ReflTransGen Step d { d with exchange := x, phase := .gone } := by
  obtain ⟨cue, hmove⟩ := move_eq_heed d.worker d.exchange
  rw [hmove]
  split
  · next w x h => exact .dispatch cue w x hphase h
  · next x h => exact .pong cue x hphase h
  · trivial
  · next x h =>
    rw [heed_leave d.worker d.exchange x cue h]
    exact .head (.leave cue x hphase h) (.single (.depart rfl))

/-! ## Where requests go -/

theorem dispatch_cases (w v : Worker) (x y : Exchange) (cue : Cue)
    (h : w.heed x cue = (.dispatch v, y)) :
    ∃ r, x.take w.createBox = (.request r, y) ∧ v = w.dispatched r := by
  unfold Worker.heed at h
  split at h
  · split at h <;> cases h
  · split at h
    · rename_i r z hz
      cases h
      exact ⟨r,hz,rfl⟩
    · cases h
    · cases h
  · split at h <;> cases h

theorem pong_cases (w : Worker) (x y : Exchange) (cue : Cue) (h : w.heed x cue = (.answer, y)) :
    ∃ r z, x.take w.healthBox = (.request r, z) ∧ y = z.reply r.ticket (.ok (.str pong)) := by
  unfold Worker.heed at h
  split at h
  · split at h <;> cases h
  · split at h <;> cases h
  · split at h
    · rename_i r z hz
      cases h
      exact ⟨r,z,hz,rfl⟩
    · cases h
    · cases h

theorem reconfigure_eq (w : Worker) (change : Config.Change Config.WorkerSettings) :
    ∃ latency, w.reconfigure change = { w with latencyMillis := latency } := by
  unfold Worker.reconfigure
  split
  · exact ⟨_,rfl⟩
  · exact ⟨w.latencyMillis,rfl⟩

theorem acquire_errands (w : Worker) (n : Nat) : (w.acquire n).errands = w.errands := by
  unfold Worker.acquire
  split <;> rfl

variable {x : Exchange} {theirs : List Nat} {w : Worker} {d d' : Depot} {n : Nat} {e : Errand}

/-- No step takes anything out of a slot. -/
theorem step_later (h : Step d d') : d.exchange.Later d'.exchange := by
  cases h with
  | others x hands hx => exact deals_later _ _ (others_deals hx)
  | dispatch cue w x hphase hheed =>
    obtain ⟨r, htake, -⟩ := dispatch_cases _ _ _ _ cue hheed
    exact deals_later _ _ (take_deals _ _ _ _ htake)
  | pong cue x hphase hheed =>
    obtain ⟨r, y, htake, rfl⟩ := pong_cases _ _ _ cue hheed
    exact (deals_later _ _ (take_deals _ _ _ _ htake)).trans (later_settle _ _ _)
  | leave cue x hphase hheed => exact later_unregister _ _
  | depart hphase =>
    exact deals_later _ _ (.head (.unregister _ _) (.head (.close _ _) (.single (.close _ _))))
  | refuse n e problem he hs hd => exact later_settle _ _ _
  | finish n e m due result he hs => exact later_settle _ _ _
  | _ => exact .refl _

/-- An errand that goes on without being over still holds its request. -/
theorem setStage_custody (h : x.Custody (theirs ++ w.live)) (he : w.errands[n]? = some e)
    (hs : e.stage ≠ .over) (s : Errand.Stage) (hlive : s ≠ .over) :
    x.Custody (theirs ++ (w.setStage n s).live) := by
  apply h.of_count
  intro t
  have hcount := w.count_live_setStage n t e s he
  rw [Worker.live_of_ne_over e hs, Worker.live_of_ne_over _ hlive] at hcount
  rw [List.count_append, List.count_append, Nat.add_right_cancel hcount]

/-- A reply fills the slot of the errand, which then holds its request no longer. -/
theorem answer_custody (h : x.Custody (theirs ++ w.live)) (he : w.errands[n]? = some e)
    (hs : e.stage ≠ .over) (reply : Reply) :
    (x.reply e.request.ticket reply).Custody (theirs ++ (w.setStage n .over).live) ∧
      (x.reply e.request.ticket reply).slots[e.request.ticket]? = some (.answered reply) := by
  have hheld : e.request.ticket ∈ theirs ++ w.live :=
    List.mem_append_right _ (w.mem_live n e he hs)
  constructor
  · apply (Exchange.settle_custody h _ hheld _).of_count
    intro t
    have hcount := w.count_live_setStage n t e .over he
    rw [Worker.live_of_ne_over e hs, List.count_singleton] at hcount
    rw [List.count_erase, List.count_append, List.count_append]
    change _ = (w.live.count t) + 0 at hcount
    omega
  · exact Exchange.settle_slot h _ hheld _

/-! ## Standings -/

structure Sane (d : Depot) : Prop where
  custody : d.exchange.Custody (d.theirs ++ d.worker.live)
  pool : d.worker.Pool
  logged : ∀ entry ∈ d.log, entry.1 < d.worker.errands.length
  standings : ∀ n e, d.worker.errands[n]? = some e → Standing e.request.envelope.payload e.stage
    (d.history n) d.exchange.slots[e.request.ticket]?

/-- Only a request with a machine in it has a slot or is in line for one. -/
theorem Sane.decodes (h : d.Sane) (he : d.worker.errands[n]? = some e)
    (hn : n ∈ d.worker.busy ++ d.worker.line) :
    ∃ m, Machine.decode e.request.envelope.payload = .ok m := by
  have hstanding := h.standings n e he
  have hadmits := (h.pool.admitted n).mp hn
  rw [Worker.admits, Worker.stage_of_errand he] at hadmits
  cases hs : e.stage with
  | waiting m =>
    rw [hs] at hstanding
    exact ⟨m,hstanding.of_waiting.1⟩
  | provisioning m due =>
    rw [hs] at hstanding
    exact ⟨m,hstanding.of_provisioning.1⟩
  | _ =>
    rw [hs] at hadmits
    cases hadmits

theorem Sane.unanswered (h : d.Sane) (he : d.worker.errands[n]? = some e) (hs : e.stage ≠ .over) :
    d.exchange.slots[e.request.ticket]? = some .pending :=
  h.custody.hands_pending _ (List.mem_append_right _ (Worker.mem_live _ n e he hs))

theorem history_tell (d : Depot) (n k : Nat) (events : List Event) :
    history { d with log := d.tell n events } k = d.history k ++ if n = k then events else [] := by
  rw [history, tell, history, List.filter_append, List.map_append, List.filter_map, List.map_map]
  by_cases hk : n = k <;> simp [hk, Function.comp_def]

theorem tell_lt (d : Depot) (n : Nat) (events : List Event) (size : Nat)
    (hlog : ∀ entry ∈ d.log, entry.1 < size) (hn : n < size) :
    ∀ entry ∈ d.tell n events, entry.1 < size := by
  intro entry hentry
  rcases List.mem_append.mp hentry with hold | hnew
  · exact hlog entry hold
  · obtain ⟨event, -, rfl⟩ := List.mem_map.mp hnew
    exact hn

/-- What is filled stays, so nothing changes in what is known of errands that do not go on. -/
theorem Sane.standings_later (h : d.Sane) (hlater : d.exchange.Later d'.exchange) (n : Nat) (e : Errand)
    (he : d.worker.errands[n]? = some e) (hhistory : d'.history n = d.history n) :
    Standing e.request.envelope.payload e.stage (d'.history n) d'.exchange.slots[e.request.ticket]? := by
  rw [hhistory]
  apply (h.standings n e he).later
  intro reply hslot
  exact hlater.filled _ _ hslot (by simp)

/-- When one errand goes on, what is known of all others remains. -/
theorem Sane.standings_setStage (h : d.Sane) (hlater : d.exchange.Later d'.exchange) (n : Nat)
    (e : Errand) (he : d.worker.errands[n]? = some e) (s : Errand.Stage)
    (herrands : d'.worker.errands = (d.worker.setStage n s).errands)
    (hhistory : ∀ k, n ≠ k → d'.history k = d.history k)
    (hstanding : Standing e.request.envelope.payload s (d'.history n)
      d'.exchange.slots[e.request.ticket]?) :
    ∀ k f, d'.worker.errands[k]? = some f → Standing f.request.envelope.payload f.stage
      (d'.history k) d'.exchange.slots[f.request.ticket]? := by
  intro k f hf
  rw [herrands, Worker.setStage, List.getElem?_modify] at hf
  by_cases hk : n = k
  · subst hk
    rw [he] at hf
    simp only [if_true, Option.map_eq_map, Option.map_some, Option.some.injEq] at hf
    subst hf
    exact hstanding
  · simp only [hk, if_false, id_map'] at hf
    exact h.standings_later hlater k f hf (hhistory k hk)

theorem answer_sane (h : d.Sane) (n : Nat) (e : Errand) (he : d.worker.errands[n]? = some e)
    (w : Worker) (events : List Event) (reply : Reply) (hs : e.stage ≠ .over)
    (herrands : w.errands = (d.worker.setStage n .over).errands) (hpool : w.Pool)
    (hcourse : Course e.request.envelope.payload (d.history n ++ (events ++ [.answered reply])) reply) :
    (d.answer n e w events reply).Sane := by
  obtain ⟨hcustody, hslot⟩ := answer_custody h.custody he hs reply
  have hlength : d.worker.errands.length = w.errands.length := by
    rw [herrands]
    exact (List.length_modify ..).symm
  refine ⟨?_,hpool,?_,?_⟩
  · change Exchange.Custody _ (d.theirs ++ w.errands.flatMap Errand.live)
    rw [herrands]
    exact hcustody
  · change ∀ entry ∈ d.tell n _, entry.1 < w.errands.length
    rw [← hlength]
    exact d.tell_lt n _ _ h.logged (List.getElem?_eq_some_iff.mp he).1
  · have hhistory := fun k => history_tell d n k (events ++ [.answered reply])
    refine h.standings_setStage (later_settle _ _ _) n e he .over herrands ?_ ?_
    · intro k hk
      refine (hhistory k).trans ?_
      rw [if_neg hk, List.append_nil]
    · change Standing _ _ (history { d with log := d.tell n (events ++ [.answered reply]) } n)
        (d.exchange.reply e.request.ticket reply).slots[e.request.ticket]?
      rw [hhistory, if_pos rfl, hslot]
      exact .settled _ _ hcourse

/-- As long as the errands stay as they are, so does what is known of them. -/
theorem Sane.exchange (h : d.Sane) (hlater : d.exchange.Later d'.exchange)
    (hcustody : d'.exchange.Custody (d'.theirs ++ d.worker.live))
    (herrands : d'.worker.errands = d.worker.errands) (hpool : d'.worker.Pool)
    (hlog : d'.log = d.log) : d'.Sane := by
  refine ⟨?_,hpool,?_,?_⟩
  · rw [Worker.live, herrands]
    exact hcustody
  · rw [hlog, herrands]
    exact h.logged
  · intro n e he
    rw [herrands] at he
    apply h.standings_later hlater n e he
    rw [history, hlog, history]

theorem dispatch_sane (h : d.Sane) (hlater : d.exchange.Later x) (r : Request) (n : Nat)
    (htake : d.exchange.take n = (.request r, x)) :
    Sane { d with exchange := x, worker := d.worker.dispatched r } := by
  have hcustody := Exchange.take_custody h.custody n r htake
  have hnew : d.history d.worker.errands.length = [] := by
    rw [history, List.map_eq_nil_iff, List.filter_eq_nil_iff]
    intro entry hentry heq
    exact Nat.ne_of_lt (h.logged entry hentry) (of_decide_eq_true heq)
  refine ⟨?_,h.pool.dispatched r,?_,?_⟩
  · apply hcustody.of_count
    intro t
    rw [Worker.live_dispatched, ← List.append_assoc]
    exact (List.perm_append_singleton _ _).count_eq t
  · intro entry hentry
    exact Nat.lt_of_lt_of_le (h.logged entry hentry) (by simp [Worker.dispatched])
  · intro k e he
    rcases d.worker.errand_dispatched r k e he with hold | ⟨rfl, rfl⟩
    · exact h.standings_later hlater k e hold rfl
    · change Standing _ _ (d.history _) _
      rw [hnew]
      exact .taken _

theorem step_sane (h : d.Sane) (hstep : Step d d') : d'.Sane := by
  have hlater := step_later hstep
  cases hstep with
  | others x hands hx =>
    exact h.exchange hlater (others_custody hx d.worker.live h.custody) rfl h.pool rfl
  | dispatch cue w x hphase hheed =>
    obtain ⟨r, htake, rfl⟩ := dispatch_cases _ _ _ _ cue hheed
    exact dispatch_sane h hlater r _ htake
  | pong cue x hphase hheed =>
    obtain ⟨r, y, htake, rfl⟩ := pong_cases _ _ _ cue hheed
    have hcustody := Exchange.settle_custody (Exchange.take_custody h.custody _ r htake) r.ticket
      List.mem_cons_self (.answered (.ok (.str pong)))
    rw [List.erase_cons_head] at hcustody
    exact h.exchange hlater hcustody rfl h.pool rfl
  | leave cue x hphase hheed =>
    exact h.exchange hlater (Exchange.unregister_custody h.custody _) rfl h.pool rfl
  | depart hphase =>
    refine h.exchange hlater ?_ rfl h.pool rfl
    exact Exchange.close_custody (Exchange.close_custody (Exchange.unregister_custody h.custody _) _) _
  | stop =>
    exact h.exchange hlater h.custody rfl
      (h.pool.of_same rfl rfl rfl (fun _ => rfl) h.pool.running) rfl
  | reconfigure change =>
    obtain ⟨latency, hw⟩ := reconfigure_eq d.worker change
    rw [hw]
    exact h.exchange hlater h.custody rfl
      (h.pool.of_same rfl rfl rfl (fun _ => rfl) h.pool.running) rfl
  | refuse n e problem he hs hd =>
    have hstanding := h.standings n e he
    rw [hs] at hstanding
    refine answer_sane h n e he _ _ _ (by rw [hs]; simp) rfl ?_ ?_
    · exact h.pool.setStage (Worker.stage_of_errand he) (by rw [hs]; rfl) (fun hrun => nomatch hrun)
    · rw [hstanding.of_taken]
      exact .refused problem hd
  | accept n e m he hs hd =>
    have hstanding := h.standings n e he
    rw [hs] at hstanding
    have herrands := acquire_errands (d.worker.setStage n (.waiting m)) n
    have hlive : ((d.worker.setStage n (.waiting m)).acquire n).live =
        (d.worker.setStage n (.waiting m)).live := congrArg (List.flatMap Errand.live) herrands
    refine ⟨?_,?_,?_,?_⟩
    · rw [hlive]
      exact setStage_custody h.custody he (by rw [hs]; simp) _ (by simp)
    · exact h.pool.accept (Worker.stage_of_errand he) (by rw [hs]; rfl) m
    · intro entry hentry
      rw [herrands]
      exact Nat.lt_of_lt_of_eq (h.logged entry hentry) (List.length_modify ..).symm
    · refine h.standings_setStage (.refl _) n e he (.waiting m) herrands (fun _ _ => rfl) ?_
      change Standing _ _ (d.history n) _
      rw [hstanding.of_taken]
      exact .waiting m _ hd
  | begin n e m due he hs hbusy =>
    have hstanding := h.standings n e he
    rw [hs] at hstanding
    obtain ⟨hd, hbefore⟩ := hstanding.of_waiting
    have hhistory := fun k => history_tell d n k [.handed m]
    refine ⟨?_,?_,?_,?_⟩
    · exact setStage_custody h.custody he (by rw [hs]; simp) _ (by simp)
    · exact h.pool.setStage (Worker.stage_of_errand he) (by rw [hs]; rfl) (fun _ => hbusy)
    · have hlength : (d.worker.setStage n (.provisioning m due)).errands.length =
          d.worker.errands.length := List.length_modify ..
      rw [hlength]
      exact d.tell_lt n _ _ h.logged (List.getElem?_eq_some_iff.mp he).1
    · refine h.standings_setStage (.refl _) n e he (.provisioning m due) rfl ?_ ?_
      · intro k hk
        refine (hhistory k).trans ?_
        rw [if_neg hk, List.append_nil]
      · change Standing _ _ (history { d with log := d.tell n [.handed m] } n) _
        rw [hhistory, if_pos rfl, hbefore]
        exact .provisioning m due _ hd
  | finish n e m due result he hs =>
    have hstanding := h.standings n e he
    rw [hs] at hstanding
    obtain ⟨hd, hbefore⟩ := hstanding.of_provisioning
    have hbusy : n ∈ d.worker.busy := h.pool.running n (by
      rw [Worker.runs, Worker.stage_of_errand he, hs]
      rfl)
    refine answer_sane h n e he _ _ _ (by rw [hs]; simp) rfl (h.pool.retire hbusy) ?_
    rw [hbefore]
    exact course_outcome m result hd

end Depot
end VmFleet.Delegation
