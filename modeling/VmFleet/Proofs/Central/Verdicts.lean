import VmFleet.Proofs.Central.Provisioning
import VmFleet.Proofs.Metrics.Counting

/-!
# What is counted of a request, and what its caller returns

A request is counted when it is over, under a label that tells how it went. Whoever asked goes on to
judge the reply, and may still turn it down: the count tells what the caller returns unless it does.
-/

set_option autoImplicit false

namespace VmFleet.Central

open Delegation Jobs Config Tasks Store

variable {α β : Type}

/-! ## Callers that go on with what they read -/

/-- Asks for a reply, has the request counted, and goes on with what it reads. -/
def counting (channel : String) (payload : Json) (decode : Json.Decoder α)
    (next : Except TransportError α → Program β) : Program β :=
  requesting channel payload fun reply =>
    .perform (.record (.request channel (outcomeLabel (readReply channel decode reply)))) fun _ =>
      next (readReply channel decode reply)

theorem healthCheck_counting :
    healthCheck = counting workerHealthcheck (.str ping) Json.text fun r => .done (checkPong r) := rfl

theorem provision_counting (m : Machine) :
    (provision m).run = counting resourceCreate m.encode Machine.decode (keepReply m) :=
  provision_run m

/-- What becomes of a reply: the label that it is counted under, and the error of the transport that
its caller returns. -/
inductive Verdict (channel : String) (decode : Json.Decoder α) (accepts : α → Bool) :
    Except TransportError Json → String → Option TransportError → Prop
  | failed (e : TransportError) : Verdict channel decode accepts (.error e) e.label (some e)
  | unreadable (json : Json) (problem : Json.DecodeError) (h : decode json = .error problem) :
      Verdict channel decode accepts (.ok json) "malformed_reply"
        (some (.malformedReply channel problem.message))
  | turnedDown (json : Json) (x : α) (reason : String) (h : decode json = .ok x)
      (hjudged : accepts x = false) :
      Verdict channel decode accepts (.ok json) "ok" (some (.malformedReply channel reason))
  | accepted (json : Json) (x : α) (h : decode json = .ok x) (hjudged : accepts x = true) :
      Verdict channel decode accepts (.ok json) "ok" none

/-- The label that tells of a returned error, or of none. -/
def labelOf : Option TransportError → String
  | some e => e.label
  | none => "ok"

/-- A reply that reads but is not what the caller has asked for. -/
def TurnsDown (decode : Json.Decoder α) (accepts : α → Bool) (reply : Except TransportError Json) :
    Prop :=
  ∃ json x, reply = .ok json ∧ decode json = .ok x ∧ accepts x = false

theorem Verdict.tells_iff {channel : String} {decode : Json.Decoder α} {accepts : α → Bool}
    {reply : Except TransportError Json} {label : String} {returned : Option TransportError}
    (h : Verdict channel decode accepts reply label returned) :
    label = labelOf returned ↔ ¬ TurnsDown decode accepts reply := by
  cases h with
  | failed e =>
    refine iff_of_true rfl ?_
    rintro ⟨json, x, hreply, -⟩
    cases hreply
  | unreadable json problem hdecode =>
    refine iff_of_true rfl ?_
    rintro ⟨json, x, hreply, hread, -⟩
    cases hreply
    cases hdecode.symm.trans hread
  | turnedDown json x reason hdecode hjudged =>
    refine iff_of_false ?_ (not_not_intro ⟨json,x,rfl,hdecode,hjudged⟩)
    change ¬ "ok" = "malformed_reply"
    decide
  | accepted json x hdecode hjudged =>
    refine iff_of_true rfl ?_
    rintro ⟨json, y, hreply, hread, hno⟩
    cases hreply
    cases hdecode.symm.trans hread
    cases hjudged.symm.trans hno

/-- A call leaves the records alone while it waits. When it is over it has counted itself once, by
the reply that it got, and the label is that of the error that it returns unless it has turned down
a reply that reads. -/
def CountsItself (channel : String) (payload : Json) (decode : Json.Decoder α) (accepts : α → Bool)
    (returned : β → Option TransportError) (call : Program β) : Prop :=
  ∀ (w u : World) (effects : List Effect) (sent : Nat) (t : Thread β),
    Thread.Looks (.of call) w effects sent t u →
      effects = [] ∧
      (∀ t' v, t.look u = (.wait t', v) → t.asks u = [] ∧ v.records = u.records) ∧
      ∀ result v, t.look u = (.over result, v) → ∃ reply x label,
        u.react false (.delegate channel (.ok payload)) t.wait = .answer reply x ∧
        Verdict channel decode accepts reply label (returned result) ∧
        (label = labelOf (returned result) ↔ ¬ TurnsDown decode accepts reply) ∧
        u.records.metrics.CountsOnce channel label v.records.metrics

/-- As it would be if the label told what the caller returns, whatever the reply. -/
def AlwaysTells (channel : String) (returned : β → Option TransportError) (call : Program β) : Prop :=
  ∀ (w u v : World) (effects : List Effect) (sent : Nat) (t : Thread β) (result : β),
    Thread.Looks (.of call) w effects sent t u → t.look u = (.over result, v) →
      u.records.metrics.CountsOnce channel (labelOf (returned result)) v.records.metrics

/-! ## One look, and any number of them -/

section
variable {channel : String} {payload : Json} {decode : Json.Decoder α}
  {next : Except TransportError α → Program β} {t : Thread β} {w u v : World}

theorem react_delegate_records (w : World) (wait : Wait) (reply : Except TransportError Json)
    (h : w.react false (.delegate channel (.ok payload)) wait = .answer reply v) :
    v.records = w.records := by
  obtain ⟨x, -, hw⟩ := delegate_world w false channel (.ok payload) wait
  rw [h] at hw
  change v = { w with exchange := x } at hw
  rw [hw]

/-- Either there is no reply yet, or the request is counted and what is read of the reply goes on. -/
theorem counting_look (hrest : t.rest = counting channel payload decode next) :
    (∃ wait v, t.look u = (.wait ⟨counting channel payload decode next, wait⟩, v) ∧
      t.asks u = [] ∧ v.records = u.records) ∨
    ∃ reply x, u.react false (.delegate channel (.ok payload)) t.wait = .answer reply x ∧
      x.records = u.records ∧
      t.look u = proceed false (next (readReply channel decode reply)) .nothing
        (x.record [.request channel (outcomeLabel (readReply channel decode reply))]) := by
  unfold Thread.look Thread.asks
  rw [hrest, counting, requesting, proceed, asked]
  cases hreact : u.react false (.delegate channel (.ok payload)) t.wait with
  | wait wait v => exact Or.inl ⟨wait,v,rfl,rfl,(react_wait u false _ t.wait wait v hreact).1⟩
  | answer reply x => exact Or.inr ⟨reply,x,rfl,react_delegate_records u t.wait reply hreact,rfl⟩

/-- A caller that waits for nobody else once it has its reply still has all to do when it looks. -/
theorem looks_counting (hover : ∀ reply v, ∃ b v',
      proceed false (next (readReply channel decode reply)) .nothing v = (.over b, v'))
    (effects : List Effect) (sent : Nat)
    (h : Thread.Looks (.of (counting channel payload decode next)) w effects sent t u) :
    effects = [] ∧ t.rest = counting channel payload decode next := by
  induction h with
  | start => exact ⟨rfl,rfl⟩
  | again effects sent t t' u u' v hlooks hlook hmeanwhile ih =>
    obtain ⟨rfl, hrest⟩ := ih
    rcases counting_look (u := u) hrest with ⟨wait, v', hwaits, hasks, -⟩ | ⟨reply, x, -, -, hgoes⟩
    · rw [hwaits] at hlook
      cases hlook
      rw [hasks]
      exact ⟨rfl,rfl⟩
    · obtain ⟨b, v', hend⟩ := hover reply
        (x.record [.request channel (outcomeLabel (readReply channel decode reply))])
      rw [hgoes, hend] at hlook
      cases hlook

variable {accepts : α → Bool} {returned : β → Option TransportError}

/-- So a caller counts itself once if what it does with its reply is over at once, leaves the
counters alone, and returns what the verdict says. -/
theorem counting_counts (hnext : ∀ reply v, ∃ b v',
      proceed false (next (readReply channel decode reply)) .nothing v = (.over b, v') ∧
        v'.records.metrics = v.records.metrics ∧
        Verdict channel decode accepts reply (outcomeLabel (readReply channel decode reply))
          (returned b)) :
    CountsItself channel payload decode accepts returned (counting channel payload decode next) := by
  intro w u effects sent t hlooks
  have hover (reply : Except TransportError Json) (v : World) :
      ∃ b v', proceed false (next (readReply channel decode reply)) .nothing v = (.over b, v') := by
    obtain ⟨b, v', hend, -⟩ := hnext reply v
    exact ⟨b,v',hend⟩
  obtain ⟨rfl, hrest⟩ := looks_counting hover effects sent hlooks
  refine ⟨rfl, ?_⟩
  rcases counting_look (u := u) hrest with
    ⟨wait, v', hwaits, hasks, hrecords⟩ | ⟨reply, x, hreact, hrecords, hgoes⟩
  · rw [hwaits]
    constructor
    · intro t' v h
      cases h
      exact ⟨hasks,hrecords⟩
    · intro result v h
      cases h
  · obtain ⟨b, v', hend, hmetrics, hverdict⟩ := hnext reply
      (x.record [.request channel (outcomeLabel (readReply channel decode reply))])
    rw [hgoes, hend]
    constructor
    · intro t' v h
      cases h
    · intro result v h
      cases h
      refine ⟨reply, x, _, hreact, hverdict, hverdict.tells_iff, ?_⟩
      rw [hmetrics, ← hrecords]
      exact Metrics.Registry.record_request _ _ _

end

/-! ## The two callers -/

/-- The error of the transport that a sign of life, or its absence, comes with. -/
def pongError : Except TransportError Unit → Option TransportError
  | .ok _ => none
  | .error e => some e

/-- The error of the transport among those that provisioning ends with. -/
def provisionError : Except TaskError Machine → Option TransportError
  | .error (.transport e) => some e
  | _ => none

theorem checkPong_verdict (reply : Except TransportError Json) :
    Verdict workerHealthcheck Json.text (· = pong) reply
      (outcomeLabel (readReply workerHealthcheck Json.text reply))
      (pongError (checkPong (readReply workerHealthcheck Json.text reply))) := by
  cases reply with
  | error e => exact .failed e
  | ok json =>
    rw [readReply]
    cases hdecode : Json.text json with
    | error problem => exact .unreadable json problem hdecode
    | ok s =>
      by_cases hpong : s = pong
      · rw [Except.mapError, checkPong, if_pos hpong]
        exact .accepted json s hdecode (decide_eq_true hpong)
      · rw [Except.mapError, checkPong, if_neg hpong]
        exact .turnedDown json s _ hdecode (decide_eq_false hpong)

theorem health_check_counts :
    CountsItself workerHealthcheck (.str ping) Json.text (· = pong) pongError healthCheck := by
  rw [healthCheck_counting]
  exact counting_counts fun reply v => ⟨_,v,rfl,rfl,checkPong_verdict reply⟩

/-- Storing the machine of an accepted reply may fail, but not for a reason of the transport. -/
theorem keepReply_verdict (m : Machine) (reply : Except TransportError Json) (v : World) :
    ∃ b v', proceed false (keepReply m (readReply resourceCreate Machine.decode reply)) .nothing v =
        (.over b, v') ∧
      v'.records.metrics = v.records.metrics ∧
      Verdict resourceCreate Machine.decode (describes · m) reply
        (outcomeLabel (readReply resourceCreate Machine.decode reply)) (provisionError b) := by
  cases reply with
  | error e => exact ⟨_,v,rfl,rfl,.failed e⟩
  | ok json =>
    rw [readReply]
    cases hdecode : Machine.decode json with
    | error problem => exact ⟨_,v,rfl,rfl,.unreadable json problem hdecode⟩
    | ok x =>
      rw [Except.mapError, keepReply]
      cases hjudged : describes x m with
      | false => exact ⟨_,v,rfl,rfl,.turnedDown json x _ hdecode hjudged⟩
      | true =>
        have hstored (answer : Except StoreError Machine) :
            Verdict resourceCreate Machine.decode (describes · m) (.ok json) "ok"
              (provisionError (answer.mapError .ofStore)) := by
          have hnone : provisionError (answer.mapError .ofStore) = none := by
            cases answer with
            | ok y => rfl
            | error e => cases e <;> rfl
          rw [hnone]
          exact .accepted json x hdecode hjudged
        exact ⟨_,_,rfl,rfl,hstored _⟩

theorem provision_counts (m : Machine) :
    CountsItself resourceCreate m.encode Machine.decode (describes · m) provisionError
      (provision m).run := by
  rw [provision_counting]
  exact counting_counts fun reply v => keepReply_verdict m reply v

/-- Whatever a handler does and replies, a health check counts itself once when it is over, and so does
provisioning. The label is that of the error of the transport that is returned, and it is `ok` only if
the reply was accepted, unless the reply reads and is then turned down. -/
theorem delegations_count_once (m : Machine) :
    CountsItself workerHealthcheck (.str ping) Json.text (· = pong) pongError healthCheck ∧
    CountsItself resourceCreate m.encode Machine.decode (describes · m) provisionError
      (provision m).run :=
  ⟨health_check_counts,provision_counts m⟩

/-! ## Two calls that are answered -/

/-- Somebody serves the channel, and nothing has been counted. -/
def listening (channel : String) : World :=
  { World.new (.memory []) (.memory []) 1000 ⟨fun _ => false, fun _ => .error .missing⟩ with
    exchange := (Exchange.empty.register channel).2 }

/-- The request of the call was taken and answered. -/
def told (channel : String) (call : Program β) (reply : Json) : World :=
  let sent := ((Thread.of call).look (listening channel)).2
  { sent with exchange := (sent.exchange.take 0).2.reply 0 (.ok reply) }

/-- The call looks again after its request. -/
def lookingAgain (channel : String) (call : Program β) : Thread β :=
  ⟨call, .reply (sentFrom channel (listening channel) 0)⟩

theorem told_meanwhile (channel : String) (call : Program β) (reply : Json) :
    Meanwhile (lookingAgain channel call) ((Thread.of call).look (listening channel)).2
      (told channel call reply) := by
  refine ⟨.head (.take _ 0) (.single (.reply _ 0 (.ok reply))), rfl, Nat.le_refl _, ?_⟩
  intro d _
  exact Nat.le_max_left _ d

theorem health_check_looks (reply : Json) :
    Thread.Looks (.of healthCheck) (listening workerHealthcheck) [] 1
      (lookingAgain workerHealthcheck healthCheck) (told workerHealthcheck healthCheck reply) :=
  .again [] 0 _ _ _ _ _ .start rfl (told_meanwhile workerHealthcheck healthCheck reply)

theorem provision_looks (m : Machine) (reply : Json) :
    Thread.Looks (.of (provision m).run) (listening resourceCreate) [] 1
      (lookingAgain resourceCreate (provision m).run)
      (told resourceCreate (provision m).run reply) :=
  .again [] 0 _ _ _ _ _ .start rfl (told_meanwhile resourceCreate (provision m).run reply)

theorem pong_counts_as_ok :
    ∃ v, (lookingAgain workerHealthcheck healthCheck).look
        (told workerHealthcheck healthCheck (.str pong)) = (.over (.ok ()), v) ∧
      v.records.metrics.requests.value (workerHealthcheck, "ok") = 1 ∧
      v.records.metrics.requests.value (workerHealthcheck, "malformed_reply") = 0 := by
  let m : Machine := ⟨"VM:1", .aws, .initializing, "USER:1"⟩
  obtain ⟨-, -, hover⟩ := (delegations_count_once m).1 _ _ _ _ _ (health_check_looks (.str pong))
  obtain ⟨reply, x, label, hreact, hverdict, -, hcounts⟩ := hover (.ok ()) _ rfl
  cases hreact
  cases hverdict with
  | accepted _ _ _ _ => exact ⟨_,rfl,hcounts.requests _,hcounts.requests _⟩

/-- An answer that is not the agreed one, and a machine that is not the one asked for: both are turned
down as malformed, and both are counted as if they had been accepted. -/
theorem turned_down_counts_as_ok :
    ¬ AlwaysTells workerHealthcheck pongError healthCheck ∧
    ¬ ∀ m : Machine, AlwaysTells resourceCreate provisionError (provision m).run := by
  constructor
  · intro htells
    have hcounts := htells _ _ _ _ _ _ _ (health_check_looks (.str "nope")) rfl
    have hmalformed := hcounts.requests (workerHealthcheck, "malformed_reply")
    revert hmalformed
    decide
  · intro htells
    let m : Machine := ⟨"VM:1", .aws, .initializing, "USER:1"⟩
    have hcounts := htells m _ _ _ _ _ _ _
      (provision_looks m (Machine.encode ⟨"VM:2", .aws, .up, "USER:1"⟩)) rfl
    have hmalformed := hcounts.requests (resourceCreate, "malformed_reply")
    revert hmalformed
    decide

end VmFleet.Central
