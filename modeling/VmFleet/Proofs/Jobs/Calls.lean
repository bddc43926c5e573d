import VmFleet.Proofs.Jobs.Turns

/-!
# What becomes of calls for a tick

A call waits in line until the scheduler handles it, and is answered as it is handled; those that are
left when the scheduler is over are refused. Whatever moves come in between, a call is handled once at
most, nothing but handling a call begins a tick by hand, and the answer tells which of the two it was
and why.
-/

set_option autoImplicit false

namespace VmFleet.Jobs

/-- The job that a move asks for a tick of. -/
def Move.asked? : Move → Option String
  | .call id => some id
  | _ => none

/-- The jobs that were asked for, by the numbers of the calls. -/
def jobsAsked (moves : List Move) : List String := moves.filterMap Move.asked?

def Run.label (r : Run) : Trigger × String := (r.trigger, r.job)

/-- A tick that has begun: its number, what began it, and its job. -/
structure Tick where
  number : Nat
  trigger : Trigger
  job : String
  deriving DecidableEq, Repr

namespace Scheduler

/-- All ticks that have ever begun. -/
def begun (s : Scheduler) : List Tick :=
  (s.runs.map Run.label).zipIdx.map fun tick => ⟨tick.2, tick.1.1, tick.1.2⟩

def byHand (s : Scheduler) : List Tick := s.begun.filter fun tick => tick.trigger = .manual

end Scheduler

/-- A call that was handled, with the scheduler as it was before and after. -/
structure Handling where
  call : Nat
  id : String
  before : Scheduler
  after : Scheduler

/-- The ticks that began as the call was handled. -/
def Handling.begun (h : Handling) : List Tick := h.after.begun.drop h.before.begun.length

namespace Moment

def handling? (m : Moment) : Move → Option Handling
  | .handleCall =>
    match m.scheduler.commands, m.scheduler.handleCall? m.now with
    | (call, id) :: _, some s => some ⟨call, id, m.scheduler, s⟩
    | _, _ => none
  | _ => none

/-- All calls that are handled while these moves are made, in order. -/
def handlings (m : Moment) : List Move → List Handling
  | [] => []
  | move :: moves => (m.handling? move).toList ++ (m.play move).handlings moves

theorem handlings_append (m : Moment) (moves rest : List Move) :
    m.handlings (moves ++ rest) = m.handlings moves ++ (m.after moves).handlings rest := by
  induction moves generalizing m with
  | nil => rfl
  | cons move moves ih =>
    rw [List.cons_append, handlings, handlings, ih, List.append_assoc]
    rfl

theorem handlings_concat (m : Moment) (moves : List Move) (move : Move) :
    m.handlings (moves ++ [move]) = m.handlings moves ++ ((m.after moves).handling? move).toList := by
  rw [handlings_append, handlings, handlings, List.append_nil]

end Moment

theorem jobsAsked_concat (moves : List Move) (move : Move) :
    jobsAsked (moves ++ [move]) = jobsAsked moves ++ move.asked?.toList := by
  rw [jobsAsked, List.filterMap_append, jobsAsked]
  cases h : move.asked? <;> simp [h]

/-! ## Moves that have nothing to do with calls -/

namespace Scheduler

/-- No call comes in or is answered, no tick begins by hand, and the scheduler is over only if it was. -/
structure Aside (s s' : Scheduler) : Prop where
  commands : s'.commands = s.commands
  answers : s'.answers = s.answers
  byHand : s'.byHand = s.byHand
  ended : s'.stage = .over ↔ s.stage = .over

variable {s s' t u : Scheduler}

theorem byHand_of_runs (h : s'.runs = s.runs) : s'.byHand = s.byHand := by
  rw [byHand, begun, h, byHand, begun]

theorem Aside.refl (s : Scheduler) : Aside s s := ⟨rfl,rfl,rfl,Iff.rfl⟩

theorem Aside.trans (h : Aside s t) (k : Aside t u) : Aside s u :=
  ⟨k.commands.trans h.commands,k.answers.trans h.answers,k.byHand.trans h.byHand,k.ended.trans h.ended⟩

/-- So it is when ticks and the stage stay as they are. -/
theorem aside_of_still (h : Still s s') (hc : s'.commands = s.commands) (ha : s'.answers = s.answers) :
    Aside s s' := ⟨hc,ha,byHand_of_runs h.runs,by rw [h.stage]⟩

theorem register_aside (s : Scheduler) (job : Job) : Aside s (s.register job) := by
  have hcalls : (s.register job).commands = s.commands ∧ (s.register job).answers = s.answers := by
    unfold register
    split <;> exact ⟨rfl,rfl⟩
  exact aside_of_still (register_still s job) hcalls.1 hcalls.2

theorem schedule_aside (s : Scheduler) (id : String) (period now : Nat) :
    Aside s (s.schedule id period now).2 := by
  have hcalls : (s.schedule id period now).2.commands = s.commands ∧
      (s.schedule id period now).2.answers = s.answers := by
    unfold schedule
    split
    · exact ⟨rfl,rfl⟩
    · exact ⟨rfl,rfl⟩
    · split <;> exact ⟨rfl,rfl⟩
  exact aside_of_still (schedule_still s id period now) hcalls.1 hcalls.2

theorem cancel_aside (s : Scheduler) (id : String) : Aside s (s.cancel id).2 := by
  have hcalls : (s.cancel id).2.commands = s.commands ∧ (s.cancel id).2.answers = s.answers := by
    unfold cancel
    split <;> exact ⟨rfl,rfl⟩
  exact aside_of_still (cancel_still s id) hcalls.1 hcalls.2

theorem applySettings_aside (s : Scheduler) (settings : Config.JobsSettings) (now : Nat) :
    Aside s (s.applySettings settings now) := by
  obtain ⟨hcommands, hanswers, hbyHand, hover⟩ :=
    visits_keep Aside Aside.refl Aside.trans schedule_aside cancel_aside settings now s.jobs s
  exact ⟨hcommands,hanswers,hbyHand,hover⟩

theorem reconfigure_aside (s : Scheduler) (change : Config.Change Config.JobsSettings) (now : Nat) :
    Aside s (s.reconfigure change now) := by
  unfold reconfigure
  split
  · exact applySettings_aside s _ now
  · exact .refl s

theorem stopTimer_aside (timer : Nat) (h : s.stopTimer? timer = some s') : Aside s s' := by
  have hstill := stopTimer_still s s' timer h
  obtain ⟨t, -, -, -, rfl⟩ := stopTimer_eq_some s s' timer h
  exact aside_of_still hstill rfl rfl

theorem begun_append (s s' : Scheduler) (r : Run) (h : s'.runs = s.runs ++ [r]) :
    s'.begun = s.begun ++ [⟨s.runs.length, r.trigger, r.job⟩] := by
  simp [begun, h, Run.label, List.zipIdx_append]

theorem begun_of_modify (s s' : Scheduler) (number : Nat) (f : Run → Run)
    (h : s'.runs = s.runs.modify number f) (hf : ∀ r, (f r).label = r.label) :
    s'.begun = s.begun := by
  have hlabels : s'.runs.map Run.label = s.runs.map Run.label := by
    rw [h]
    apply List.ext_getElem?
    intro n
    rw [List.getElem?_map, List.getElem?_map, List.getElem?_modify, Option.map_eq_map, Option.map_map]
    congr 1
    funext r
    by_cases hn : number = n
    · simp [hn, hf]
    · simp [hn]
  rw [begun, hlabels, begun]

theorem byHand_of_begun (h : s'.begun = s.begun) : s'.byHand = s.byHand := by rw [byHand, h, byHand]

theorem beginRun_calls (id : String) (trigger : Trigger) (now : Nat)
    (h : s.beginRun id trigger now = some s') :
    s'.commands = s.commands ∧ s'.answers = s.answers := by
  obtain ⟨board, -, rfl⟩ := Option.map_eq_some_iff.mp h
  exact ⟨rfl,rfl⟩

theorem fireTimer_aside (timer now : Nat) (h : s.fireTimer? timer now = some s') : Aside s s' := by
  obtain ⟨t, -, -, -, rfl | ⟨began, hb, rfl⟩⟩ := fireTimer_eq_some s s' timer now h
  · exact ⟨rfl,rfl,rfl,Iff.rfl⟩
  · obtain ⟨hcommands, hanswers⟩ := beginRun_calls t.job .timer now hb
    obtain ⟨⟨-, hruns, -, -, hstage⟩, -⟩ := beginRun_begins s began t.job .timer now hb
    have hbegun := begun_append s began _ hruns
    refine ⟨hcommands, hanswers, ?_, by rw [← hstage]; rfl⟩
    -- a tick that a timer begins is none that is started by hand
    change began.byHand = s.byHand
    rw [byHand, hbegun, List.filter_append, byHand]
    exact List.append_nil _

theorem record_aside (s : Scheduler) (number : Nat) (ending : Ending) (now : Nat) :
    Aside s (s.record number ending now).1 := by
  unfold record
  split
  · exact .refl s
  · exact ⟨rfl,rfl,byHand_of_begun (begun_of_modify s _ number _ rfl fun _ => rfl),Iff.rfl⟩

theorem finishTick_aside (timer now : Nat) (result : Scheduler × List Metrics.Event)
    (h : s.finishTick? timer now = some result) : Aside s result.1 := by
  obtain ⟨-, number, -, ending, -, -, -, -, heq⟩ := finishTick_eq_some s timer now result h
  obtain ⟨hcommands, hanswers, hbyHand, hover⟩ := record_aside s number ending now
  rw [heq]
  exact ⟨hcommands,hanswers,hbyHand,hover⟩

theorem advanceRun_aside (number now : Nat) (result : Scheduler × List Metrics.Event)
    (h : s.advanceRun number now = some result) : Aside s result.1 := by
  obtain ⟨-, ending, -, -, -, heq⟩ := advanceRun_eq_some s number now result h
  rw [heq]
  exact record_aside s number ending now

theorem endRun_aside (s : Scheduler) (number : Nat) (ending : Ending) :
    Aside s (s.endRun number ending) :=
  ⟨rfl,rfl,byHand_of_begun (begun_of_modify s _ number _ rfl fun _ => rfl),Iff.rfl⟩

/-! ## The ways for a move to go about calls -/

/-- The scheduler is over, and whoever was not answered yet is refused. -/
structure Refuses (s s' : Scheduler) : Prop where
  commands : s'.commands = []
  answers : s'.answers = s.answers.map fun a => a.or (some (.error .schedulerUnavailable))
  byHand : s'.byHand = s.byHand
  ended : s'.stage = .over

/-- What a move does about calls, with the jobs that it asks for and the calls that it handles. -/
inductive Attends (s : Scheduler) (now : Nat) : List String → List Handling → Scheduler → Prop
  | aside (s' : Scheduler) (h : Aside s s') : Attends s now [] [] s'
  | called (id : String) : Attends s now [id] [] (s.call id).2
  | handled (call : Nat) (id : String) (rest : List (Nat × String)) (s' : Scheduler)
      (hcommands : s.commands = (call, id) :: rest) (h : s.handleCall? now = some s') :
      Attends s now [] [⟨call, id, s, s'⟩] s'
  | refused (s' : Scheduler) (h : Refuses s s') : Attends s now [] [] s'

theorem drop_refuses (s : Scheduler) : Refuses s s.drop := ⟨rfl,rfl,rfl,rfl⟩

theorem closeNext_attends (now : Nat) (h : s.closeNext? now = some s') : Attends s now [] [] s' := by
  rcases closeNext_cases s s' now h with ⟨-, rfl⟩ | ⟨_, _, _, hstage, ⟨-, rfl⟩ | rfl⟩
  · exact .refused _ ⟨rfl,rfl,rfl,rfl⟩
  · exact .aside _ ⟨rfl,rfl,rfl,by simp [hstage]⟩
  · exact .aside _ ⟨rfl,rfl,rfl,by simp [hstage]⟩

end Scheduler

namespace Moment

open Scheduler

theorem step_attends (m : Moment) (move : Move) (s' : Scheduler)
    (h : m.scheduler.step? m.now move = some s') :
    Attends m.scheduler m.now move.asked?.toList (m.handling? move).toList s' := by
  cases move with
  | pass millis =>
    cases h
    exact .aside _ (.refl _)
  | register job =>
    cases ordered_eq_some _ _ _ h
    exact .aside _ (register_aside _ job)
  | schedule id period =>
    cases ordered_eq_some _ _ _ h
    exact .aside _ (schedule_aside _ id period _)
  | cancel id =>
    cases ordered_eq_some _ _ _ h
    exact .aside _ (cancel_aside _ id)
  | apply settings =>
    cases ordered_eq_some _ _ _ h
    exact .aside _ (applySettings_aside _ settings _)
  | start =>
    simp only [step?] at h
    split at h
    · rename_i hidle
      cases h
      exact .aside _ ⟨rfl,rfl,rfl,by simp [Scheduler.start, hidle]⟩
    · cases h
  | drop =>
    simp only [step?] at h
    split at h
    · cases h
      exact .refused _ (drop_refuses _)
    · cases h
  | call id =>
    cases h
    exact .called id
  | shutdown =>
    cases h
    exact .aside _ ⟨rfl,rfl,rfl,Iff.rfl⟩
  | enter =>
    obtain ⟨hstage, rfl⟩ := enter_eq_some _ s' _ h
    obtain ⟨hcommands, hanswers, hbyHand, -⟩ :=
      applySettings_aside m.scheduler m.scheduler.settings m.now
    exact .aside _ ⟨hcommands,hanswers,hbyHand,by simp [hstage]⟩
  | reconfigure change =>
    simp only [step?] at h
    split at h
    · cases h
      exact .aside _ (reconfigure_aside _ change _)
    · cases h
  | beginClosing =>
    obtain ⟨hstage, -, rfl⟩ := beginClosing_eq_some _ s' h
    exact .aside _ ⟨rfl,rfl,rfl,by simp [Scheduler.beginClosing, hstage]⟩
  | handleCall =>
    change m.scheduler.handleCall? m.now = some s' at h
    obtain ⟨-, call, id, rest, hcommands, -⟩ := handleCall_eq_some _ s' _ h
    simp only [Move.asked?, handling?, hcommands, h]
    exact .handled call id rest s' hcommands h
  | closeNext => exact closeNext_attends _ h
  | stopTimer timer => exact .aside _ (stopTimer_aside timer h)
  | fireTimer timer => exact .aside _ (fireTimer_aside timer _ h)
  | finishTick timer =>
    obtain ⟨result, hresult, rfl⟩ := Option.map_eq_some_iff.mp h
    exact .aside _ (finishTick_aside timer _ result hresult)
  | endRun number ending =>
    simp only [step?] at h
    split at h
    · cases h
      exact .aside _ (endRun_aside _ number ending)
    · cases h
  | finishRun number =>
    simp only [step?] at h
    split at h
    · obtain ⟨result, hresult, rfl⟩ := Option.map_eq_some_iff.mp h
      exact .aside _ (advanceRun_aside number _ result hresult)
    · cases h

theorem play_attends (m : Moment) (move : Move) :
    Attends m.scheduler m.now move.asked?.toList (m.handling? move).toList (m.play move).scheduler := by
  cases h : m.scheduler.step? m.now move with
  | some s' =>
    simp only [play, h]
    exact step_attends m move s' h
  | none =>
    -- a call can always be made, and only a call that can be handled is
    have hasked : move.asked? = none := by
      cases move with
      | call id => cases h
      | _ => rfl
    have hhandling : m.handling? move = none := by
      cases move with
      | handleCall =>
        change m.scheduler.handleCall? m.now = none at h
        simp only [handling?, h]
        split <;> simp_all
      | _ => rfl
    simp only [play, h, hasked, hhandling]
    exact .aside _ (.refl _)

end Moment

/-! ## How a call ends -/

namespace Scheduler

/-- What has become of a call, as the calls tell that were handled: it waits to be handled; or it was,
and a tick of the job began or there was a reason why none did; or it was left when the scheduler was
over. -/
inductive Fate (log : List Handling) (s : Scheduler) (call : Nat) (id : String) :
    Option (Except JobError Unit) → Prop
  | waiting (hqueue : (call, id) ∈ s.commands) (hlog : ∀ h ∈ log, h.call ≠ call)
      (hstage : s.stage ≠ .over) : Fate log s call id none
  | begun (h : Handling) (hlog : h ∈ log) (hcall : h.call = call) (hid : h.id = id) (number : Nat)
      (hbegun : h.begun = [⟨number, .manual, id⟩]) : Fate log s call id (some (.ok ()))
  | unknown (h : Handling) (hlog : h ∈ log) (hcall : h.call = call) (hid : h.id = id)
      (hbegun : h.begun = []) (hjob : h.before.job? id = none) :
      Fate log s call id (some (.error (.notFound id)))
  | busy (h : Handling) (hlog : h ∈ log) (hcall : h.call = call) (hid : h.id = id)
      (hbegun : h.begun = []) (number : Nat) (r : Run) (hway : h.before.Underway number r)
      (hjob : r.job = id) : Fate log s call id (some (.error (.alreadyRunning id)))
  | refused (hlog : ∀ h ∈ log, h.call ≠ call) (hstage : s.stage = .over) :
      Fate log s call id (some (.error .schedulerUnavailable))

/-- Every call waits in line or has its answer, and the calls that were handled account for the answers
and for the ticks that were started by hand. -/
structure Accounted (asked : List String) (log : List Handling) (s : Scheduler) : Prop where
  answers : s.answers.length = asked.length
  queue : ∀ p ∈ s.commands, asked[p.1]? = some p.2 ∧ s.answerTo p.1 = none
  order : (s.commands.map Prod.fst).Nodup
  handled : ∀ h ∈ log, asked[h.call]? = some h.id ∧ (s.answerTo h.call).isSome = true
  once : (log.map Handling.call).Nodup
  ended : s.stage = .over → s.commands = []
  byHand : s.byHand = log.flatMap Handling.begun
  fate : ∀ call id, asked[call]? = some id → Fate log s call id (s.answerTo call)

variable {asked : List String} {log : List Handling} {s s' : Scheduler} {call : Nat} {id : String}
  {answer : Option (Except JobError Unit)}

theorem accounted_new (settings : Config.JobsSettings) : Accounted [] [] (new settings) := by
  constructor
  · rfl
  · intro p hp
    cases hp
  · exact List.nodup_nil
  · intro h hmem
    cases hmem
  · exact List.nodup_nil
  · intro h
    cases h
  · rfl
  · intro call id h
    cases h

/-- What has become of a call does not change while others are handled, as long as it keeps its place
in the line and the scheduler is over only if it was. -/
theorem Fate.later (h : Fate log s call id answer) (new : List Handling)
    (hnew : ∀ h ∈ new, h.call ≠ call) (hqueue : (call, id) ∈ s.commands → (call, id) ∈ s'.commands)
    (hover : s'.stage = .over ↔ s.stage = .over) : Fate (log ++ new) s' call id answer := by
  have hnone (hlog : ∀ h ∈ log, h.call ≠ call) : ∀ h ∈ log ++ new, h.call ≠ call := by
    intro h hmem
    rcases List.mem_append.mp hmem with hmem | hmem
    · exact hlog h hmem
    · exact hnew h hmem
  cases h with
  | waiting hwaits hlog hstage =>
    exact .waiting (hqueue hwaits) (hnone hlog) fun h => hstage (hover.mp h)
  | begun h hlog hcall hid number hbegun =>
    exact .begun h (List.mem_append_left new hlog) hcall hid number hbegun
  | unknown h hlog hcall hid hbegun hjob =>
    exact .unknown h (List.mem_append_left new hlog) hcall hid hbegun hjob
  | busy h hlog hcall hid hbegun number r hway hjob =>
    exact .busy h (List.mem_append_left new hlog) hcall hid hbegun number r hway hjob
  | refused hlog hstage => exact .refused (hnone hlog) (hover.mpr hstage)

theorem answerTo_of_answers (h : s'.answers = s.answers) (call : Nat) :
    s'.answerTo call = s.answerTo call := by rw [answerTo, h, answerTo]

theorem Aside.accounted (ha : Aside s s') (h : s.Accounted asked log) : s'.Accounted asked log := by
  have hanswer := answerTo_of_answers ha.answers
  constructor
  · rw [ha.answers]
    exact h.answers
  · intro p hp
    rw [ha.commands] at hp
    rw [hanswer]
    exact h.queue p hp
  · rw [ha.commands]
    exact h.order
  · intro k hk
    rw [hanswer]
    exact h.handled k hk
  · exact h.once
  · intro hover
    rw [ha.commands]
    exact h.ended (ha.ended.mp hover)
  · rw [ha.byHand]
    exact h.byHand
  · intro call id hid
    rw [hanswer]
    have hfate := (h.fate call id hid).later [] (by simp) (fun hq => ha.commands ▸ hq) ha.ended
    rwa [List.append_nil] at hfate

theorem answerTo_append (answer : Option (Except JobError Unit))
    (h : s'.answers = s.answers ++ [answer]) (call : Nat) :
    s'.answerTo call = if call = s.answers.length then answer else s.answerTo call := by
  rw [answerTo, h, List.getElem?_append, List.getElem?_singleton, answerTo]
  by_cases hlt : call < s.answers.length
  · simp [hlt, Nat.ne_of_lt hlt]
  · by_cases heq : call = s.answers.length
    · simp [heq]
    · have hbeyond : call - s.answers.length ≠ 0 := by omega
      simp [hlt, heq, hbeyond]

/-- A call that comes in is refused at once by a scheduler that is over, and is put last in line
otherwise. -/
inductive CameIn (s : Scheduler) (id : String) : Option (Except JobError Unit) →
    List (Nat × String) → Prop
  | refused (h : s.stage = .over) : CameIn s id (some (.error .schedulerUnavailable)) []
  | waits (h : s.stage ≠ .over) : CameIn s id none [(s.answers.length, id)]

theorem call_cameIn (s : Scheduler) (id : String) :
    ∃ answer waiting, CameIn s id answer waiting ∧ (s.call id).2.answers = s.answers ++ [answer] ∧
      (s.call id).2.commands = s.commands ++ waiting := by
  unfold call
  dsimp only
  by_cases hover : s.stage = .over
  · rw [if_pos hover]
    exact ⟨_,_,.refused hover,rfl,(List.append_nil _).symm⟩
  · rw [if_neg hover]
    exact ⟨_,_,.waits hover,rfl,rfl⟩

theorem call_accounted (id : String) (h : s.Accounted asked log) :
    (s.call id).2.Accounted (asked ++ [id]) log := by
  obtain ⟨answer, waiting, hcame, hanswers, hcommands⟩ := call_cameIn s id
  have hstill := call_still s id
  have hanswer := answerTo_append answer hanswers
  -- the call gets a number that no other call has
  have hold : ∀ call other, asked[call]? = some other →
      (asked ++ [id])[call]? = some other ∧ (s.call id).2.answerTo call = s.answerTo call := by
    intro call other hasked
    have hlt := (List.getElem?_eq_some_iff.mp hasked).1
    rw [hanswer, if_neg (by rw [h.answers]; omega)]
    exact ⟨(List.getElem?_append_left hlt).trans hasked,rfl⟩
  have hnew : (asked ++ [id])[s.answers.length]? = some id := by
    rw [h.answers, List.getElem?_concat_length]
  have hlog : ∀ k ∈ log, k.call ≠ s.answers.length := by
    intro k hk heq
    have hlt := (List.getElem?_eq_some_iff.mp (h.handled k hk).1).1
    rw [heq, h.answers] at hlt
    exact Nat.lt_irrefl _ hlt
  constructor
  · rw [hanswers, List.length_append, List.length_append, h.answers]
    rfl
  · intro p hp
    rw [hcommands] at hp
    rcases List.mem_append.mp hp with hp | hp
    · obtain ⟨hasked, hnone⟩ := h.queue p hp
      obtain ⟨hasked', hsame⟩ := hold _ _ hasked
      exact ⟨hasked',hsame.trans hnone⟩
    · cases hcame with
      | refused hover => cases hp
      | waits hover =>
        cases List.mem_singleton.mp hp
        exact ⟨hnew,by rw [hanswer, if_pos rfl]⟩
  · rw [hcommands, List.map_append]
    refine List.nodup_append.mpr ⟨h.order, ?_, ?_⟩
    · cases hcame <;> simp
    · intro a ha b hb
      obtain ⟨p, hp, rfl⟩ := List.mem_map.mp ha
      have hlt := (List.getElem?_eq_some_iff.mp (h.queue p hp).1).1
      cases hcame with
      | refused hover => cases hb
      | waits hover =>
        cases List.mem_singleton.mp hb
        rw [h.answers]
        exact Nat.ne_of_lt hlt
  · intro k hk
    obtain ⟨hasked, hsome⟩ := h.handled k hk
    obtain ⟨hasked', hsame⟩ := hold _ _ hasked
    exact ⟨hasked',by rw [hsame]; exact hsome⟩
  · exact h.once
  · intro hover
    rw [hstill.stage] at hover
    rw [hcommands, h.ended hover]
    cases hcame with
    | refused hover => rfl
    | waits hopen => exact absurd hover hopen
  · rw [byHand_of_runs hstill.runs]
    exact h.byHand
  · intro call other hasked
    rw [List.getElem?_append] at hasked
    split at hasked
    · rw [(hold call other hasked).2]
      have hfate : Fate (log ++ []) (s.call id).2 call other (s.answerTo call) := by
        apply (h.fate call other hasked).later [] (by simp)
        · intro hwaits
          rw [hcommands]
          exact List.mem_append_left _ hwaits
        · rw [hstill.stage]
      rwa [List.append_nil] at hfate
    · rw [List.getElem?_singleton] at hasked
      split at hasked
      · cases hasked
        have hcall : call = s.answers.length := by rw [h.answers]; omega
        rw [hanswer, if_pos hcall, hcall]
        cases hcame with
        | refused hover => exact .refused hlog (hstill.stage.trans hover)
        | waits hopen =>
          refine .waiting ?_ hlog (hstill.stage ▸ hopen)
          rw [hcommands]
          exact List.mem_append_right _ (List.mem_singleton_self _)
      · cases hasked

/-- A scheduler that is over has refused everybody who waited. -/
theorem Refuses.accounted (hr : Refuses s s') (h : s.Accounted asked log) :
    s'.Accounted asked log := by
  have hanswer : ∀ call id, asked[call]? = some id → s'.answerTo call =
      (s.answerTo call).or (some (.error .schedulerUnavailable)) := by
    intro call id hasked
    have hlt := (List.getElem?_eq_some_iff.mp hasked).1
    rw [← h.answers] at hlt
    rw [answerTo, hr.answers, List.getElem?_map, answerTo, List.getElem?_eq_getElem hlt]
    rfl
  constructor
  · rw [hr.answers, List.length_map]
    exact h.answers
  · intro p hp
    rw [hr.commands] at hp
    cases hp
  · rw [hr.commands]
    exact List.nodup_nil
  · intro k hk
    obtain ⟨hasked, hsome⟩ := h.handled k hk
    refine ⟨hasked, ?_⟩
    rw [hanswer _ _ hasked, Option.isSome_or, hsome, Bool.true_or]
  · exact h.once
  · exact fun _ => hr.commands
  · rw [hr.byHand]
    exact h.byHand
  · intro call id hasked
    rw [hanswer call id hasked]
    have hfate := h.fate call id hasked
    generalize s.answerTo call = answer at hfate
    cases hfate with
    | waiting hqueue hlog hstage => exact .refused hlog hr.ended
    | begun k hk hcall hid number hbegun => exact .begun k hk hcall hid number hbegun
    | unknown k hk hcall hid hbegun hjob => exact .unknown k hk hcall hid hbegun hjob
    | busy k hk hcall hid hbegun number r hway hjob =>
      exact .busy k hk hcall hid hbegun number r hway hjob
    | refused hlog hstage => exact .refused hlog hr.ended

theorem answerTo_answer (s : Scheduler) (number : Nat) (result : Except JobError Unit)
    (hlt : number < s.answers.length) (call : Nat) :
    (s.answer number result).answerTo call =
      if call = number then some result else s.answerTo call := by
  rw [answerTo, answer, List.getElem?_modify, answerTo]
  by_cases heq : call = number
  · simp [heq, List.getElem?_eq_getElem hlt]
  · simp [heq, Ne.symm heq]

/-- What a call for a tick of the job comes to: the ticks that begin, and the answer. -/
inductive Outcome (s : Scheduler) (id : String) : List Tick → Except JobError Unit → Prop
  | unknown (hjob : s.job? id = none) : Outcome s id [] (.error (.notFound id))
  | busy (hrunning : id ∈ s.board.running) : Outcome s id [] (.error (.alreadyRunning id))
  | begun : Outcome s id [⟨s.runs.length, .manual, id⟩] (.ok ())

theorem trigger_outcome (s : Scheduler) (id : String) (now : Nat) :
    ∃ new, Outcome s id new (s.trigger id now).1 ∧ (s.trigger id now).2.begun = s.begun ++ new ∧
      (s.trigger id now).2.answers = s.answers ∧ (s.trigger id now).2.stage = s.stage := by
  unfold trigger
  split
  · rename_i hjob
    exact ⟨[],.unknown (Option.isNone_iff_eq_none.mp hjob),(List.append_nil _).symm,rfl,rfl⟩
  · cases hb : s.beginRun id .manual now with
    | none =>
      have hrunning := (beginRun_none s id .manual now).mp hb
      exact ⟨[],.busy hrunning,(List.append_nil _).symm,rfl,rfl⟩
    | some began =>
      obtain ⟨hbegins, -⟩ := beginRun_begins s began id .manual now hb
      obtain ⟨-, hanswers⟩ := beginRun_calls id .manual now hb
      exact ⟨_,.begun,begun_append s began _ hbegins.runs,hanswers,hbegins.stage⟩

theorem Outcome.byHand {new : List Tick} {result : Except JobError Unit}
    (h : Outcome s id new result) : new.filter (fun tick => tick.trigger = .manual) = new := by
  cases h <;> rfl

/-- The answer to a call that is handled tells which tick has begun, or why none has. -/
theorem Outcome.fate {new : List Tick} {result : Except JobError Unit}
    (h : Outcome s id new result) (hturn : s.InTurn) (hnew : s'.begun = s.begun ++ new)
    (hlog : ⟨call, id, s, s'⟩ ∈ log) : Fate log s' call id (some result) := by
  have hbegun : (Handling.mk call id s s').begun = new := by
    rw [Handling.begun, hnew, List.drop_left]
  cases h with
  | unknown hjob => exact .unknown _ hlog rfl rfl hbegun hjob
  | busy hrunning =>
    obtain ⟨number, r, hway, hjob⟩ := (hturn.marked id).mp hrunning
    exact .busy _ hlog rfl rfl hbegun number r hway hjob
  | begun => exact .begun _ hlog rfl rfl _ hbegun

theorem handleCall_accounted (call : Nat) (id : String) (rest : List (Nat × String)) (now : Nat)
    (hturn : s.InTurn) (hcommands : s.commands = (call, id) :: rest)
    (hs : s.handleCall? now = some s') (h : s.Accounted asked log) :
    s'.Accounted asked (log ++ [⟨call, id, s, s'⟩]) := by
  obtain ⟨hserving, call', id', rest', hcommands', hs'⟩ := handleCall_eq_some s s' now hs
  cases hcommands.symm.trans hcommands'
  obtain ⟨new, houtcome, hbegun, hanswers, hstage⟩ := trigger_outcome s id now
  have hrest : s'.commands = rest := by rw [hs']; rfl
  have hnew : s'.begun = s.begun ++ new := by rw [← hbegun, hs']; rfl
  have hopen : s'.stage = .serving := by rw [← hserving, ← hstage, hs']; rfl
  obtain ⟨hasked, hwaits⟩ := h.queue (call, id) (by rw [hcommands]; exact List.mem_cons_self)
  have horder := h.order
  rw [hcommands, List.map_cons, List.nodup_cons] at horder
  have hlt : call < s.answers.length := by
    rw [h.answers]
    exact (List.getElem?_eq_some_iff.mp hasked).1
  have hanswer : ∀ other, s'.answerTo other =
      if other = call then some (s.trigger id now).1 else s.answerTo other := by
    intro other
    rw [hs', answerTo_answer _ _ _ (by rw [← hanswers] at hlt; exact hlt)]
    congr 1
    exact answerTo_of_answers (s := s) hanswers other
  -- a call that was handled before has its answer, and this one had none
  have hfirst : ∀ k ∈ log, k.call ≠ call := by
    intro k hk heq
    have hsome := (h.handled k hk).2
    rw [heq, hwaits] at hsome
    cases hsome
  constructor
  · rw [← h.answers, hs', answer, List.length_modify]
    exact congrArg List.length hanswers
  · intro p hp
    rw [hrest] at hp
    obtain ⟨hasked, hnone⟩ := h.queue p (by rw [hcommands]; exact List.mem_cons_of_mem _ hp)
    have hne : p.1 ≠ call := by
      intro heq
      have hmem : p.1 ∈ rest.map Prod.fst := List.mem_map_of_mem hp
      rw [heq] at hmem
      exact horder.1 hmem
    rw [hanswer, if_neg hne]
    exact ⟨hasked,hnone⟩
  · rw [hrest]
    exact horder.2
  · intro k hk
    rw [hanswer]
    rcases List.mem_append.mp hk with hk | hk
    · rw [if_neg (hfirst k hk)]
      exact h.handled k hk
    · cases List.mem_singleton.mp hk
      rw [if_pos rfl]
      exact ⟨hasked,rfl⟩
  · rw [List.map_append]
    refine List.nodup_append.mpr ⟨h.once, List.pairwise_singleton _ _, ?_⟩
    intro a ha b hb
    obtain ⟨k, hk, rfl⟩ := List.mem_map.mp ha
    cases List.mem_singleton.mp hb
    exact hfirst k hk
  · intro hover
    rw [hopen] at hover
    cases hover
  · rw [byHand, hnew, List.filter_append, houtcome.byHand, ← byHand, h.byHand, List.flatMap_append,
      List.flatMap_singleton, Handling.begun, hnew, List.drop_left]
  · intro other id' hasked'
    rw [hanswer]
    by_cases heq : other = call
    · subst heq
      cases hasked.symm.trans hasked'
      rw [if_pos rfl]
      exact houtcome.fate hturn hnew (List.mem_append_right _ (List.mem_singleton_self _))
    · rw [if_neg heq]
      apply (h.fate other id' hasked').later
      · intro k hk
        cases List.mem_singleton.mp hk
        exact Ne.symm heq
      · intro hmem
        rw [hcommands] at hmem
        rw [hrest]
        rcases List.mem_cons.mp hmem with hhead | hmem
        · cases hhead
          exact absurd rfl heq
        · exact hmem
      · rw [hopen, hserving]

theorem Attends.accounted {now : Nat} {new : List String} {handled : List Handling}
    (ha : Attends s now new handled s') (hturn : s.InTurn) (h : s.Accounted asked log) :
    s'.Accounted (asked ++ new) (log ++ handled) := by
  cases ha with
  | aside _ ha =>
    rw [List.append_nil, List.append_nil]
    exact ha.accounted h
  | called id =>
    rw [List.append_nil]
    exact call_accounted id h
  | handled call id rest _ hcommands hs =>
    rw [List.append_nil]
    exact handleCall_accounted call id rest now hturn hcommands hs h
  | refused _ hr =>
    rw [List.append_nil, List.append_nil]
    exact hr.accounted h

end Scheduler

namespace Moment

open Scheduler

theorem after_accounted (settings : Config.JobsSettings) (now : Nat) (moves : List Move) :
    ((new settings now).after moves).scheduler.Accounted (jobsAsked moves)
      ((new settings now).handlings moves) := by
  induction moves using List.reverseRecOn with
  | nil => exact accounted_new settings
  | append_singleton moves move ih =>
    have hturn := (after_orderly (new settings now) (orderly_new settings) moves).inTurn
    rw [after_concat, handlings_concat, jobsAsked_concat]
    exact (play_attends _ move).accounted hturn ih

/-! ## Main statement -/

/-- After any moves of a new scheduler, no call has been handled twice, and the ticks that were started
by hand are those that began as calls were handled. A call that was answered well has begun one tick, of
its job. One that found no such job, or a tick of it in progress, has begun none; one that was refused
was never handled, and the scheduler is over; and only as long as it is not over can a call wait. -/
theorem calls_answered_as_handled (settings : Config.JobsSettings) (now : Nat) (moves : List Move) :
    let s := ((new settings now).after moves).scheduler
    let log := (new settings now).handlings moves
    (log.map Handling.call).Nodup ∧
    s.byHand = log.flatMap Handling.begun ∧
    s.answers.length = (jobsAsked moves).length ∧
    ∀ call id, (jobsAsked moves)[call]? = some id → Fate log s call id (s.answerTo call) := by
  intro s log
  have h := after_accounted settings now moves
  exact ⟨h.once,h.byHand,h.answers,h.fate⟩

end Moment
end VmFleet.Jobs
