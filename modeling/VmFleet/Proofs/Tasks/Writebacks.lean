import VmFleet.Proofs.Store.Lookup
import VmFleet.Proofs.Tasks.Snapshots

/-!
# Machines written back

Tasks, provisioning and ticks that move machines up go on side by side, and each call on the records is
one step. What tasks store of machines is put down in the books. Of each machine that background work
writes back it is put down what it held, what tasks have stored since it was shown that, and what it has
found in its place.
-/

set_option autoImplicit false

namespace VmFleet

/-- Whose the machine is, and where it runs. -/
def Machine.placement (m : Machine) : String × Provider := (m.ownerId, m.provider)

namespace Tasks

open Security Store Delegation

/-- Somebody at work, in the background or for a task, with what they have been shown of the machines
and the number of entries in the books at that moment. -/
structure Hand where
  isBackground : Bool
  rest : Program Unit
  held : List Machine
  mark : Nat

/-- A machine that was written back. -/
structure Stroke where
  held : List Machine
  since : List Machine
  before : Option Machine
  put : Machine
  deriving DecidableEq, Repr

/-- The machine had another owner or provider than it has been given. -/
def Stroke.Reverts (k : Stroke) : Prop :=
  ∃ b, k.before = some b ∧ b.placement ≠ k.put.placement

/-- Whatever owner and provider a task has given the machine last meanwhile, it has got them. -/
def Stroke.Respects (k : Stroke) : Prop :=
  ∀ u, Memory.last? k.put.id k.since = some u → u.placement = k.put.placement

/-- Meanwhile no task has given the machine another owner or provider, or one has given it both of them
back. -/
def Stroke.Undisturbed (k : Stroke) : Prop :=
  ∀ m ∈ k.held, m.id = k.put.id → ∀ u, Memory.last? m.id k.since = some u → u.placement = m.placement

theorem Stroke.respects_iff (k : Stroke) (hput : MovedUp k.held k.put)
    (hids : (k.held.map Machine.id).Nodup) : k.Respects ↔ k.Undisturbed := by
  obtain ⟨held, since, before, put⟩ := k
  obtain ⟨m, hm, rfl⟩ := hput
  constructor
  · intro h n hn hid u hu
    have hnm : n = m := List.inj_on_of_nodup_map hids hn hm hid
    subst hnm
    exact h u hu
  · intro h u hu
    exact h m hm rfl u hu

structure Scene where
  records : Records
  hands : List Hand
  /-- The machines that tasks have stored, in order. -/
  books : List Machine
  strokes : List Stroke

/-- The machine that is stored under an id. -/
def standing (r : Records) (id : String) : Option Machine :=
  match r.machines.repository.records with
  | .ok ms => Memory.find ms id
  | .error _ => none

def Hand.answered (h : Hand) (e : Effect) (answer : e.Answer) (rest : Program Unit) (count : Nat) :
    Hand :=
  match captured? e answer with
  | some held => { h with rest, held, mark := count }
  | none => { h with rest }

namespace Scene

/-- One of those at work has been answered. -/
def went (f : Scene) (before after : List Hand) (h : Hand) (e : Effect) (answer : e.Answer)
    (rest : Program Unit) (records : Records) (started : List Machine) : Scene :=
  let books := if h.isBackground then f.books else f.books ++ stores e answer
  { records
    books
    hands := before ++ h.answered e answer rest books.length ::
      (after ++ started.map fun m => ⟨true,provisioning m,h.held,h.mark⟩)
    strokes := if h.isBackground then f.strokes ++ (stores e answer).map fun w =>
        ⟨h.held,f.books.drop h.mark,standing f.records w.id,w⟩
      else f.strokes }

inductive Step : Scene → Scene → Prop
  | begin (f : Scene) (q : Program Unit) (hq : RunsTask q) :
      Step f { f with hands := ⟨false,q,[],0⟩ :: f.hands }
  | tick (f : Scene) (n : Nat) :
      Step f { f with hands := ⟨true,(Jobs.updateStatusJob.work n).forget,[],0⟩ :: f.hands }
  | go (f : Scene) (before after : List Hand) (h : Hand) (e : Effect)
      (next : e.Answer → Program Unit) (answer : e.Answer) (r' : Records) (started : List Machine)
      (hf : f.hands = before ++ h :: after) (hrest : h.rest = .perform e next)
      (hreply : Reply f.records e answer r' started) (hserved : Served e answer) :
      Step f (f.went before after h e answer (next answer) r' started)

def Run : Scene → Scene → Prop := Relation.ReflTransGen Step

/-- Nobody is at work yet, and the books tell what is stored. -/
def quiet (r : Records) (ms : List Machine) : Scene := ⟨r,[],ms,[]⟩

def Clean (f : Scene) : Prop := ∀ k ∈ f.strokes, ¬ k.Reverts

end Scene

/-! ## What an answer does to the machines -/

/-- What is stored now is what has been stored just now or was before, and what was shown is stored. -/
structure Told (ms : List Machine) (e : Effect) (answer : e.Answer) (ms' : List Machine) : Prop where
  found : ∀ id, Memory.find ms' id = (Memory.last? id (stores e answer)).or (Memory.find ms id)
  shown : ∀ held, captured? e answer = some held →
    (held.map Machine.id).Nodup ∧ ∀ m ∈ held, Memory.find ms' m.id = some m

theorem told_still (ms : List Machine) (e : Effect) (answer : e.Answer) (hs : stores e answer = [])
    (hc : captured? e answer = none) : Told ms e answer ms := by
  constructor
  · intro id
    rw [hs]
    rfl
  · intro held hheld
    rw [hc] at hheld
    cases hheld

theorem told_error (ms : List Machine) (call : Call Machine) (e : StoreError) :
    Told ms (.machines call) (.error e) ms := by
  apply told_still
  · cases call with
    | add m ensureUnique => cases ensureUnique <;> rfl
    | _ => rfl
  · cases call <;> rfl

theorem told_run (ms : List Machine) (hids : (ms.map Machine.id).Nodup) (isBackground : Bool)
    (held : List Machine) (call : Call Machine) (hmay : May isBackground held (.machines call)) :
    Told ms (.machines call) (Memory.run ms call).1 (Memory.run ms call).2 := by
  cases call with
  | getAll =>
    constructor
    · intro id
      rfl
    · intro held hheld
      cases hheld
      exact ⟨hids,fun m hm => Memory.find_eq_of_mem ms hids m hm⟩
  | get id => exact told_still ms _ _ rfl rfl
  | add m ensureUnique =>
    obtain ⟨-, rfl⟩ := hmay
    rcases Memory.add_cases ms m true with ⟨e, -, hadd⟩ | ⟨hnew, hadd⟩
    · simp only [Memory.run, hadd]
      exact told_error ms _ _
    · rw [Memory.append_eq_place ms m hnew] at hadd
      simp only [Memory.run, hadd]
      constructor
      · exact Memory.find_placeAll [m] ms
      · intro held hheld
        cases hheld
        exact ⟨List.nodup_singleton _,by simp [Memory.find_place, Keyed.id]⟩
  | put w =>
    rcases Memory.put_cases ms w with ⟨-, hput⟩ | ⟨-, hput⟩
    · simp only [Memory.run, hput]
      exact told_error ms _ _
    · simp only [Memory.run, hput]
      constructor
      · exact Memory.find_placeAll [w] ms
      · intro held hheld
        cases hheld
  | putAll ws =>
    rcases Memory.putAll_cases ms ws with ⟨w, -, -, hput⟩ | ⟨-, hput⟩
    · simp only [Memory.run, hput]
      exact told_error ms _ _
    · simp only [Memory.run, hput]
      constructor
      · exact Memory.find_placeAll ws ms
      · intro held hheld
        cases hheld
  | delete id => exact hmay.elim

theorem reply_told (r r' : Records) (e : Effect) (answer : e.Answer) (started : List Machine)
    (isBackground : Bool) (held ms : List Machine) (hms : r.machines.repository.Holds ms)
    (hreply : Reply r e answer r' started) (hmay : May isBackground held e) :
    ∃ ms', r'.machines.repository.Holds ms' ∧ Told ms e answer ms' := by
  cases hreply with
  | machines call =>
    rcases machines_held r call ms hms with ⟨⟨reason, herror⟩, h⟩ | ⟨hanswer, h⟩
    · rw [herror]
      exact ⟨ms,h,told_error ms call _⟩
    · rw [hanswer]
      have hids := Repository.holds_nodup _ ms hms
      exact ⟨_,h,told_run ms hids isBackground held call hmay⟩
  | _ => exact ⟨ms,hms,told_still ms _ _ rfl rfl⟩

theorem reply_started (r r' : Records) (e : Effect) (answer : e.Answer) (started : List Machine)
    (isBackground : Bool) (held : List Machine) (hreply : Reply r e answer r' started)
    (hmay : May isBackground held e) :
    ∀ m ∈ started, held = [m] := by
  intro m hm
  cases hreply with
  | provision n =>
    cases List.mem_singleton.mp hm
    exact hmay.2
  | _ => cases hm

/-- What background work stores is what it holds, moved up. -/
theorem stores_movedUp (held : List Machine) (e : Effect) (answer : e.Answer)
    (hmay : May true held e) : ∀ w ∈ stores e answer, MovedUp held w := by
  intro w hw
  cases e with
  | machines call =>
    cases call with
    | put m =>
      cases answer with
      | ok stored =>
        cases List.mem_singleton.mp hw
        exact hmay.2
      | error e => cases hw
    | putAll ms =>
      cases answer with
      | ok stored => exact hmay rfl w hw
      | error e => cases hw
    | add m ensureUnique => cases hmay.1
    | _ => cases hw
  | _ => cases hw

/-! ## What holds of those at work -/

/-- Every machine is where the books say. -/
def Booked (ms books : List Machine) : Prop :=
  ∀ id, (Memory.find ms id).map Machine.placement = (Memory.last? id books).map Machine.placement

/-- What somebody at work holds is stored, and is what the books said when it was shown, provided that
nothing has been reverted. -/
structure Hand.Fine (h : Hand) (ms books : List Machine) (isClean : Prop) : Prop where
  heeds : h.rest.Heeds h.isBackground (fun _ _ => True) h.held
  ids : (h.held.map Machine.id).Nodup
  mark : h.mark ≤ books.length
  stored : ∀ m ∈ h.held, (Memory.find ms m.id).isSome = true
  known : isClean → ∀ m ∈ h.held,
    (Memory.last? m.id (books.take h.mark)).map Machine.placement = some m.placement

section

variable {h : Hand} {ms ms' books : List Machine} {isClean isClean' : Prop} {e : Effect}
  {answer : e.Answer}

theorem Told.isSome (ht : Told ms e answer ms') (id : String)
    (hid : (Memory.find ms id).isSome = true) : (Memory.find ms' id).isSome = true := by
  rw [ht.found, Option.isSome_or, hid, Bool.or_true]

theorem Hand.Fine.later (hf : h.Fine ms books isClean) (ht : Told ms e answer ms')
    (new : List Machine) (hc : isClean' → isClean) : h.Fine ms' (books ++ new) isClean' := by
  refine ⟨hf.heeds,hf.ids,?_,fun m hm => ht.isSome m.id (hf.stored m hm),?_⟩
  · rw [List.length_append]
    exact Nat.le_add_right_of_le hf.mark
  · intro hclean m hm
    rw [List.take_append_of_le_length hf.mark]
    exact hf.known (hc hclean) m hm

theorem Hand.Fine.answered (hf : h.Fine ms books isClean) (next : e.Answer → Program Unit)
    (hrest : h.rest = .perform e next) (hserved : Served e answer) (ht : Told ms e answer ms')
    (new : List Machine) (hc : isClean' → isClean) (hb : isClean' → Booked ms' (books ++ new)) :
    (h.answered e answer (next answer) (books ++ new).length).Fine ms' (books ++ new) isClean' := by
  have hheeds := hf.heeds
  rw [hrest] at hheeds
  have hnext := hheeds.2 answer hserved
  unfold Hand.answered
  cases hcaptured : captured? e answer with
  | none =>
    rw [hcaptured] at hnext
    have hlater := hf.later ht new hc
    exact ⟨hnext,hlater.ids,hlater.mark,hlater.stored,hlater.known⟩
  | some held =>
    rw [hcaptured] at hnext
    obtain ⟨hids, hfind⟩ := ht.shown held hcaptured
    refine ⟨hnext,hids,Nat.le_refl _,?_,?_⟩
    · intro m hm
      rw [hfind m hm]
      rfl
    · intro hclean m hm
      rw [List.take_length, ← hb hclean m.id, hfind m hm]
      rfl

/-- Who provisions a machine has seen of the books what the task had seen that has created it. -/
theorem Hand.Fine.started (hf : h.Fine ms books isClean) (m : Machine) (hheld : h.held = [m]) :
    (Hand.mk true (provisioning m) h.held h.mark).Fine ms books isClean := by
  have hheeds : (provisioning m).Heeds true (fun _ _ => True) h.held := by
    rw [hheld]
    exact provisioning_heeds m
  exact ⟨hheeds,hf.ids,hf.mark,hf.stored,hf.known⟩

theorem Booked.stored (hb : Booked ms books) (ht : Told ms e answer ms') :
    Booked ms' (books ++ stores e answer) := by
  intro id
  rw [ht.found, Memory.last_append, Option.map_or, Option.map_or, hb id]

/-- Of a machine that is written back nothing is reverted exactly when it was undisturbed. -/
theorem Hand.Fine.undisturbed_iff (hf : h.Fine ms books isClean) (hc : isClean)
    (hb : Booked ms books) (w : Machine) (hw : MovedUp h.held w) :
    (Stroke.mk h.held (books.drop h.mark) (Memory.find ms w.id) w).Undisturbed ↔
      ¬ (Stroke.mk h.held (books.drop h.mark) (Memory.find ms w.id) w).Reverts := by
  obtain ⟨m, hm, rfl⟩ := hw
  obtain ⟨b, hbefore⟩ := Option.isSome_iff_exists.mp (hf.stored m hm)
  -- what is stored is what was held, unless a task has stored something since
  have hplace : some b.placement =
      ((Memory.last? m.id (books.drop h.mark)).map Machine.placement).or (some m.placement) := by
    have hbooked := hb m.id
    rw [← List.take_append_drop h.mark books, Memory.last_append, Option.map_or, hf.known hc m hm,
      hbefore] at hbooked
    exact hbooked
  constructor
  · rintro hundisturbed ⟨c, hc, hne⟩
    have hcb : c = b := Option.some.inj (hc.symm.trans hbefore)
    apply hne
    cases hlast : Memory.last? m.id (books.drop h.mark) with
    | none =>
      rw [hlast] at hplace
      rw [hcb, Option.some.inj hplace]
      rfl
    | some u =>
      have hu := hundisturbed m hm rfl u hlast
      rw [hlast] at hplace
      rw [hcb, Option.some.inj hplace, hu]
      rfl
  · intro hreverts n hn hid u hu
    have hnm : n = m := List.inj_on_of_nodup_map hf.ids hn hm hid
    subst hnm
    rw [hu] at hplace
    have hub : b.placement = u.placement := Option.some.inj hplace
    by_contra hne
    exact hreverts ⟨b,hbefore,hub ▸ hne⟩

/-- Machines written back that revert nothing leave the books in order. -/
theorem Booked.writtenBack (hb : Booked ms books) (ht : Told ms e answer ms')
    (hback : ∀ w ∈ stores e answer, ∃ b, Memory.find ms w.id = some b ∧ b.placement = w.placement) :
    Booked ms' books := by
  intro id
  rw [ht.found]
  cases hlast : Memory.last? id (stores e answer) with
  | none => exact hb id
  | some w =>
    obtain ⟨hw, rfl⟩ := Memory.last_eq_some id _ w hlast
    obtain ⟨b, hfind, hsame⟩ := hback w hw
    have hbooked := hb w.id
    rw [hfind] at hbooked
    rw [Option.some_or, Option.map_some, ← hsame]
    exact hbooked

end

/-! ## Scenes -/

namespace Scene

structure Sane (f : Scene) (ms : List Machine) : Prop where
  machines : f.records.machines.repository.Holds ms
  hands : ∀ h ∈ f.hands, h.Fine ms f.books f.Clean
  booked : f.Clean → Booked ms f.books
  movedUp : ∀ k ∈ f.strokes, MovedUp k.held k.put ∧ (k.held.map Machine.id).Nodup
  undisturbed : f.Clean ↔ ∀ k ∈ f.strokes, k.Undisturbed

variable {f f' : Scene} {ms : List Machine}

theorem standing_of_holds (r : Records) (hms : r.machines.repository.Holds ms) (id : String) :
    standing r id = Memory.find ms id := by
  rw [standing, Repository.holds_records _ ms hms]

theorem quiet_sane (r : Records) (hms : r.machines.repository.Holds ms) : (quiet r ms).Sane ms := by
  have hids := Repository.holds_nodup _ ms hms
  constructor
  · exact hms
  · intro h hh
    cases hh
  · intro _ id
    rw [quiet, Memory.last_eq_find ms hids]
  · intro k hk
    cases hk
  · simp [Clean, quiet]

/-- Whoever comes in holds nothing. -/
theorem Sane.came (h : f.Sane ms) (q : Program Unit) (isBackground : Bool)
    (hq : q.Heeds isBackground (fun _ _ => True) []) :
    Sane { f with hands := ⟨isBackground,q,[],0⟩ :: f.hands } ms := by
  refine ⟨h.machines,?_,h.booked,h.movedUp,h.undisturbed⟩
  intro hand hhand
  rcases List.mem_cons.mp hhand with rfl | hhand
  · exact ⟨hq,List.nodup_nil,Nat.zero_le _,by simp,by simp⟩
  · exact h.hands hand hhand

section

variable (before after : List Hand) (h : Hand) (e : Effect) (next : e.Answer → Program Unit)
  (answer : e.Answer) (r' : Records) (started : List Machine) (ms' : List Machine)

/-- All who are at work afterwards, when this has been put down in the books and nothing is reverted
that was not reverted before. -/
theorem Sane.later (hs : f.Sane ms) (hf : f.hands = before ++ h :: after)
    (hrest : h.rest = .perform e next) (hserved : Served e answer) (ht : Told ms e answer ms')
    (hstarted : ∀ m ∈ started, h.held = [m]) (new : List Machine) (isClean : Prop)
    (hc : isClean → f.Clean) (hb : isClean → Booked ms' (f.books ++ new)) :
    ∀ g ∈ before ++ h.answered e answer (next answer) (f.books ++ new).length ::
        (after ++ started.map fun m => ⟨true,provisioning m,h.held,h.mark⟩),
      g.Fine ms' (f.books ++ new) isClean := by
  have hothers : ∀ g ∈ f.hands, g.Fine ms' (f.books ++ new) isClean :=
    fun g hg => (hs.hands g hg).later ht new hc
  have hfine : h.Fine ms f.books f.Clean := hs.hands h (by simp [hf])
  intro g hg
  simp only [List.mem_append, List.mem_cons, List.mem_map] at hg
  rcases hg with hg | rfl | hg | ⟨m, hm, rfl⟩
  · exact hothers g (by simp [hf, hg])
  · exact hfine.answered next hrest hserved ht new hc hb
  · exact hothers g (by simp [hf, hg])
  · exact (hfine.later ht new hc).started m (hstarted m hm)

theorem task_sane (hs : f.Sane ms) (hf : f.hands = before ++ h :: after)
    (hrest : h.rest = .perform e next) (hserved : Served e answer) (ht : Told ms e answer ms')
    (hms' : r'.machines.repository.Holds ms') (hstarted : ∀ m ∈ started, h.held = [m])
    (htask : h.isBackground = false) :
    (f.went before after h e answer (next answer) r' started).Sane ms' := by
  have hb : f.Clean → Booked ms' (f.books ++ stores e answer) := fun hc => (hs.booked hc).stored ht
  have hhands := hs.later before after h e next answer started ms' hf hrest hserved ht hstarted
    (stores e answer) f.Clean id hb
  unfold went
  simp only [htask, Bool.false_eq_true, if_false]
  exact ⟨hms',hhands,hb,hs.movedUp,hs.undisturbed⟩

theorem background_sane (hs : f.Sane ms) (hf : f.hands = before ++ h :: after)
    (hrest : h.rest = .perform e next) (hserved : Served e answer) (ht : Told ms e answer ms')
    (hms' : r'.machines.repository.Holds ms') (hstarted : ∀ m ∈ started, h.held = [m])
    (hbackground : h.isBackground = true) (hmay : May true h.held e) :
    (f.went before after h e answer (next answer) r' started).Sane ms' := by
  have hfine : h.Fine ms f.books f.Clean := hs.hands h (by simp [hf])
  have hmoved := stores_movedUp h.held e answer hmay
  unfold went
  simp only [hbackground, if_true, standing_of_holds f.records hs.machines]
  set strokes := (stores e answer).map fun w =>
    Stroke.mk h.held (f.books.drop h.mark) (Memory.find ms w.id) w
  have hclean : (∀ k ∈ f.strokes ++ strokes, ¬ k.Reverts) ↔
      f.Clean ∧ ∀ k ∈ strokes, ¬ k.Reverts := List.forall_mem_append
  have hb : (∀ k ∈ f.strokes ++ strokes, ¬ k.Reverts) → Booked ms' (f.books ++ []) := by
    intro hall
    obtain ⟨hc, hnone⟩ := hclean.mp hall
    rw [List.append_nil]
    apply (hs.booked hc).writtenBack ht
    intro w hw
    obtain ⟨m, hm, rfl⟩ := hmoved w hw
    obtain ⟨b, hfind⟩ := Option.isSome_iff_exists.mp (hfine.stored m hm)
    have hkeeps := hnone _ (List.mem_map_of_mem hw)
    by_cases hsame : b.placement = m.placement
    · exact ⟨b,hfind,hsame⟩
    · exact absurd ⟨b,hfind,hsame⟩ hkeeps
  have hhands := hs.later before after h e next answer started ms' hf hrest hserved ht hstarted []
    _ (fun hall => (hclean.mp hall).1) hb
  rw [List.append_nil] at hb hhands
  refine ⟨hms',hhands,hb,?_,?_⟩
  · intro k hk
    rcases List.mem_append.mp hk with hk | hk
    · exact hs.movedUp k hk
    · obtain ⟨w, hw, rfl⟩ := List.mem_map.mp hk
      exact ⟨hmoved w hw,hfine.ids⟩
  · refine hclean.trans (Iff.trans ?_ List.forall_mem_append.symm)
    rw [← hs.undisturbed]
    apply and_congr_right
    intro hc
    apply forall₂_congr
    intro k hk
    obtain ⟨w, hw, rfl⟩ := List.mem_map.mp hk
    exact (hfine.undisturbed_iff hc (hs.booked hc) w (hmoved w hw)).symm

theorem went_sane (hs : f.Sane ms) (hf : f.hands = before ++ h :: after)
    (hrest : h.rest = .perform e next) (hreply : Reply f.records e answer r' started)
    (hserved : Served e answer) :
    ∃ ms', (f.went before after h e answer (next answer) r' started).Sane ms' := by
  have hfine : h.Fine ms f.books f.Clean := hs.hands h (by simp [hf])
  have hmay : May h.isBackground h.held e := by
    have hheeds := hfine.heeds
    rw [hrest] at hheeds
    exact hheeds.1
  obtain ⟨ms', hms', ht⟩ := reply_told _ _ e answer started _ _ ms hs.machines hreply hmay
  have hstarted := reply_started _ _ e answer started _ _ hreply hmay
  refine ⟨ms',?_⟩
  cases hb : h.isBackground with
  | false =>
    exact task_sane before after h e next answer r' started ms' hs hf hrest hserved ht hms' hstarted hb
  | true =>
    rw [hb] at hmay
    exact background_sane before after h e next answer r' started ms' hs hf hrest hserved ht hms'
      hstarted hb hmay

end

theorem step_sane (hs : Step f f') (h : f.Sane ms) : ∃ ms', f'.Sane ms' := by
  cases hs with
  | begin q hq => exact ⟨ms,h.came q false (runsTask_heeds q hq [])⟩
  | tick n => exact ⟨ms,h.came _ true (work_heeds n [])⟩
  | go before after hand e next answer r' started hf hrest hreply hserved =>
    exact went_sane before after hand e next answer r' started h hf hrest hreply hserved

theorem run_sane (hr : Run f f') (h : f.Sane ms) : ∃ ms', f'.Sane ms' := by
  induction hr with
  | refl => exact ⟨ms,h⟩
  | tail _ hstep ih =>
    obtain ⟨ms', hs⟩ := ih
    exact step_sane hstep hs

/-! ## Scenes as crowds -/

def crowd (f : Scene) : Crowd := ⟨f.records,f.hands.map Hand.rest⟩

/-- Programs that run a task or move machines up. -/
def Works (q : Program Unit) : Prop :=
  RunsTask q ∨ ∃ n, q = (Jobs.updateStatusJob.work n).forget

theorem answered_rest (h : Hand) (e : Effect) (answer : e.Answer) (rest : Program Unit)
    (count : Nat) : (h.answered e answer rest count).rest = rest := by
  unfold Hand.answered
  cases captured? e answer with
  | none => rfl
  | some held => rfl

/-- A scene is a crowd that runs tasks and moves machines up. -/
theorem step_crowd (hs : Step f f') : Crowd.Step Works f.crowd f'.crowd := by
  cases hs with
  | begin q hq => exact .start _ _ (Or.inl hq)
  | tick n => exact .start _ _ (Or.inr ⟨n,rfl⟩)
  | go before after h e next answer r' started hf hrest hreply hserved =>
    have hgo : Crowd.Step Works _ _ := .go (before.map Hand.rest) (after.map Hand.rest) e next answer
      f.records r' started hreply
    simpa [crowd, went, hf, hrest, answered_rest, Function.comp_def] using hgo

/-! ## Runs that are served -/

/-- What a worker replies that always provides. -/
def provided (payload : Except String Json) : Except TransportError Json :=
  match payload with
  | .error reason => .error (.unencodable reason)
  | .ok sent =>
    match Machine.decode sent with
    | .ok m => .ok (m.withStatus .up).encode
    | .error problem => .error (.failure resourceCreate (Worker.badPayload problem))

/-- Answers of records, and of a worker that always provides. -/
def serve (r : Records) : (e : Effect) → e.Answer × Records × List Machine
  | .accounts call => ((r.onAccounts call).1,(r.onAccounts call).2,[])
  | .machines call => ((r.onMachines call).1,(r.onMachines call).2,[])
  | .draw count => ((r.draw count).1,(r.draw count).2,[])
  | .record event => ((),r.record event,[])
  | .provision m => ((),r,[m])
  | .delegate _ payload => (provided payload,r,[])
  | .wait _ => ((),r,[])
  | .isCancelled => (false,r,[])

theorem provided_served (channel : String) (payload : Except String Json) :
    Served (.delegate channel payload) (provided payload) := by
  intro v hv
  cases payload with
  | error reason => cases hv
  | ok sent =>
    simp only [provided] at hv
    cases hd : Machine.decode sent with
    | error problem =>
      rw [hd] at hv
      cases hv
    | ok m =>
      rw [hd] at hv
      cases hv
      refine ⟨sent,rfl,?_⟩
      intro v hv
      cases hv
      exact ⟨m,hd,rfl⟩

theorem serve_reply (r : Records) (e : Effect) :
    Reply r e (serve r e).1 (serve r e).2.1 (serve r e).2.2 ∧ Served e (serve r e).1 := by
  cases e with
  | accounts call => exact ⟨.accounts call,trivial⟩
  | machines call => exact ⟨.machines call,trivial⟩
  | draw count => exact ⟨.draw count _ _,trivial⟩
  | record event => exact ⟨.record event,trivial⟩
  | provision m => exact ⟨.provision m,trivial⟩
  | delegate channel payload => exact ⟨.delegate channel payload _,provided_served channel payload⟩
  | wait millis => exact ⟨.wait millis,trivial⟩
  | isCancelled => exact ⟨.isCancelled false,trivial⟩

/-- The next step of somebody at work, if there is one. -/
def turn (f : Scene) (n : Nat) : Scene :=
  match f.hands[n]? with
  | some h =>
    match h.rest with
    | .perform e next => f.went (f.hands.take n) (f.hands.drop (n + 1)) h e (serve f.records e).1
        (next (serve f.records e).1) (serve f.records e).2.1 (serve f.records e).2.2
    | .done _ => f
  | none => f

def turns (f : Scene) (ns : List Nat) : Scene := ns.foldl turn f

theorem turn_run (f : Scene) (n : Nat) : Run f (f.turn n) := by
  unfold turn
  cases hn : f.hands[n]? with
  | none => exact .refl
  | some h =>
    obtain ⟨hlt, hget⟩ := List.getElem?_eq_some_iff.mp hn
    have hhands : f.hands = f.hands.take n ++ h :: f.hands.drop (n + 1) := by
      rw [← hget, List.getElem_cons_drop, List.take_append_drop]
    dsimp only
    cases hrest : h.rest with
    | done a => exact .refl
    | perform e next =>
      obtain ⟨hreply, hserved⟩ := serve_reply f.records e
      exact .single (.go f _ _ h e next _ _ _ hhands hrest hreply hserved)

theorem turns_run (ns : List Nat) (f : Scene) : Run f (f.turns ns) := by
  induction ns generalizing f with
  | nil => exact .refl
  | cons n ns ih => exact (turn_run f n).trans (ih (f.turn n))

def began (f : Scene) (t : Task) (p : Principal) : Scene :=
  { f with hands := ⟨false,(t.submitTrusted p).run.forget,[],0⟩ :: f.hands }

def ticking (f : Scene) : Scene :=
  { f with hands := ⟨true,(Jobs.updateStatusJob.work 0).forget,[],0⟩ :: f.hands }

theorem began_run (f : Scene) (t : Task) (p : Principal) : Run f (f.began t p) :=
  .single (.begin f _ ⟨t,Or.inl ⟨p,rfl⟩⟩)

theorem ticking_run (f : Scene) : Run f f.ticking := .single (.tick f 0)

def inMemory (ms : List Machine) : Records :=
  ⟨⟨.memory [],0,0,[]⟩,⟨.memory ms,0,0,[]⟩,.empty,0⟩

/-! ## Main statement -/

/-- Whatever goes on side by side, in the background nothing is written back but a machine that was
held, moved up; so it respects what tasks have given the machine meanwhile exactly when it was
undisturbed. Of the owners and providers that are stored none is ever reverted, exactly when all machines
were written back undisturbed; then every machine has those that it was given last. -/
theorem undisturbed_writebacks_revert_nothing (r : Records) (ms : List Machine)
    (hms : r.machines.repository.Holds ms) (f : Scene) (hrun : Run (quiet r ms) f) :
    (∀ k ∈ f.strokes, (∃ m ∈ k.held, k.put = m.withStatus .up) ∧ (k.Respects ↔ k.Undisturbed)) ∧
      ((∀ k ∈ f.strokes, ¬ k.Reverts) ↔ ∀ k ∈ f.strokes, k.Undisturbed) ∧
      ((∀ k ∈ f.strokes, k.Undisturbed) → ∀ id, (standing f.records id).map Machine.placement =
        (Memory.last? id f.books).map Machine.placement) := by
  obtain ⟨ms', hsane⟩ := run_sane hrun (quiet_sane r hms)
  refine ⟨?_,hsane.undisturbed,?_⟩
  · intro k hk
    obtain ⟨hput, hids⟩ := hsane.movedUp k hk
    exact ⟨hput,k.respects_iff hput hids⟩
  · intro hall id
    rw [standing_of_holds f.records hsane.machines]
    exact hsane.booked (hsane.undisturbed.mpr hall) id

/-- A machine is created and provisioned, then given another owner and provider, and a tick that reads it
only then moves it up. Both writes were undisturbed. -/
theorem calm_writebacks_revert_nothing :
    let root := Principal.ofSystem .root
    let id := "VM:" ++ Text.Base64.encode .addressSafe (Records.bytesOf idBytes 1)
    let moved : Machine := ⟨id,.gcp,.initializing,"USER:1"⟩
    let start := quiet (inMemory []) []
    let provisioned := (start.began (.createVm .aws) root).turns [0, 0, 0, 0, 1, 1, 1]
    let calm := ((provisioned.began (.bulkUpdateVms [moved]) root).turns [0, 0]).ticking.turns
      [0, 0, 0, 0, 0]
    Run start calm ∧ calm.strokes.length = 2 ∧ (∀ k ∈ calm.strokes, k.Undisturbed) ∧
      (∀ k ∈ calm.strokes, k.Respects ∧ ¬ k.Reverts) ∧
      standing calm.records id = some (moved.withStatus .up) ∧
      (standing calm.records id).map Machine.placement =
        (Memory.last? id calm.books).map Machine.placement := by
  intro root id moved start provisioned calm
  have hprovisioned : Run start provisioned := (began_run _ _ _).trans (turns_run _ _)
  have hmoved := (began_run provisioned (.bulkUpdateVms [moved]) root).trans (turns_run [0, 0] _)
  have hrun : Run start calm :=
    (hprovisioned.trans hmoved).trans ((ticking_run _).trans (turns_run _ _))
  have hholds : (inMemory []).machines.repository.Holds [] := ⟨rfl,List.nodup_nil⟩
  obtain ⟨heach, hiff, hlast⟩ :=
    undisturbed_writebacks_revert_nothing (inMemory []) [] hholds calm hrun
  have hstrokes : calm.strokes =
      [⟨[⟨id,.aws,.initializing,root.id⟩],[],some ⟨id,.aws,.initializing,root.id⟩,
          ⟨id,.aws,.up,root.id⟩⟩,
        ⟨[moved],[],some moved,moved.withStatus .up⟩] := by
    decide +kernel
  have hundisturbed : ∀ k ∈ calm.strokes, k.Undisturbed := by
    rw [hstrokes]
    intro k hk
    rcases List.mem_cons.mp hk with rfl | hk
    · intro m _ _ u hu
      cases hu
    · cases List.mem_singleton.mp hk
      intro m _ _ u hu
      cases hu
  have hrespects : ∀ k ∈ calm.strokes, k.Respects ∧ ¬ k.Reverts := fun k hk =>
    ⟨(heach k hk).2.mpr (hundisturbed k hk),hiff.mpr hundisturbed k hk⟩
  exact ⟨hrun,congrArg List.length hstrokes,hundisturbed,hrespects,by decide +kernel,
    hlast hundisturbed id⟩

/-- A machine is given another owner and provider after the worker was asked for it, and another one
after a tick has read it. Both times what was held is put back, and with it the old owner and provider. -/
theorem stale_writebacks_revert :
    let root := Principal.ofSystem .root
    let id := "VM:" ++ Text.Base64.encode .addressSafe (Records.bytesOf idBytes 1)
    let moved : Machine := ⟨id,.gcp,.initializing,"USER:1"⟩
    let asked := ((quiet (inMemory []) []).began (.createVm .aws) root).turns [0, 0, 0, 0, 1]
    let provisioned := (asked.began (.bulkUpdateVms [moved]) root).turns [0, 0, 2, 2]
    let stored : Machine := ⟨"VM:1",.aws,.initializing,"USER:1"⟩
    let given : Machine := ⟨"VM:1",.gcp,.initializing,"USER:2"⟩
    let read := (quiet (inMemory [stored]) [stored]).ticking.turns [0, 0, 0]
    let ticked := (read.began (.bulkUpdateVms [given]) root).turns [0, 0, 1, 1]
    (Run (quiet (inMemory []) []) provisioned ∧ ∃ k ∈ provisioned.strokes, k.since = [moved] ∧
        k.before = some moved ∧ k.put = ⟨id,.aws,.up,root.id⟩ ∧ ¬ k.Respects ∧ k.Reverts) ∧
      Run (quiet (inMemory [stored]) [stored]) ticked ∧ ∃ k ∈ ticked.strokes, k.since = [given] ∧
        k.before = some given ∧ k.put = stored.withStatus .up ∧ ¬ k.Respects ∧ k.Reverts := by
  intro root id moved asked provisioned stored given read ticked
  have hprovisioned : Run (quiet (inMemory []) []) provisioned :=
    ((began_run _ _ _).trans (turns_run _ _)).trans ((began_run asked _ _).trans (turns_run _ _))
  have hticked : Run (quiet (inMemory [stored]) [stored]) ticked :=
    ((ticking_run _).trans (turns_run _ _)).trans ((began_run read _ _).trans (turns_run _ _))
  have hfirst : provisioned.strokes =
      [⟨[⟨id,.aws,.initializing,root.id⟩],[moved],some moved,⟨id,.aws,.up,root.id⟩⟩] := by
    decide +kernel
  have hsecond : ticked.strokes = [⟨[stored],[given],some given,stored.withStatus .up⟩] := by
    decide +kernel
  constructor
  · refine ⟨hprovisioned,?_⟩
    rw [hfirst]
    have hlast : Memory.last? id [moved] = some moved := by decide +kernel
    exact ⟨_,List.mem_singleton_self _,rfl,rfl,rfl,fun h => absurd (h moved hlast) (by decide),
      moved,rfl,by decide⟩
  · refine ⟨hticked,?_⟩
    rw [hsecond]
    have hlast : Memory.last? "VM:1" [given] = some given := by decide +kernel
    exact ⟨_,List.mem_singleton_self _,rfl,rfl,rfl,fun h => absurd (h given hlast) (by decide),
      given,rfl,by decide⟩

end Scene
end Tasks
end VmFleet
