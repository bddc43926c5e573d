import VmFleet.Proofs.Tasks.Floor

/-!
# Tasks one after another

A task begins when no other is under way, and it is over before the next one begins; machines may be
provisioned in the background all the while. What comes from outside with each answer is supplied by
a list of turns. The same turns can so be taken on other records.
-/

set_option autoImplicit false

namespace VmFleet

/-- What an answer may bring from outside. -/
structure Supply where
  bytes : List UInt8
  drawn : Nat
  reply : Except Delegation.TransportError Json
  isCancelled : Bool

/-- How the records answer with this supply, what becomes of them, and what is to be provisioned. -/
def Records.respond (s : Supply) (r : Records) : (e : Effect) → e.Answer × Records × List Machine
  | .accounts call => ((r.onAccounts call).1,(r.onAccounts call).2,[])
  | .machines call => ((r.onMachines call).1,(r.onMachines call).2,[])
  | .draw _ => (s.bytes,{ r with drawn := s.drawn },[])
  | .record event => ((),r.record event,[])
  | .provision m => ((),r,[m])
  | .delegate _ _ => (s.reply,r,[])
  | .wait _ => ((),r,[])
  | .isCancelled => (s.isCancelled,r,[])

theorem Records.respond_reply (s : Supply) (r : Records) (e : Effect) :
    Reply r e (r.respond s e).1 (r.respond s e).2.1 (r.respond s e).2.2 := by
  cases e with
  | accounts call => exact .accounts call
  | machines call => exact .machines call
  | draw count => exact .draw count s.bytes s.drawn
  | record event => exact .record event
  | provision m => exact .provision m
  | delegate channel payload => exact .delegate channel payload s.reply
  | wait millis => exact .wait millis
  | isCancelled => exact .isCancelled s.isCancelled

/-- Runs a program to its end while nobody else is at work. -/
def Records.runAlone {α : Type} (s : Supply) (r : Records) (p : Program α) : α × Records :=
  p.run (fun r e => ((r.respond s e).1,(r.respond s e).2.1)) r

/-- Records that are kept in memory. -/
def Records.inMemory (as : List Account) (ms : List Machine) : Records :=
  ⟨⟨.memory as,0,0,[]⟩,⟨.memory ms,0,0,[]⟩,.empty,0⟩

/-- Nothing is supplied. -/
def Supply.nothing : Supply := ⟨[],0,.error (.unencodable ""),false⟩

/-- Every answer that there may be can be supplied. -/
theorem Reply.supplied {r r' : Records} {e : Effect} {answer : e.Answer} {started : List Machine}
    (h : Reply r e answer r' started) : ∃ s, r.respond s e = (answer,r',started) := by
  cases h with
  | draw count bytes drawn => exact ⟨{ Supply.nothing with bytes, drawn },rfl⟩
  | delegate channel payload reply => exact ⟨{ Supply.nothing with reply },rfl⟩
  | isCancelled isCancelled => exact ⟨{ Supply.nothing with isCancelled },rfl⟩
  | _ => exact ⟨.nothing,rfl⟩

namespace Tasks

open Security Store

def Begun.isOver (b : Begun) : Bool :=
  match b.rest with
  | .done _ => true
  | .perform _ _ => false

namespace Floor

/-- No task is under way. -/
def isQuiet (f : Floor) : Bool := f.tasks.all Begun.isOver

inductive Turn where
  | trust (t : Task) (p : Principal)
  | submit (t : Task) (accountId : String)
  /-- The task that is under way asks for its next effect. -/
  | go (s : Supply)
  /-- The program with this number in the background asks for its next effect. -/
  | provide (n : Nat) (s : Supply)

def begin (f : Floor) (b : Begun) : Floor :=
  if f.isQuiet then { f with tasks := b :: f.tasks } else f

def go (f : Floor) (s : Supply) : Floor :=
  match f.tasks with
  | ⟨t,.perform e next⟩ :: earlier =>
    let a := f.records.respond s e
    ⟨a.2.1,⟨t,next a.1⟩ :: earlier,f.background ++ a.2.2.map provisioning⟩
  | _ => f

def provide (f : Floor) (n : Nat) (s : Supply) : Floor :=
  match f.background[n]? with
  | some (.perform e next) =>
    let a := f.records.respond s e
    ⟨a.2.1,f.tasks,f.background.set n (next a.1) ++ a.2.2.map provisioning⟩
  | _ => f

/-- A turn that nobody can take leaves everything as it is. -/
def turn (f : Floor) : Turn → Floor
  | .trust t p => f.begin ⟨t,(t.submitTrusted p).run⟩
  | .submit t accountId => f.begin ⟨t,(t.submit accountId).run⟩
  | .go s => f.go s
  | .provide n s => f.provide n s

def play (f : Floor) (turns : List Turn) : Floor := turns.foldl turn f

/-- A task begins for whoever has this account, and asks for so many effects. -/
def Turn.submitting (t : Task) (accountId : String) (effects : Nat) : List Turn :=
  .submit t accountId :: List.replicate effects (.go .nothing)

theorem play_append (f : Floor) (first rest : List Turn) :
    f.play (first ++ rest) = (f.play first).play rest := List.foldl_append

/-! ## Turns as steps -/

variable {fair : List Begun → (e : Effect) → e.Answer → Prop} {f f' : Floor}

/-- All tasks but the last one to begin are over. -/
def OneByOne (f : Floor) : Prop := ∀ b ∈ f.tasks.tail, b.isOver = true

theorem isQuiet_iff (f : Floor) : f.isQuiet = true ↔ ∀ b ∈ f.tasks, b.isOver = true :=
  List.all_eq_true

theorem begin_oneByOne (b : Begun) (h : f.OneByOne) : (f.begin b).OneByOne := by
  unfold begin
  split
  · rename_i hquiet
    exact (isQuiet_iff f).mp hquiet
  · exact h

theorem go_oneByOne (s : Supply) (h : f.OneByOne) : (f.go s).OneByOne := by
  unfold go
  split
  · rename_i t e next earlier htasks
    rw [OneByOne, htasks] at h
    exact h
  · exact h

theorem provide_oneByOne (n : Nat) (s : Supply) (h : f.OneByOne) : (f.provide n s).OneByOne := by
  unfold provide
  split <;> exact h

theorem turn_oneByOne (t : Turn) (h : f.OneByOne) : (f.turn t).OneByOne := by
  cases t with
  | trust t p => exact begin_oneByOne _ h
  | submit t accountId => exact begin_oneByOne _ h
  | go s => exact go_oneByOne s h
  | provide n s => exact provide_oneByOne n s h

theorem begin_cases (f : Floor) (b : Begun) :
    f.begin b = f ∨ f.isQuiet = true ∧ f.begin b = { f with tasks := b :: f.tasks } := by
  unfold begin
  split
  · rename_i hquiet
    exact Or.inr ⟨hquiet,rfl⟩
  · exact Or.inl rfl

theorem begin_step_or_stay (b : Begun) (h : Step fair f { f with tasks := b :: f.tasks }) :
    f.begin b = f ∨ Step fair f (f.begin b) := by
  rcases begin_cases f b with hstay | ⟨-, hbegun⟩
  · exact Or.inl hstay
  · rw [hbegun]
    exact Or.inr h

theorem go_step_or_stay (f : Floor) (s : Supply) :
    f.go s = f ∨ Step (fun _ _ _ => True) f (f.go s) := by
  obtain ⟨r, tasks, background⟩ := f
  unfold go
  split
  · rename_i t e next earlier htasks
    cases htasks
    exact Or.inr (.go [] earlier background t e next _ r _ _ (r.respond_reply s e) trivial)
  · exact Or.inl rfl

theorem provide_step_or_stay (f : Floor) (n : Nat) (s : Supply) :
    f.provide n s = f ∨ Step (fun _ _ _ => True) f (f.provide n s) := by
  obtain ⟨r, tasks, background⟩ := f
  unfold provide
  split
  · rename_i e next hn
    obtain ⟨hlt, hget⟩ := List.getElem?_eq_some_iff.mp hn
    have hbackground : background =
        background.take n ++ .perform e next :: background.drop (n + 1) := by
      rw [← hget, List.getElem_cons_drop, List.take_append_drop]
    have hset : ∀ p, background.set n p = background.take n ++ p :: background.drop (n + 1) :=
      fun p => List.set_eq_take_append_cons_drop.trans (if_pos hlt)
    have hstep : Step (fun _ _ _ => True) _ _ := .provide tasks (background.take n)
      (background.drop (n + 1)) e next _ r _ _ (r.respond_reply s e) trivial
    rw [← hbackground, ← List.cons_append, ← List.append_assoc, ← hset] at hstep
    exact Or.inr hstep
  · exact Or.inl rfl

theorem turn_step_or_stay (f : Floor) (t : Turn) :
    f.turn t = f ∨ Step (fun _ _ _ => True) f (f.turn t) := by
  cases t with
  | trust t p => exact begin_step_or_stay _ (.trust f t p)
  | submit t accountId => exact begin_step_or_stay _ (.submit f t accountId)
  | go s => exact go_step_or_stay f s
  | provide n s => exact provide_step_or_stay f n s

theorem begin_eq (b : Begun) (h : ({ f with tasks := b :: f.tasks } : Floor).OneByOne) :
    f.begin b = { f with tasks := b :: f.tasks } := if_pos ((isQuiet_iff f).mpr h)

/-- A step from tasks one by one to tasks one by one is a turn. -/
theorem step_turn (hs : Step fair f f') (h : f.OneByOne) (h' : f'.OneByOne) :
    ∃ t, f.turn t = f' := by
  cases hs with
  | trust _ t p => exact ⟨.trust t p,begin_eq _ h'⟩
  | submit _ t accountId => exact ⟨.submit t accountId,begin_eq _ h'⟩
  | go before after background t e next answer r r' started hreply hfair =>
    obtain ⟨s, hs⟩ := hreply.supplied
    cases before with
    | nil =>
      refine ⟨.go s,?_⟩
      simp only [turn, go, List.nil_append, hs]
    | cons b before =>
      -- whoever goes is not over, and so it is the last one to have begun
      have hover := h ⟨t,.perform e next⟩ (by simp)
      cases hover
  | provide tasks before after e next answer r r' started hreply hfair =>
    obtain ⟨s, hs⟩ := hreply.supplied
    refine ⟨.provide before.length s,?_⟩
    simp [turn, provide, hs]

/-- Turns lead wherever steps lead along which tasks remain one by one. -/
theorem play_iff (h : f.OneByOne) :
    (∃ turns, f.play turns = f') ↔
      Relation.ReflTransGen (fun g g' => Step (fun _ _ _ => True) g g' ∧ g'.OneByOne) f f' := by
  constructor
  · rintro ⟨turns, rfl⟩
    induction turns generalizing f with
    | nil => exact .refl
    | cons t turns ih =>
      have ht : (f.turn t).OneByOne := turn_oneByOne t h
      rcases turn_step_or_stay f t with hstay | hstep
      · rw [play, List.foldl_cons, hstay]
        exact ih h
      · exact .head ⟨hstep,ht⟩ (ih ht)
  · intro hrun
    have hlast : f'.OneByOne ∧ ∃ turns, f.play turns = f' := by
      induction hrun with
      | refl => exact ⟨h,[],rfl⟩
      | tail _ hs ih =>
        obtain ⟨hone, turns, rfl⟩ := ih
        obtain ⟨t, rfl⟩ := step_turn hs.1 hone hs.2
        exact ⟨hs.2,turns ++ [t],play_append f turns [t]⟩
    exact hlast.2

end Floor
end Tasks
end VmFleet
