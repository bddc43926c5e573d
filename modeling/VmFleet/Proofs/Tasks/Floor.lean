import VmFleet.Proofs.Tasks.Reached

/-!
# Tasks side by side

On the floor, any number of tasks are at work on the same records, and machines are provisioned in
the background. In one step another task begins, or some task or some provisioning asks for one
effect and is answered. Other than in a crowd, it stays known which task is which, also when it is
over, and how it ended.
-/

set_option autoImplicit false

namespace VmFleet.Tasks

open Security Store

/-- A task that has begun, and what is left to do of it. -/
structure Begun where
  task : Task
  rest : Program (Except TaskError task.Result)

def Begun.succeeded (b : Begun) : Bool :=
  match b.rest with
  | .done (.ok _) => true
  | _ => false

structure Floor where
  records : Records
  tasks : List Begun
  background : List (Program Unit)

namespace Floor

/-- One step, when an effect may only be answered like this in the company of other tasks. -/
inductive Step (fair : List Begun → (e : Effect) → e.Answer → Prop) : Floor → Floor → Prop
  | trust (f : Floor) (t : Task) (p : Principal) :
      Step fair f { f with tasks := ⟨t,(t.submitTrusted p).run⟩ :: f.tasks }
  | submit (f : Floor) (t : Task) (accountId : String) :
      Step fair f { f with tasks := ⟨t,(t.submit accountId).run⟩ :: f.tasks }
  | go (before after : List Begun) (background : List (Program Unit)) (t : Task) (e : Effect)
      (next : e.Answer → Program (Except TaskError t.Result)) (answer : e.Answer)
      (r r' : Records) (started : List Machine) (h : Reply r e answer r' started)
      (hfair : fair (before ++ after) e answer) :
      Step fair ⟨r,before ++ ⟨t,.perform e next⟩ :: after,background⟩
        ⟨r',before ++ ⟨t,next answer⟩ :: after,background ++ started.map provisioning⟩
  | provide (tasks : List Begun) (before after : List (Program Unit)) (e : Effect)
      (next : e.Answer → Program Unit) (answer : e.Answer) (r r' : Records)
      (started : List Machine) (h : Reply r e answer r' started) (hfair : fair tasks e answer) :
      Step fair ⟨r,tasks,before ++ .perform e next :: after⟩
        ⟨r',tasks,before ++ next answer :: (after ++ started.map provisioning)⟩

def Run (fair : List Begun → (e : Effect) → e.Answer → Prop) : Floor → Floor → Prop :=
  Relation.ReflTransGen (Step fair)

variable {fair : List Begun → (e : Effect) → e.Answer → Prop} {f f' : Floor}

theorem step_mono {fair' : List Begun → (e : Effect) → e.Answer → Prop} (hs : Step fair f f')
    (h : ∀ others e answer, fair others e answer → fair' others e answer) : Step fair' f f' := by
  cases hs with
  | trust _ t p => exact .trust _ t p
  | submit _ t accountId => exact .submit _ t accountId
  | go before after background t e next answer r r' started hreply hfair =>
    exact .go before after background t e next answer r r' started hreply (h _ e answer hfair)
  | provide tasks before after e next answer r r' started hreply hfair =>
    exact .provide tasks before after e next answer r r' started hreply (h _ e answer hfair)

theorem run_mono {fair' : List Begun → (e : Effect) → e.Answer → Prop} (hrun : Run fair f f')
    (h : ∀ others e answer, fair others e answer → fair' others e answer) : Run fair' f f' :=
  Relation.ReflTransGen.mono (fun _ _ hs => step_mono hs h) f f' hrun

/-- A task that has begun stays on the floor. -/
theorem step_tasks (hs : Step fair f f') (b : Begun) (hb : b ∈ f.tasks) :
    ∃ b' ∈ f'.tasks, b'.task = b.task := by
  cases hs with
  | trust => exact ⟨b,List.mem_cons_of_mem _ hb,rfl⟩
  | submit => exact ⟨b,List.mem_cons_of_mem _ hb,rfl⟩
  | go before after background t e next answer r r' started h hfair =>
    rcases List.mem_append.mp hb with hb | hb
    · exact ⟨b,List.mem_append_left _ hb,rfl⟩
    · rcases List.mem_cons.mp hb with rfl | hb
      · exact ⟨⟨t,next answer⟩,by simp,rfl⟩
      · exact ⟨b,by simp [hb],rfl⟩
  | provide tasks before after e next answer r r' started h hfair => exact ⟨b,hb,rfl⟩

/-! ## A task at a time -/

/-- The next step of a task, when it is a call on the accounts or records how the task went. -/
def advance (f : Floor) (n : Nat) : Floor :=
  match f.tasks[n]? with
  | some ⟨t,.perform (.accounts call) next⟩ =>
    { f with
      records := (f.records.onAccounts call).2
      tasks := f.tasks.set n ⟨t,next (f.records.onAccounts call).1⟩ }
  | some ⟨t,.perform (.record event) next⟩ =>
    { f with records := f.records.record event, tasks := f.tasks.set n ⟨t,next ()⟩ }
  | _ => f

def advanceAll (f : Floor) (ns : List Nat) : Floor := ns.foldl advance f

theorem go_step (n : Nat) (t : Task) (e : Effect)
    (next : e.Answer → Program (Except TaskError t.Result)) (answer : e.Answer) (r' : Records)
    (hn : f.tasks[n]? = some ⟨t,.perform e next⟩) (h : Reply f.records e answer r' [])
    (hfair : fair (f.tasks.eraseIdx n) e answer) :
    Step fair f { f with records := r', tasks := f.tasks.set n ⟨t,next answer⟩ } := by
  obtain ⟨hlt, hget⟩ := List.getElem?_eq_some_iff.mp hn
  have htasks : f.tasks = f.tasks.take n ++ ⟨t,.perform e next⟩ :: f.tasks.drop (n + 1) := by
    rw [← hget, List.getElem_cons_drop, List.take_append_drop]
  have hset : f.tasks.set n ⟨t,next answer⟩ =
      f.tasks.take n ++ ⟨t,next answer⟩ :: f.tasks.drop (n + 1) :=
    List.set_eq_take_append_cons_drop.trans (if_pos hlt)
  rw [List.eraseIdx_eq_take_drop_succ] at hfair
  have hgo := Step.go (f.tasks.take n) (f.tasks.drop (n + 1)) f.background t e next answer f.records
    r' [] h hfair
  rw [← htasks, ← hset, List.map_nil, List.append_nil] at hgo
  exact hgo

theorem advance_run (n : Nat) (hfair : ∀ t e next, f.tasks[n]? = some ⟨t,.perform e next⟩ →
    ∀ answer, fair (f.tasks.eraseIdx n) e answer) : Run fair f (f.advance n) := by
  unfold advance
  split
  · rename_i t call next hn
    exact .single (go_step n t _ next _ _ hn (.accounts call) (hfair t _ next hn _))
  · rename_i t event next hn
    exact .single (go_step n t _ next _ _ hn (.record event) (hfair t _ next hn _))
  · exact .refl

theorem advanceAll_run (ns : List Nat) (f : Floor) :
    Run (fun _ _ _ => True) f (f.advanceAll ns) := by
  induction ns generalizing f with
  | nil => exact .refl
  | cons n ns ih =>
    have hn : Run (fun _ _ _ => True) f (f.advance n) := advance_run n fun _ _ _ _ _ => trivial
    exact hn.trans (ih (f.advance n))

/-- Two tasks have begun for these principals. -/
def begun (r : Records) (t u : Task) (p q : Principal) : Floor :=
  ⟨r,[⟨u,(u.submitTrusted q).run⟩,⟨t,(t.submitTrusted p).run⟩],[]⟩

theorem begun_run (r : Records) (t u : Task) (p q : Principal) :
    Run fair ⟨r,[],[]⟩ (begun r t u p q) := by
  have ht : Step fair ⟨r,[],[]⟩ ⟨r,[⟨t,(t.submitTrusted p).run⟩],[]⟩ := .trust _ t p
  exact .tail (.single ht) (.trust _ u q)

/-! ## The floor as a crowd -/

def crowd (f : Floor) : Crowd where
  records := f.records
  running := f.tasks.map (fun b => b.rest.forget) ++ f.background

/-- A floor is a crowd that runs tasks. -/
theorem step_crowd (hs : Step fair f f') : Crowd.Step RunsTask f.crowd f'.crowd := by
  cases hs with
  | trust _ t p => exact .start _ _ ⟨t,Or.inl ⟨p,rfl⟩⟩
  | submit _ t accountId => exact .start _ _ ⟨t,Or.inr ⟨accountId,rfl⟩⟩
  | go before after background t e next answer r r' started h hfair =>
    have hgo : Crowd.Step RunsTask _ _ := .go (before.map fun b => b.rest.forget)
      ((after.map fun b => b.rest.forget) ++ background) e (fun a => (next a).forget) answer r r'
      started h
    simpa [crowd, Program.forget, Program.bind] using hgo
  | provide tasks before after e next answer r r' started h hfair =>
    have hgo : Crowd.Step RunsTask _ _ := .go ((tasks.map fun b => b.rest.forget) ++ before) after e
      next answer r r' started h
    simpa [crowd] using hgo

end Floor
end VmFleet.Tasks
