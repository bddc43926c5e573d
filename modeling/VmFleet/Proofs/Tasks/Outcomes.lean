import VmFleet.Proofs.Store.Lookup
import VmFleet.Proofs.Tasks.Succession

/-!
# What a task has done to the accounts

A task that is alone at work leaves the accounts as it found them, or it has added one, renamed one or
deleted one; which of these, its kind and its result tell. Whatever is kept by all these outcomes is
kept by any number of tasks one after another, wherever accounts are stored and whichever calls fail.
-/

set_option autoImplicit false

namespace VmFleet.Tasks

open Security Store

/-- Somebody who is trusted, or who has one of these accounts. -/
def Acting (trusted : Principal → Prop) (as : List Account) (p : Principal) : Prop :=
  trusted p ∨ ∃ a ∈ as, p = .ofAccount a

/-- Tasks that may write accounts. -/
def writing : List Operation := [.createUser, .updateUser, .deleteUser]

/-- How a task may end that found these accounts, and the accounts that it leaves. -/
inductive Outcome (trusted : Principal → Prop) (as : List Account) :
    (t : Task) → Except TaskError t.Result → List Account → Prop
  | failed (t : Task) (e : TaskError) : Outcome trusted as t (.error e) as
  | read (t : Task) (result : Except TaskError t.Result) (h : t.operation ∉ writing) :
      Outcome trusted as t result as
  | added (new : NewAccount) (ensureUnique : Bool) (id hashed salt : String)
      (hhashed : Password.hash new.password salt = .ok hashed)
      (hfree : ∀ b ∈ as, b.id ≠ id ∧ b.username ≠ new.username) :
      Outcome trusted as (.createUser new ensureUnique)
        (.ok ⟨id,new.username,new.firstName,new.lastName,hashed,salt,new.role⟩)
        (as ++ [⟨id,new.username,new.firstName,new.lastName,hashed,salt,new.role⟩])
  | found (new : NewAccount) (a : Account) (ha : a ∈ as) :
      Outcome trusted as (.createUser new false) (.ok a) as
  | renamed (id firstName lastName : String) (a : Account) (ha : Memory.find as id = some a) :
      Outcome trusted as (.updateUser id firstName lastName) (.ok (renamed a firstName lastName))
        (Memory.place (Tasks.renamed a firstName lastName) as)
  | deleted (id : String) (p : Principal) (hp : Acting trusted as p)
      (hallowed : isAllowed p .deleteUser (.of p id) = true) :
      Outcome trusted as (.deleteUser id) (.ok ()) (as.filter fun a => Keyed.id a ≠ id)

/-- The account, its names aside. -/
def unnamed (a : Account) : Account := { a with firstName := "", lastName := "" }

theorem of_unnamed_eq (a b : Account) (h : unnamed b = unnamed a) : b.id = a.id ∧
    b.username = a.username ∧ b.hashedPassword = a.hashedPassword ∧ b.role = a.role := by
  simp only [unnamed, Account.mk.injEq] at h
  exact ⟨h.1,h.2.1,h.2.2.2.2.1,h.2.2.2.2.2.2⟩

/-- Apart from names, nothing is changed by putting an account under other names. -/
theorem place_renamed (as : List Account) (id firstName lastName : String) (a : Account)
    (ha : Memory.find as id = some a) :
    (Memory.place (renamed a firstName lastName) as).map unnamed = as.map unnamed := by
  have hid : Keyed.id (renamed a firstName lastName) = id := (Memory.find_eq_some as id a ha).2
  induction as with
  | nil => cases ha
  | cons b as ih =>
    rw [Memory.place, hid]
    by_cases hb : Keyed.id b = id
    · have hab : Memory.find (b :: as) id = some b := List.find?_cons_of_pos (by simpa using hb)
      cases hab.symm.trans ha
      rw [if_pos hb]
      rfl
    · have hrest : Memory.find (b :: as) id = Memory.find as id :=
        List.find?_cons_of_neg (by simpa using hb)
      rw [if_neg hb, List.map_cons, List.map_cons, ih (hrest.symm.trans ha)]

/-- The accounts while a task is at work that found these. -/
def Through (trusted : Principal → Prop) (as : List Account) (t : Task) (as' : List Account) : Prop :=
  as' = as ∨ ∃ result, Outcome trusted as t result as'

/-! ## Programs that act on accounts -/

/-- How an effect may be answered when these are the accounts, and the accounts from then on. -/
inductive Meets (as : List Account) : (e : Effect) → e.Answer → List Account → Prop
  | refused (call : Call Account) (reason : String) :
      Meets as (.accounts call) (.error (.backend reason)) as
  | served (call : Call Account) :
      Meets as (.accounts call) (Memory.run as call).1 (Memory.run as call).2
  | apart (e : Effect) (answer : e.Answer) (h : ∀ call, e ≠ .accounts call) : Meets as e answer as

theorem reply_meets {r r' : Records} {e : Effect} {answer : e.Answer} {started : List Machine}
    (h : Reply r e answer r' started) (he : ∀ new, e ≠ .accounts (.putAll new)) (as : List Account)
    (has : r.accounts.repository.Holds as) :
    ∃ as', r'.accounts.repository.Holds as' ∧ Meets as e answer as' := by
  cases h with
  | accounts call =>
    have hcall : ∀ new, call ≠ .putAll new := fun new h => he new (congrArg Effect.accounts h)
    rcases accounts_held r call hcall as has with ⟨⟨reason, hanswer⟩, h⟩ | ⟨hanswer, h⟩
    · rw [hanswer]
      exact ⟨as,h,.refused call reason⟩
    · rw [hanswer]
      exact ⟨_,h,.served call⟩
  | _ => exact ⟨as,has,.apart _ _ fun _ h => nomatch h⟩

end Tasks

namespace Program

open Tasks Store

variable {α β : Type} {I J : List Account → Prop} {as : List Account}

/-- Whatever the answers, the accounts are as wanted before each effect, and in the end they are so
together with the result. -/
def Along (I : List Account → Prop) (Q : α → List Account → Prop) :
    Program α → List Account → Prop
  | .done a, as => Q a as
  | .perform e next, as => I as ∧ (∀ new, e ≠ .accounts (.putAll new)) ∧
      ∀ answer as', Meets as e answer as' → Along I Q (next answer) as'

theorem along_bind (Q : β → List Account → Prop) (p : Program α) (f : α → Program β) :
    (p.bind f).Along I Q as ↔ p.Along I (fun a as => (f a).Along I Q as) as := by
  induction p generalizing as with
  | done a => rfl
  | perform e next ih => simp only [bind, Along, ih]

theorem Along.mono {Q R : α → List Account → Prop} {p : Program α} (h : p.Along I Q as)
    (hq : ∀ a as, Q a as → R a as) : p.Along I R as := by
  induction p generalizing as with
  | done a => exact hq a as h
  | perform e next ih =>
    exact ⟨h.1,h.2.1,fun answer as' hm => ih answer (h.2.2 answer as' hm)⟩

/-- Only reads are asked of the accounts. -/
def reading : Terms := ⟨fun e => ∀ call, e = .accounts call → call.isRead = true,fun _ _ => True⟩

theorem meets_reading (e : Effect) (he : reading.allows e) (answer : e.Answer)
    (as' : List Account) (h : Meets as e answer as') : as' = as := by
  cases h with
  | refused => rfl
  | apart => rfl
  | served call =>
    have hread := he call rfl
    cases call with
    | getAll => rfl
    | get id => rfl
    | _ => cases hread

theorem along_of_reading (Q : α → List Account → Prop) (p : Program α) (h : p.Within reading)
    (hi : I as) (hq : ∀ a, Q a as) : p.Along I Q as := by
  induction p with
  | done a => exact hq a
  | perform e next ih =>
    refine ⟨hi,?_,?_⟩
    · rintro new rfl
      cases h.1 _ rfl
    · intro answer as' hm
      cases meets_reading e h.1 answer as' hm
      exact ih answer (h.2 answer trivial)

end Program

namespace Tasks.Attempt

open Security Store

variable {α β : Type} {I : List Account → Prop} {Q : Except TaskError β → List Account → Prop}
  {as : List Account}

theorem along_authorize (p : Principal) (o : Operation) (w : Ownership) (f : Unit → Attempt β)
    (herror : ∀ e, Q (.error e) as)
    (hf : isAllowed p o w = true → (f ()).run.Along I Q as) :
    (authorize p o w >>= f).run.Along I Q as := by
  cases h : isAllowed p o w with
  | true =>
    rw [authorize_allowed p o w f h]
    exact hf h
  | false =>
    rw [authorize_denied p o w f h]
    exact herror _

theorem along_ofExcept {ε : Type} (g : ε → TaskError) (r : Except ε α) (f : α → Attempt β)
    (herror : ∀ e, Q (.error e) as) (hf : ∀ x, r = .ok x → (f x).run.Along I Q as) :
    (ofExcept g r >>= f).run.Along I Q as := by
  cases r with
  | ok x => exact hf x rfl
  | error e => exact herror _

/-- What comes before anything is written. -/
theorem along_bind_reading (a : Attempt α) (f : α → Attempt β) (ha : a.run.Within Program.reading)
    (hi : I as) (herror : ∀ e, Q (.error e) as) (hf : ∀ x, (f x).run.Along I Q as) :
    (a >>= f).run.Along I Q as := by
  rw [run_bind, Program.along_bind]
  apply Program.along_of_reading _ _ ha hi
  intro r
  cases r with
  | ok x => exact hf x
  | error e => exact herror e

theorem along_get (id : String) (f : (Call.get (α := Account) id).Result → Attempt β)
    (hi : I as) (herror : ∀ e, Q (.error e) as)
    (hf : ∀ a, Memory.get as id = .ok a → (f a).run.Along I Q as) :
    (accounts (.get id) >>= f).run.Along I Q as := by
  rw [accounts_bind]
  refine ⟨hi,plain_sound _ rfl,?_⟩
  intro answer as' hm
  cases hm with
  | refused call reason => exact herror _
  | apart _ _ h => exact absurd rfl (h _)
  | served call =>
    simp only [Memory.run]
    cases hget : Memory.get as id with
    | ok a => exact hf a hget
    | error e => exact herror _

/-- The last thing that is asked for is a call. -/
theorem along_call (call : Call Account) (hcall : (Effect.accounts call).isPlain = true)
    {Q : Except TaskError call.Result → List Account → Prop} (hi : I as)
    (herror : ∀ e, Q (.error e) as)
    (hserved : Q ((Memory.run as call).1.mapError TaskError.ofStore) (Memory.run as call).2) :
    (accounts call).run.Along I Q as := by
  refine ⟨hi,plain_sound _ hcall,?_⟩
  intro answer as' hm
  cases hm with
  | refused _ reason => exact herror _
  | apart _ _ h => exact absurd rfl (h _)
  | served _ => exact hserved

end Tasks.Attempt

namespace Tasks

open Security Store

/-! ## The tasks -/

section

variable {trusted : Principal → Prop} {as : List Account}

theorem createUser_along (p : Principal) (new : NewAccount) (ensureUnique : Bool) :
    (createUser p new ensureUnique).run.Along (Through trusted as (.createUser new ensureUnique))
      (Outcome trusted as (.createUser new ensureUnique)) as := by
  have hi : Through trusted as (.createUser new ensureUnique) as := Or.inl rfl
  have herror : ∀ e, Outcome trusted as (.createUser new ensureUnique) (.error e) as :=
    .failed (.createUser new ensureUnique)
  have hdraw : ∀ count, Program.reading.allows (.draw count) := fun _ _ h => nomatch h
  refine Attempt.along_authorize p _ _ _ herror fun _ => ?_
  refine Attempt.along_ofExcept id new.check _ herror fun _ _ => ?_
  refine Attempt.along_bind_reading _ _ (freshSalt_within _ (hdraw _)) hi herror fun salt => ?_
  refine Attempt.along_ofExcept faulty _ _ herror fun hashed hhashed => ?_
  refine Attempt.along_bind_reading _ _ (freshId_within _ _ (hdraw _)) hi herror fun id => ?_
  refine Attempt.along_call _ rfl hi herror ?_
  set a : Account := ⟨id,new.username,new.firstName,new.lastName,hashed,salt,new.role⟩
  rcases Memory.add_cases as a ensureUnique with ⟨b, hb, hadd⟩ | ⟨hfree, hadd⟩
  · simp only [Memory.run, hadd]
    cases ensureUnique with
    | true => exact herror _
    | false => exact .found new b (List.mem_of_find?_eq_some hb)
  · simp only [Memory.run, hadd]
    exact .added new ensureUnique id hashed salt hhashed ((Memory.existing_eq_none_iff as a).mp hfree)

theorem updateUser_along (p : Principal) (id firstName lastName : String) :
    (updateUser p id firstName lastName).run.Along
      (Through trusted as (.updateUser id firstName lastName))
      (Outcome trusted as (.updateUser id firstName lastName)) as := by
  have hi : Through trusted as (.updateUser id firstName lastName) as := Or.inl rfl
  have herror : ∀ e, Outcome trusted as (.updateUser id firstName lastName) (.error e) as :=
    .failed (.updateUser id firstName lastName)
  refine Attempt.along_authorize p _ _ _ herror fun _ => ?_
  refine Attempt.along_get id _ hi herror fun a ha => ?_
  refine Attempt.along_call _ rfl hi herror ?_
  rcases Memory.put_cases as (renamed a firstName lastName) with ⟨-, hput⟩ | ⟨-, hput⟩
  · simp only [Memory.run, hput]
    exact herror _
  · simp only [Memory.run, hput]
    exact .renamed id firstName lastName a ((Memory.get_eq_ok_iff as id a).mp ha)

theorem deleteUser_along (p : Principal) (hp : Acting trusted as p) (id : String) :
    (deleteUser p id).run.Along (Through trusted as (.deleteUser id))
      (Outcome trusted as (.deleteUser id)) as := by
  have hi : Through trusted as (.deleteUser id) as := Or.inl rfl
  have herror : ∀ e, Outcome trusted as (.deleteUser id) (.error e) as :=
    .failed (.deleteUser id)
  refine Attempt.along_authorize p _ _ _ herror fun hallowed => ?_
  refine Attempt.along_call _ rfl hi herror ?_
  rcases Memory.delete_cases as id with ⟨e, hdelete⟩ | hdelete
  · simp only [Memory.run, hdelete]
    exact herror _
  · simp only [Memory.run, hdelete]
    exact .deleted id p hp hallowed

theorem execute_reading (t : Task) (p : Principal) (h : t.operation ∉ writing) :
    (t.execute p).run.Within Program.reading := by
  have hmachines : ∀ call, Program.reading.allows (.machines call) := by
    rintro _ _ ⟨⟩
  cases t with
  | createUser new ensureUnique => exact absurd (by simp [writing, Task.operation]) h
  | updateUser id firstName lastName => exact absurd (by simp [writing, Task.operation]) h
  | deleteUser id => exact absurd (by simp [writing, Task.operation]) h
  | getUser id =>
    refine Attempt.within_authorize _ p _ _ _ fun _ => ⟨?_,fun _ _ => trivial⟩
    rintro _ ⟨⟩
    rfl
  | getAllUsers =>
    refine Attempt.within_authorize _ p _ _ _ fun _ => ⟨?_,fun _ _ => trivial⟩
    rintro _ ⟨⟩
    rfl
  | createVm provider =>
    refine Attempt.within_authorize _ p _ _ _ fun _ => ?_
    refine Attempt.within_bind _ _ _ (checkOwner_within p _ ?_) fun _ => ?_
    · rintro _ ⟨⟩
      rfl
    refine Attempt.within_bind _ _ _ (freshId_within _ _ ?_) fun id => ?_
    · rintro _ ⟨⟩
    refine Attempt.within_machines _ _ _ (hmachines _) fun m _ => ?_
    refine Attempt.within_ask _ _ _ ?_ fun _ _ => trivial
    rintro _ ⟨⟩
  | getVm id =>
    rw [Task.execute, getVm_run]
    exact ⟨hmachines _,fun _ _ => trivial⟩
  | getAllVms =>
    refine Attempt.within_authorize _ p _ _ _ fun _ => ?_
    exact Attempt.within_machines _ _ _ (hmachines _) fun _ _ => trivial
  | bulkUpdateVms machines =>
    refine Attempt.within_authorize _ p _ _ _ fun _ => ?_
    cases machines with
    | nil => trivial
    | cons m rest => exact ⟨hmachines _,fun _ _ => trivial⟩

theorem execute_along (t : Task) (p : Principal) (hp : Acting trusted as p) :
    (t.execute p).run.Along (Through trusted as t) (Outcome trusted as t) as := by
  by_cases h : t.operation ∈ writing
  · cases t with
    | createUser new ensureUnique => exact createUser_along p new ensureUnique
    | updateUser id firstName lastName => exact updateUser_along p id firstName lastName
    | deleteUser id => exact deleteUser_along p hp id
    | _ => exact absurd h (by simp [writing, Task.operation])
  · exact Program.along_of_reading _ _ (execute_reading t p h) (Or.inl rfl) fun result => .read t result h

theorem submitTrusted_along (t : Task) (p : Principal) (hp : Acting trusted as p) :
    (t.submitTrusted p).run.Along (Through trusted as t) (Outcome trusted as t) as := by
  rw [submitTrusted_run, Program.along_bind]
  apply (execute_along t p hp).mono
  intro result as' houtcome
  refine ⟨Or.inr ⟨result,houtcome⟩,plain_sound _ rfl,?_⟩
  intro answer as'' hm
  cases hm
  exact houtcome

theorem submit_eq_get_bind (t : Task) (accountId : String) : (t.submit accountId).run =
    (Attempt.accounts (.get accountId) >>= fun a => t.submitTrusted (.ofAccount a)).run := by
  refine congrArg (Program.perform (.accounts (.get accountId))) (funext fun answer => ?_)
  cases answer <;> rfl

theorem submit_along (t : Task) (accountId : String) :
    (t.submit accountId).run.Along (Through trusted as t) (Outcome trusted as t) as := by
  rw [submit_eq_get_bind]
  refine Attempt.along_get accountId _ (Or.inl rfl) (.failed t) fun a ha => ?_
  exact submitTrusted_along t _ (Or.inr ⟨a,(Memory.get_ok as accountId a ha).1,rfl⟩)

end

/-! ## Tasks one after another -/

/-- In the background nobody asks for accounts. -/
def apartTerms : Terms := ⟨fun e => ∀ call, e ≠ .accounts call,fun _ _ => True⟩

theorem provisioning_apart (m : Machine) : (provisioning m).Within apartTerms :=
  provisioning_within apartTerms m (fun _ _ _ h => nomatch h) (fun _ _ h => nomatch h)
    fun _ _ _ _ h => nomatch h

theorem reply_apart {r r' : Records} {e : Effect} {answer : e.Answer} {started : List Machine}
    (h : Reply r e answer r' started) (he : apartTerms.allows e) : r'.accounts = r.accounts := by
  cases h with
  | accounts call => exact absurd rfl (he call)
  | _ => rfl

/-- What is so of the tasks that are over and of the accounts is so again when a task has ended. -/
def Preserved (trusted : Principal → Prop) (C : List Begun → List Account → Prop) : Prop :=
  ∀ earlier as t result as', C earlier as → Outcome trusted as t result as' →
    C (⟨t,.done result⟩ :: earlier) as'

/-- How far tasks have come one after another, and the accounts by then, when so much is known of
every moment at which no task is under way. -/
inductive Stage (trusted : Principal → Prop) (C : List Begun → List Account → Prop) :
    List Begun → List Account → Prop
  | between (tasks : List Begun) (as : List Account) (hover : ∀ b ∈ tasks, b.isOver = true)
      (h : C tasks as) : Stage trusted C tasks as
  | during (t : Task) (e : Effect) (next : e.Answer → Program (Except TaskError t.Result))
      (earlier : List Begun) (before as : List Account) (hover : ∀ b ∈ earlier, b.isOver = true)
      (h : C earlier before)
      (halong : (Program.perform e next).Along (Through trusted before t) (Outcome trusted before t) as) :
      Stage trusted C (⟨t,.perform e next⟩ :: earlier) as

structure Floor.Amid (trusted : Principal → Prop) (C : List Begun → List Account → Prop) (f : Floor)
    (as : List Account) : Prop where
  accounts : f.records.accounts.repository.Holds as
  background : ∀ p ∈ f.background, p.Within apartTerms
  stage : Stage trusted C f.tasks as

section

variable {trusted : Principal → Prop} {C D : List Begun → List Account → Prop}

theorem stage_of_along (hC : Preserved trusted C) (t : Task)
    (rest : Program (Except TaskError t.Result)) (earlier : List Begun) (before as : List Account)
    (hover : ∀ b ∈ earlier, b.isOver = true) (h : C earlier before)
    (halong : rest.Along (Through trusted before t) (Outcome trusted before t) as) :
    Stage trusted C (⟨t,rest⟩ :: earlier) as := by
  cases rest with
  | done result =>
    exact .between _ as (List.forall_mem_cons.mpr ⟨rfl,hover⟩) (hC earlier before t result as h halong)
  | perform e next => exact .during t e next earlier before as hover h halong

theorem stage_quiet (tasks : List Begun) (as : List Account) (h : Stage trusted C tasks as)
    (hquiet : ∀ b ∈ tasks, b.isOver = true) : C tasks as := by
  cases h with
  | between _ _ _ h => exact h
  | during t e next => cases hquiet _ List.mem_cons_self

theorem stage_mono (h : ∀ tasks as, C tasks as → D tasks as) (tasks : List Begun)
    (as : List Account) (hstage : Stage trusted C tasks as) : Stage trusted D tasks as := by
  cases hstage with
  | between _ _ hover hc => exact .between tasks as hover (h tasks as hc)
  | during t e next earlier before _ hover hc halong =>
    exact .during t e next earlier before as hover (h earlier before hc) halong

/-- While a task is under way, the accounts are those from before it, or those that it may leave. -/
theorem stage_shows (hC : Preserved trusted C) (tasks : List Begun) (as : List Account)
    (h : Stage trusted C tasks as) :
    C tasks as ∨ ∃ b earlier before, tasks = b :: earlier ∧ b.isOver = false ∧ C earlier before ∧
      (as = before ∨ ∃ result, C (⟨b.task,.done result⟩ :: earlier) as) := by
  cases h with
  | between _ _ _ h => exact Or.inl h
  | during t e next earlier before _ hover h halong =>
    refine Or.inr ⟨_,earlier,before,rfl,rfl,h,?_⟩
    obtain rfl | ⟨result, houtcome⟩ := halong.1
    · exact Or.inl rfl
    · exact Or.inr ⟨result,hC earlier before t result as h houtcome⟩

namespace Floor

variable {f : Floor} {as : List Account}

theorem begin_amid (hC : Preserved trusted C) (b : Begun)
    (hb : ∀ as, b.rest.Along (Through trusted as b.task) (Outcome trusted as b.task) as)
    (h : f.Amid trusted C as) : (f.begin b).Amid trusted C as := by
  rcases begin_cases f b with hstay | ⟨hquiet, hbegun⟩
  · rw [hstay]
    exact h
  · have hover := (isQuiet_iff f).mp hquiet
    rw [hbegun]
    exact ⟨h.accounts,h.background,
      stage_of_along hC b.task b.rest f.tasks as as hover (stage_quiet _ _ h.stage hover) (hb as)⟩

theorem background_started (started : List Machine) (background : List (Program Unit))
    (h : ∀ p ∈ background, p.Within apartTerms) :
    ∀ p ∈ background ++ started.map provisioning, p.Within apartTerms := by
  intro p hp
  rcases List.mem_append.mp hp with hp | hp
  · exact h p hp
  · obtain ⟨m, -, rfl⟩ := List.mem_map.mp hp
    exact provisioning_apart m

theorem go_amid (hC : Preserved trusted C) (s : Supply) (h : f.Amid trusted C as) :
    ∃ as', (f.go s).Amid trusted C as' := by
  obtain ⟨r, tasks, background⟩ := f
  obtain ⟨haccounts, hbackground, hstage⟩ := h
  unfold go
  split
  · rename_i t e next earlier htasks
    cases htasks
    cases hstage with
    | between _ _ hover => cases hover _ List.mem_cons_self
    | during _ _ _ _ before _ hover hc halong =>
      obtain ⟨-, he, hnext⟩ := halong
      obtain ⟨as', haccounts', hmeets⟩ := reply_meets (r.respond_reply s e) he as haccounts
      exact ⟨as',haccounts',background_started _ background hbackground,
        stage_of_along hC t _ earlier before as' hover hc (hnext _ as' hmeets)⟩
  · exact ⟨as,haccounts,hbackground,hstage⟩

theorem provide_amid (n : Nat) (s : Supply) (h : f.Amid trusted C as) :
    (f.provide n s).Amid trusted C as := by
  obtain ⟨r, tasks, background⟩ := f
  obtain ⟨haccounts, hbackground, hstage⟩ := h
  unfold provide
  split
  · rename_i e next hn
    have hwithin : Program.Within apartTerms (.perform e next) :=
      hbackground _ (List.mem_of_getElem? hn)
    refine ⟨?_,?_,hstage⟩
    · rw [reply_apart (r.respond_reply s e) hwithin.1]
      exact haccounts
    · apply background_started
      intro p hp
      rcases List.mem_or_eq_of_mem_set hp with hp | rfl
      · exact hbackground p hp
      · exact hwithin.2 _ trivial
  · exact ⟨haccounts,hbackground,hstage⟩

theorem turn_amid (hC : Preserved trusted C) (t : Turn) (ht : ∀ u p, t = .trust u p → trusted p)
    (h : f.Amid trusted C as) : ∃ as', (f.turn t).Amid trusted C as' := by
  cases t with
  | trust t p =>
    exact ⟨as,begin_amid hC _ (fun as => submitTrusted_along t p (Or.inl (ht t p rfl))) h⟩
  | submit t accountId => exact ⟨as,begin_amid hC _ (fun as => submit_along t accountId) h⟩
  | go s => exact go_amid hC s h
  | provide n s => exact ⟨as,provide_amid n s h⟩

theorem play_amid (hC : Preserved trusted C) (turns : List Turn)
    (hturns : ∀ t p, .trust t p ∈ turns → trusted p) (h : f.Amid trusted C as) :
    ∃ as', (f.play turns).Amid trusted C as' := by
  induction turns generalizing f as with
  | nil => exact ⟨as,h⟩
  | cons t turns ih =>
    have ht : ∀ u p, t = .trust u p → trusted p := by
      rintro u p rfl
      exact hturns u p List.mem_cons_self
    obtain ⟨as', h'⟩ := turn_amid hC t ht h
    exact ih (fun u p hu => hturns u p (List.mem_cons_of_mem t hu)) h'

/-- When no task is under way, more may be known of this moment on. -/
theorem Amid.since (h : f.Amid trusted C as) (hquiet : f.isQuiet = true) (hd : D f.tasks as) :
    f.Amid trusted D as :=
  ⟨h.accounts,h.background,.between _ _ ((isQuiet_iff f).mp hquiet) hd⟩

/-- What has come of the first task since no task was under way and these were the accounts. -/
def FirstOutcome (trusted : Principal → Prop) (earlier : List Begun) (as : List Account)
    (tasks : List Begun) (as' : List Account) : Prop :=
  tasks = earlier ∧ as' = as ∨ ∃ t result later, tasks = later ++ ⟨t,.done result⟩ :: earlier ∧
    (later = [] → Outcome trusted as t result as')

theorem firstOutcome_preserved (earlier : List Begun) (as : List Account) :
    Preserved trusted (FirstOutcome trusted earlier as) := by
  intro tasks as' t result as'' h houtcome
  obtain ⟨rfl, rfl⟩ | ⟨u, first, later, rfl, -⟩ := h
  · exact Or.inr ⟨t,result,[],rfl,fun _ => houtcome⟩
  · exact Or.inr ⟨u,first,⟨t,.done result⟩ :: later,rfl,fun h => nomatch h⟩

/-- When one more task is over and no other one has begun, it was alone at work. -/
theorem play_alone (hC : Preserved trusted C) (turns : List Turn)
    (hturns : ∀ t p, .trust t p ∈ turns → trusted p) (h : f.Amid trusted C as)
    (hquiet : f.isQuiet = true) (t : Task) (result : Except TaskError t.Result)
    (htasks : (f.play turns).tasks = ⟨t,.done result⟩ :: f.tasks) :
    ∃ as', (f.play turns).Amid trusted C as' ∧ Outcome trusted as t result as' := by
  have hover := (isQuiet_iff f).mp hquiet
  have hboth : Preserved trusted fun tasks as' => C tasks as' ∧ FirstOutcome trusted f.tasks as tasks as' :=
    fun tasks as' t result as'' h houtcome => ⟨hC tasks as' t result as'' h.1 houtcome,
      firstOutcome_preserved f.tasks as tasks as' t result as'' h.2 houtcome⟩
  obtain ⟨as', h'⟩ := play_amid hboth turns hturns
    (h.since hquiet ⟨stage_quiet _ _ h.stage hover,Or.inl ⟨rfl,rfl⟩⟩)
  have hquiet' : ∀ b ∈ (f.play turns).tasks, b.isOver = true := by
    rw [htasks]
    exact List.forall_mem_cons.mpr ⟨rfl,hover⟩
  refine ⟨as',⟨h'.accounts,h'.background,stage_mono (fun _ _ => And.left) _ _ h'.stage⟩,?_⟩
  obtain ⟨-, ⟨hsame, -⟩ | ⟨u, first, later, hlater, houtcome⟩⟩ := stage_quiet _ _ h'.stage hquiet'
  · rw [htasks] at hsame
    exact absurd hsame (List.cons_ne_self _ _)
  · rw [htasks] at hlater
    have hnil : later = [] := by simpa using congrArg List.length hlater
    rw [hnil] at hlater
    cases hlater
    exact houtcome hnil

end Floor

end

end Tasks
end VmFleet
