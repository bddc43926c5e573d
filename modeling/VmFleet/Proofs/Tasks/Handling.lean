import VmFleet.Proofs.Store.Lookup
import VmFleet.Proofs.Tasks.Floor

/-!
# How tasks go about an account

A task that renames an account reads it and then puts all of it back, under its new names. It depends
on nothing else that it has read, and apart from that no task writes what it has read. Given what is
wanted of an account, it is told here of every task whether it may spoil that, whether it brings it
about, and when.
-/

set_option autoImplicit false

namespace VmFleet.Tasks

open Security Store

/-! ## Terms of an account -/

/-- What an answered effect has written to the account, if it has. -/
def written? (id : String) : (e : Effect) → e.Answer → Option (Option Account)
  | .accounts call, answer => call.written? id answer
  | _, _ => none

/-- An account that is read has the id that it was asked for by. -/
def Reads : (e : Effect) → e.Answer → Prop
  | .accounts (.get i), answer => ∀ a, answer = .ok a → a.id = i
  | _, _ => True

section

-- An account, and what is wanted of it; it may be wanted that there is none.
variable (id : String) (wanted : Option Account → Prop)

/-- The account is only put as wanted. -/
def Suits : Effect → Prop
  | .accounts (.put a) => a.id = id → wanted (some a)
  | .accounts (.putAll _) => False
  | _ => True

/-- The terms of somebody who may find any account. -/
def freely : Terms := ⟨Suits id wanted,Reads⟩

/-- The terms of somebody who finds the account as wanted. -/
def keeping : Terms where
  allows := Suits id wanted
  grants
    | .accounts (.get i), answer =>
      ∀ a, answer = .ok a → a.id = i ∧ (i = id → wanted (some a))
    | _, _ => True

/-- The account has become as wanted by this effect. -/
def Achieves (e : Effect) (answer : e.Answer) : Prop := ∃ o, written? id e answer = some o ∧ wanted o

theorem wanted_of_written (e : Effect) (answer : e.Answer) (he : Suits id wanted e)
    (hspared : written? id e answer = some none → wanted none) (o : Option Account)
    (h : written? id e answer = some o) : wanted o := by
  cases o with
  | none => exact hspared h
  | some x =>
    cases e with
    | accounts call =>
      cases call with
      | put a =>
        simp only [written?, Call.written?] at h
        split at h
        · rename_i hid
          cases h
          exact he hid.1
        · cases h
      | delete i =>
        simp only [written?, Call.written?] at h
        split at h <;> cases h
      | _ => cases h
    | _ => cases h

theorem freely_within {α : Type} (p : Program α) (h : p.Within (freely id wanted)) :
    p.Within (keeping id wanted) := by
  refine h.ease (fun _ he => he) ?_
  intro e answer hg
  cases e with
  | accounts call =>
    cases call with
    | get i => exact fun a ha => (hg a ha).1
    | _ => trivial
  | _ => trivial

/-- The background work writes to no account. -/
theorem provisioning_freely (m : Machine) : (provisioning m).Within (freely id wanted) := by
  apply provisioning_within
  · intro channel payload
    trivial
  · intro event
    trivial
  · intro reply _ _
    trivial

end

/-! ## What answers do to the account -/

theorem get_answer (r : Records) (as : List Account) (has : r.accounts.repository.Holds as)
    (i : String) (a : Account) (h : (r.onAccounts (.get i)).1 = .ok a) :
    a.id = i ∧ Memory.find as i = some a := by
  rcases accounts_held r (.get i) (fun _ h => by cases h) as has with ⟨⟨reason, hf⟩, -⟩ | ⟨hanswer, -⟩
  · cases hf.symm.trans h
  · have hfind := (Memory.get_eq_ok_iff as i a).mp (hanswer.symm.trans h)
    exact ⟨(Memory.find_eq_some as i a hfind).2,hfind⟩

theorem reply_reads (r : Records) (e : Effect) (answer : e.Answer) (r' : Records)
    (started : List Machine) (hreply : Reply r e answer r' started) (as : List Account)
    (has : r.accounts.repository.Holds as) : Reads e answer := by
  cases hreply with
  | accounts call =>
    cases call with
    | get i => exact fun a ha => (get_answer r as has i a ha).1
    | _ => trivial
  | _ => trivial

theorem reply_grants (id : String) (wanted : Option Account → Prop) (r : Records) (e : Effect)
    (answer : e.Answer) (r' : Records) (started : List Machine)
    (hreply : Reply r e answer r' started) (as : List Account)
    (has : r.accounts.repository.Holds as) (hw : wanted (Memory.find as id)) :
    (keeping id wanted).grants e answer := by
  cases hreply with
  | accounts call =>
    cases call with
    | get i =>
      intro a ha
      obtain ⟨hid, hfind⟩ := get_answer r as has i a ha
      refine ⟨hid, ?_⟩
      rintro rfl
      rwa [hfind] at hw
    | _ => trivial
  | _ => trivial

theorem reply_written (id : String) (r : Records) (e : Effect) (answer : e.Answer) (r' : Records)
    (started : List Machine) (hreply : Reply r e answer r' started) (as : List Account)
    (has : r.accounts.repository.Holds as) (hsingle : ∀ new, e ≠ .accounts (.putAll new))
    (hfresh : ∀ a ensureUnique, e = .accounts (.add a ensureUnique) → a.id ≠ id) :
    ∃ as', r'.accounts.repository.Holds as' ∧
      Memory.find as' id = (written? id e answer).getD (Memory.find as id) := by
  cases hreply with
  | accounts call =>
    have hcall : ∀ new, call ≠ .putAll new := fun new h => hsingle new (congrArg Effect.accounts h)
    rcases accounts_held r call hcall as has with ⟨⟨reason, hf⟩, h⟩ | ⟨hanswer, h⟩
    · refine ⟨as, h, ?_⟩
      rw [hf]
      cases call <;> simp [written?, Call.written?, Except.isOk, Except.toBool]
    · refine ⟨_, h, ?_⟩
      rw [hanswer]
      exact Memory.find_run as id call
        (fun a ensureUnique h => hfresh a ensureUnique (congrArg Effect.accounts h)) hcall
  | _ => exact ⟨as,has,rfl⟩

/-! ## How a task goes about the account -/

section

variable {α : Type} (id : String) (wanted : Option Account → Prop)

/-- The call on the accounts that the program makes next. -/
def nextCall? : Program α → Option (Call Account)
  | .perform (.accounts call) _ => some call
  | _ => none

/-- What the program does next is to put the account. -/
def AboutToPut (p : Program α) : Prop := ∃ a : Account, nextCall? p = some (.put a) ∧ a.id = id

/-- The program keeps the terms, unless it is about to put the account, and keeps them afterwards. -/
def Poised (p : Program α) : Prop :=
  p.Within (keeping id wanted) ∨
    ∃ (a : Account) (next : (Effect.accounts (.put a)).Answer → Program α),
      p = .perform (.accounts (.put a)) next ∧ a.id = id ∧
        ∀ answer, (next answer).Within (keeping id wanted)

/-- The program is poised at any time, also when it finds the account not as wanted. -/
def Settles : Program α → Prop
  | .done _ => True
  | .perform e next =>
    Poised id wanted (.perform e next) ∧ ∀ answer, Reads e answer → Settles (next answer)

/-- The program does not succeed without the account becoming as wanted. -/
def Owes : Program (Except TaskError α) → Prop
  | .done r => r.isOk = false
  | .perform e next =>
    ∀ answer, Reads e answer → Achieves id wanted e answer ∨ Owes (next answer)

variable {id wanted}

theorem Poised.within {p : Program α} (h : Poised id wanted p) (hq : ¬ AboutToPut id p) :
    p.Within (keeping id wanted) := by
  rcases h with h | ⟨a, next, hp, hid, -⟩
  · exact h
  · exact absurd ⟨a,by rw [hp]; rfl,hid⟩ hq

theorem Settles.within {p : Program α} (h : Settles id wanted p) (hq : ¬ AboutToPut id p) :
    p.Within (keeping id wanted) := by
  cases p with
  | done a => trivial
  | perform e next => exact h.1.within hq

theorem settles_of_within (p : Program α) (h : p.Within (freely id wanted)) :
    Settles id wanted p := by
  induction p with
  | done a => trivial
  | perform e next ih =>
    exact ⟨Or.inl (freely_within id wanted _ h),fun answer hr => ih answer (h.2 answer hr)⟩

/-! How a task went is recorded when it is over; that changes nothing about the account. -/

theorem within_recorded (k : Terms) (p : Program α) (event : α → Metrics.Event)
    (hrecord : ∀ event, k.allows (.record event)) (h : p.Within k) :
    (p.bind fun r => .perform (.record (event r)) fun _ => .done r).Within k :=
  Program.within_bind k _ _ h fun _ => ⟨hrecord _,fun _ _ => trivial⟩

theorem settles_recorded (p : Program α) (event : α → Metrics.Event) (h : Settles id wanted p) :
    Settles id wanted (p.bind fun r => .perform (.record (event r)) fun _ => .done r) := by
  induction p with
  | done r => exact settles_of_within _ ⟨trivial,fun _ _ => trivial⟩
  | perform e next ih =>
    refine ⟨?_, fun answer hr => ih answer (h.2 answer hr)⟩
    rcases h.1 with hk | ⟨a, next', hp, hid, hafter⟩
    · exact Or.inl (within_recorded _ _ event (fun _ => trivial) hk)
    · cases hp
      exact Or.inr ⟨a,_,rfl,hid,
        fun answer => within_recorded _ _ event (fun _ => trivial) (hafter answer)⟩

theorem owes_recorded (p : Program (Except TaskError α)) (event : Except TaskError α → Metrics.Event)
    (h : Owes id wanted p) :
    Owes id wanted (p.bind fun r => .perform (.record (event r)) fun _ => .done r) := by
  induction p with
  | done r => exact fun _ _ => Or.inr h
  | perform e next ih => exact fun answer hr => (h answer hr).imp_right (ih answer)

end

/-! ## How the tasks go about it -/

/-- A task that renames the account leaves it as wanted. -/
def Respects (id : String) (wanted : Option Account → Prop) : Task → Prop
  | .updateUser i firstName lastName =>
    i = id → ∀ a : Account, wanted (some a) → wanted (some (renamed a firstName lastName))
  | _ => True

section

variable {id : String} {wanted : Option Account → Prop}

theorem createVm_freely (p : Principal) (provider : Provider) :
    (createVm p provider).run.Within (freely id wanted) := by
  apply Attempt.within_authorize
  intro _
  apply Attempt.within_bind _ _ _ (checkOwner_within p _ trivial)
  intro _
  apply Attempt.within_bind _ _ _ (freshId_within _ _ trivial)
  intro newId
  apply Attempt.within_machines _ _ _ trivial
  intro stored _
  exact Attempt.within_ask _ _ _ trivial fun _ _ => trivial

theorem updateUser_freely (p : Principal) (i firstName lastName : String) (hi : i ≠ id) :
    (updateUser p i firstName lastName).run.Within (freely id wanted) := by
  apply Attempt.within_authorize
  intro _
  apply Attempt.within_accounts _ _ _ trivial
  intro current hg
  exact ⟨fun hid => absurd ((hg current rfl).symm.trans hid) hi,fun _ _ => trivial⟩

/-- Only a task that renames the account writes what it has read. -/
theorem execute_freely (t : Task) (p : Principal) (hr : Respects id wanted t)
    (hother : ∀ firstName lastName, t ≠ .updateUser id firstName lastName) :
    (t.execute p).run.Within (freely id wanted) := by
  apply execute_within
  · rintro i firstName lastName rfl
    apply updateUser_freely
    rintro rfl
    exact hother firstName lastName rfl
  · intro provider _
    exact createVm_freely p provider
  · intro call hcall
    cases call with
    | put a => cases hcall
    | putAll new => cases hcall
    | _ => trivial
  · intro call _
    trivial
  · intro count
    trivial

theorem updateUser_run (p : Principal) (i firstName lastName : String)
    (h : isAllowed p .updateUser (.of p i) = true) :
    (updateUser p i firstName lastName).run = .perform (.accounts (.get i)) fun
      | .ok a => (Attempt.accounts (.put (renamed a firstName lastName))).run
      | .error e => .done (.error (.ofStore e)) := by
  unfold updateUser
  rw [Attempt.authorize_allowed _ _ _ _ h]
  refine congrArg (Program.perform (.accounts (.get i))) (funext fun answer => ?_)
  cases answer <;> rfl

theorem updateUser_settles (p : Principal) (firstName lastName : String)
    (hr : Respects id wanted (.updateUser id firstName lastName)) :
    Settles id wanted (updateUser p id firstName lastName).run ∧
      ¬ AboutToPut id (updateUser p id firstName lastName).run := by
  cases h : isAllowed p .updateUser (.of p id) with
  | false =>
    unfold updateUser
    rw [Attempt.authorize_denied _ _ _ _ h]
    refine ⟨trivial, ?_⟩
    rintro ⟨a, ha, -⟩
    cases ha
  | true =>
    rw [updateUser_run p id firstName lastName h]
    refine ⟨⟨Or.inl ⟨trivial,?_⟩,?_⟩,?_⟩
    · intro answer hg
      cases answer with
      | ok a => exact ⟨fun _ => hr rfl a ((hg a rfl).2 rfl),fun _ _ => trivial⟩
      | error e => trivial
    · intro answer hreads
      cases answer with
      | ok a => exact ⟨Or.inr ⟨_,_,rfl,hreads a rfl,fun _ => trivial⟩,fun _ _ => trivial⟩
      | error e => trivial
    · rintro ⟨a, ha, -⟩
      cases ha

theorem execute_settles (t : Task) (p : Principal) (hr : Respects id wanted t) :
    Settles id wanted (t.execute p).run ∧ (t.execute p).run.Within (keeping id wanted) := by
  by_cases hother : ∃ firstName lastName, t = .updateUser id firstName lastName
  · obtain ⟨firstName, lastName, rfl⟩ := hother
    obtain ⟨hs, hq⟩ := updateUser_settles p firstName lastName hr
    exact ⟨hs,hs.within hq⟩
  · have h := execute_freely t p hr fun firstName lastName ht => hother ⟨firstName,lastName,ht⟩
    exact ⟨settles_of_within _ h,freely_within id wanted _ h⟩

theorem submitTrusted_settles (t : Task) (p : Principal) (hr : Respects id wanted t) :
    Settles id wanted (t.submitTrusted p).run ∧
      (t.submitTrusted p).run.Within (keeping id wanted) := by
  obtain ⟨hs, hk⟩ := execute_settles t p hr
  rw [submitTrusted_run]
  exact ⟨settles_recorded _ _ hs,within_recorded _ _ _ (fun _ => trivial) hk⟩

theorem submit_settles (t : Task) (accountId : String) (hr : Respects id wanted t) :
    Settles id wanted (t.submit accountId).run ∧
      (t.submit accountId).run.Within (keeping id wanted) := by
  have hk : (t.submit accountId).run.Within (keeping id wanted) :=
    submit_within _ t accountId trivial fun a _ => (submitTrusted_settles t (.ofAccount a) hr).2
  refine ⟨?_, hk⟩
  rw [submit_run] at hk ⊢
  refine ⟨Or.inl hk, ?_⟩
  intro answer _
  cases answer with
  | ok a => exact (submitTrusted_settles t (.ofAccount a) hr).1
  | error e => trivial

end

/-- A task that makes the account as wanted, if it succeeds. -/
def Accomplishes (id : String) (wanted : Option Account → Prop) : Task → Prop
  | .updateUser i firstName lastName =>
    i = id ∧ ∀ a : Account, wanted (some (renamed a firstName lastName))
  | .deleteUser i => i = id ∧ wanted none
  | _ => False

section

variable {id : String} {wanted : Option Account → Prop}

theorem updateUser_owes (p : Principal) (firstName lastName : String)
    (h : ∀ a : Account, wanted (some (renamed a firstName lastName))) :
    Owes id wanted (updateUser p id firstName lastName).run := by
  cases ha : isAllowed p .updateUser (.of p id) with
  | false =>
    unfold updateUser
    rw [Attempt.authorize_denied _ _ _ _ ha]
    rfl
  | true =>
    rw [updateUser_run p id firstName lastName ha]
    intro answer hreads
    right
    cases answer with
    | error e => rfl
    | ok a =>
      have hid : a.id = id := hreads a rfl
      intro answer _
      cases answer with
      | error e => exact Or.inr rfl
      | ok x =>
        refine Or.inl ⟨some (renamed a firstName lastName), ?_, h a⟩
        exact if_pos ⟨hid,rfl⟩

theorem deleteUser_owes (p : Principal) (h : wanted none) :
    Owes id wanted (deleteUser p id).run := by
  cases ha : isAllowed p .deleteUser (.of p id) with
  | false =>
    have hrun : (deleteUser p id).run = .done (.error (.unauthorized ⟨p.id, .deleteUser⟩)) :=
      execute_denied (.deleteUser id) p ha
    rw [hrun]
    rfl
  | true =>
    have hrun : (deleteUser p id).run = (Attempt.accounts (.delete id)).run :=
      Attempt.authorize_allowed p .deleteUser (.of p id) (fun _ => Attempt.accounts (.delete id)) ha
    rw [hrun]
    intro answer _
    cases answer with
    | error e => exact Or.inr rfl
    | ok x => exact Or.inl ⟨none,if_pos ⟨rfl,rfl⟩,h⟩

theorem submitTrusted_owes (t : Task) (p : Principal) (h : Accomplishes id wanted t) :
    Owes id wanted (t.submitTrusted p).run := by
  rw [submitTrusted_run]
  apply owes_recorded
  cases t with
  | updateUser i firstName lastName =>
    obtain ⟨rfl, h⟩ := h
    exact updateUser_owes p firstName lastName h
  | deleteUser i =>
    obtain ⟨rfl, h⟩ := h
    exact deleteUser_owes p h
  | _ => cases h

theorem submit_owes (t : Task) (accountId : String) (h : Accomplishes id wanted t) :
    Owes id wanted (t.submit accountId).run := by
  rw [submit_run]
  intro answer _
  cases answer with
  | ok a => exact Or.inr (submitTrusted_owes t (.ofAccount a) h)
  | error e => exact Or.inr rfl

end

end VmFleet.Tasks
