import VmFleet.Proofs.Tasks.Handling

/-!
# Renaming and closing accounts side by side

A task that renames an account reads it first and then writes back all of it. What another task has
written meanwhile is undone by that: an account that was deleted is there again, and of two new names
one is gone. As long as nothing is written to an account between the reading and the writing of such
a task, what a task on the account has achieved lasts.
-/

set_option autoImplicit false

namespace VmFleet.Tasks

open Security Store

/-- No new account gets the id, the account is not deleted unless that is wanted, and nothing that is
wanted of it is written while another task has read it and is about to put it. -/
structure Undisturbed (id : String) (wanted : Option Account → Prop) (others : List Begun)
    (e : Effect) (answer : e.Answer) : Prop where
  fresh : ∀ a ensureUnique, e = .accounts (.add a ensureUnique) → a.id ≠ id
  spared : written? id e answer = some none → wanted none
  alone : ∀ o, written? id e answer = some o → wanted o → ∀ b ∈ others, ¬ AboutToPut id b.rest

theorem Undisturbed.mono {id : String} {wanted wanted' : Option Account → Prop}
    {others : List Begun} {e : Effect} {answer : e.Answer}
    (h : Undisturbed id wanted others e answer) (hnone : wanted none → wanted' none)
    (hless : ∀ o, wanted' o → wanted o) : Undisturbed id wanted' others e answer :=
  ⟨h.fresh,fun ho => hnone (h.spared ho),fun o ho hw => h.alone o ho (hless o hw)⟩

namespace Floor

/-- Nobody on the floor has the account in hand but to put it at once. -/
structure Settled (id : String) (wanted : Option Account → Prop) (f : Floor) : Prop where
  records : ∃ as, f.records.accounts.repository.Holds as
  tasks : ∀ b ∈ f.tasks, Settles id wanted b.rest
  background : ∀ q ∈ f.background, q.Within (freely id wanted)

/-- The account is as wanted, and nobody on the floor will change that. -/
structure Lasting (id : String) (wanted : Option Account → Prop) (f : Floor) : Prop where
  records : ∃ as, f.records.accounts.repository.Holds as ∧ wanted (Memory.find as id)
  tasks : ∀ b ∈ f.tasks, b.rest.Within (keeping id wanted)
  background : ∀ q ∈ f.background, q.Within (freely id wanted)

section

variable {id : String} {wanted : Option Account → Prop} {f f' : Floor}

theorem suits_single (e : Effect) (h : Suits id wanted e) (new : List Account) :
    e ≠ .accounts (.putAll new) := by
  rintro rfl
  exact h

theorem poised_single {α : Type} (e : Effect) (next : e.Answer → Program α)
    (h : Poised id wanted (.perform e next)) (new : List Account) :
    e ≠ .accounts (.putAll new) := by
  rcases h with h | ⟨a, next', hp, -, -⟩
  · exact suits_single e h.1 new
  · cases hp
    rintro ⟨⟩

theorem forall_replaced {α : Type} {P : α → Prop} {before after : List α} {old new : α}
    (h : ∀ x ∈ before ++ old :: after, P x) (hnew : P new) :
    ∀ x ∈ before ++ new :: after, P x := by
  intro x hx
  rcases List.mem_append.mp hx with hx | hx
  · exact h x (List.mem_append_left _ hx)
  · rcases List.mem_cons.mp hx with rfl | hx
    · exact hnew
    · exact h x (by simp [hx])

theorem forall_started (background : List (Program Unit)) (started : List Machine)
    (h : ∀ q ∈ background, q.Within (freely id wanted)) :
    ∀ q ∈ background ++ started.map provisioning, q.Within (freely id wanted) := by
  intro q hq
  rcases List.mem_append.mp hq with hq | hq
  · exact h q hq
  · obtain ⟨m, -, rfl⟩ := List.mem_map.mp hq
    exact provisioning_freely id wanted m

/-- What is written to the account under terms that suit it leaves it as wanted. -/
theorem reply_wanted (r : Records) (e : Effect) (answer : e.Answer) (r' : Records)
    (started : List Machine) (hreply : Reply r e answer r' started) (as : List Account)
    (has : r.accounts.repository.Holds as) (he : Suits id wanted e) (others : List Begun)
    (hfair : Undisturbed id wanted others e answer) (hw : wanted (Memory.find as id)) :
    ∃ as', r'.accounts.repository.Holds as' ∧ wanted (Memory.find as' id) := by
  obtain ⟨as', has', hfind⟩ :=
    reply_written id r e answer r' started hreply as has (suits_single e he) hfair.fresh
  refine ⟨as', has', ?_⟩
  rw [hfind]
  cases ho : written? id e answer with
  | none => exact hw
  | some o => exact wanted_of_written id wanted e answer he hfair.spared o ho

theorem step_settled (hs : Step (Undisturbed id wanted) f f')
    (hr : ∀ b ∈ f'.tasks, Respects id wanted b.task) (h : f.Settled id wanted) :
    f'.Settled id wanted := by
  obtain ⟨⟨as, has⟩, htasks, hback⟩ := h
  cases hs with
  | trust _ t p =>
    refine ⟨⟨as,has⟩,?_,hback⟩
    intro b hb
    rcases List.mem_cons.mp hb with rfl | hb
    · exact (submitTrusted_settles t p (hr _ List.mem_cons_self)).1
    · exact htasks b hb
  | submit _ t accountId =>
    refine ⟨⟨as,has⟩,?_,hback⟩
    intro b hb
    rcases List.mem_cons.mp hb with rfl | hb
    · exact (submit_settles t accountId (hr _ List.mem_cons_self)).1
    · exact htasks b hb
  | go before after background t e next answer r r' started hreply hfair =>
    obtain ⟨hpoised, hnext⟩ := htasks ⟨t,.perform e next⟩ (by simp)
    obtain ⟨as', has', -⟩ := reply_written id r e answer r' started hreply as has
      (poised_single e next hpoised) hfair.fresh
    have hreads := reply_reads r e answer r' started hreply as has
    exact ⟨⟨as',has'⟩,forall_replaced htasks (hnext answer hreads),
      forall_started background started hback⟩
  | provide tasks before after e next answer r r' started hreply hfair =>
    obtain ⟨he, hnext⟩ := hback (.perform e next) (by simp)
    obtain ⟨as', has', -⟩ := reply_written id r e answer r' started hreply as has
      (suits_single e he) hfair.fresh
    have hreads := reply_reads r e answer r' started hreply as has
    refine ⟨⟨as',has'⟩,htasks,?_⟩
    have hstarted := forall_started _ started (forall_replaced hback (hnext answer hreads))
    simpa only [List.append_assoc, List.cons_append] using hstarted

theorem step_lasting (hs : Step (Undisturbed id wanted) f f')
    (hr : ∀ b ∈ f'.tasks, Respects id wanted b.task) (h : f.Lasting id wanted) :
    f'.Lasting id wanted := by
  obtain ⟨⟨as, has, hw⟩, htasks, hback⟩ := h
  cases hs with
  | trust _ t p =>
    refine ⟨⟨as,has,hw⟩,?_,hback⟩
    intro b hb
    rcases List.mem_cons.mp hb with rfl | hb
    · exact (submitTrusted_settles t p (hr _ List.mem_cons_self)).2
    · exact htasks b hb
  | submit _ t accountId =>
    refine ⟨⟨as,has,hw⟩,?_,hback⟩
    intro b hb
    rcases List.mem_cons.mp hb with rfl | hb
    · exact (submit_settles t accountId (hr _ List.mem_cons_self)).2
    · exact htasks b hb
  | go before after background t e next answer r r' started hreply hfair =>
    obtain ⟨he, hnext⟩ := htasks ⟨t,.perform e next⟩ (by simp)
    have hgrants := reply_grants id wanted r e answer r' started hreply as has hw
    exact ⟨reply_wanted r e answer r' started hreply as has he _ hfair hw,
      forall_replaced htasks (hnext answer hgrants),forall_started background started hback⟩
  | provide tasks before after e next answer r r' started hreply hfair =>
    obtain ⟨he, hnext⟩ := hback (.perform e next) (by simp)
    have hreads := reply_reads r e answer r' started hreply as has
    refine ⟨reply_wanted r e answer r' started hreply as has he _ hfair hw,htasks,?_⟩
    have hstarted := forall_started _ started (forall_replaced hback (hnext answer hreads))
    simpa only [List.append_assoc, List.cons_append] using hstarted

/-- Once a task has made the account as wanted, and no other is about to put it, that lasts. -/
theorem go_lasting (before after : List Begun) (background : List (Program Unit)) (t : Task)
    (e : Effect) (next : e.Answer → Program (Except TaskError t.Result)) (answer : e.Answer)
    (r r' : Records) (started : List Machine) (hreply : Reply r e answer r' started)
    (hfair : Undisturbed id wanted (before ++ after) e answer) (hdone : Achieves id wanted e answer)
    (h : Settled id wanted ⟨r,before ++ ⟨t,.perform e next⟩ :: after,background⟩) :
    Lasting id wanted
      ⟨r',before ++ ⟨t,next answer⟩ :: after,background ++ started.map provisioning⟩ := by
  obtain ⟨⟨as, has⟩, htasks, hback⟩ := h
  obtain ⟨o, ho, hw⟩ := hdone
  have hpoised := (htasks ⟨t,.perform e next⟩ (by simp)).1
  obtain ⟨as', has', hfind⟩ := reply_written id r e answer r' started hreply as has
    (poised_single e next hpoised) hfair.fresh
  refine ⟨⟨as',has',by rwa [hfind, ho]⟩,?_,forall_started background started hback⟩
  have hothers : ∀ b ∈ before ++ after, b.rest.Within (keeping id wanted) := by
    intro b hb
    have hsettles : Settles id wanted b.rest := by
      rcases List.mem_append.mp hb with hb | hb
      · exact htasks b (List.mem_append_left _ hb)
      · exact htasks b (by simp [hb])
    exact hsettles.within (hfair.alone o ho hw b hb)
  have hnext : (next answer).Within (keeping id wanted) := by
    rcases hpoised with hk | ⟨a, next', hp, -, hafter⟩
    · apply hk.2 answer
      -- what has just written the account did not read it
      cases e with
      | accounts call =>
        cases call with
        | get i => cases ho
        | _ => trivial
      | _ => trivial
    · cases hp
      exact hafter answer
  intro b hb
  rcases List.mem_append.mp hb with hb | hb
  · exact hothers b (List.mem_append_left _ hb)
  · rcases List.mem_cons.mp hb with rfl | hb
    · exact hnext
    · exact hothers b (List.mem_append_right _ hb)

/-- The account is as wanted for good, or whoever is to make it so has not succeeded. -/
structure Promised (id : String) (wanted : Option Account → Prop) (f : Floor) : Prop where
  settled : f.Settled id wanted
  kept : f.Lasting id wanted ∨
    ∀ b ∈ f.tasks, Accomplishes id wanted b.task → Owes id wanted b.rest

theorem step_promised (hs : Step (Undisturbed id wanted) f f')
    (hr : ∀ b ∈ f'.tasks, Respects id wanted b.task) (h : f.Promised id wanted) :
    f'.Promised id wanted := by
  refine ⟨step_settled hs hr h.settled, ?_⟩
  rcases h.kept with hlasting | howes
  · exact Or.inl (step_lasting hs hr hlasting)
  · have hsettled := h.settled
    cases hs with
    | trust _ t p =>
      right
      intro b hb hacc
      rcases List.mem_cons.mp hb with rfl | hb
      · exact submitTrusted_owes t p hacc
      · exact howes b hb hacc
    | submit _ t accountId =>
      right
      intro b hb hacc
      rcases List.mem_cons.mp hb with rfl | hb
      · exact submit_owes t accountId hacc
      · exact howes b hb hacc
    | go before after background t e next answer r r' started hreply hfair =>
      by_cases hdone : Achieves id wanted e answer
      · exact Or.inl (go_lasting before after background t e next answer r r' started hreply hfair
          hdone hsettled)
      · right
        obtain ⟨as, has⟩ := hsettled.records
        have hreads := reply_reads r e answer r' started hreply as has
        refine forall_replaced howes fun hacc => ?_
        exact (howes ⟨t,.perform e next⟩ (by simp) hacc answer hreads).resolve_left hdone
    | provide => exact Or.inr howes

theorem run_promised (r : Records) (as : List Account) (has : r.accounts.repository.Holds as)
    (hrun : Run (Undisturbed id wanted) ⟨r,[],[]⟩ f) (hr : ∀ b ∈ f.tasks, Respects id wanted b.task) :
    f.Promised id wanted := by
  induction hrun with
  | refl => exact ⟨⟨⟨as,has⟩,by simp,by simp⟩,Or.inr (by simp)⟩
  | tail _ hs ih =>
    refine step_promised hs hr (ih ?_)
    intro b hb
    obtain ⟨b', hb', htask⟩ := step_tasks hs b hb
    exact htask ▸ hr b' hb'

theorem succeeded_lasting (h : f.Promised id wanted) (b : Begun) (hb : b ∈ f.tasks)
    (hacc : Accomplishes id wanted b.task) (hok : b.succeeded = true) : f.Lasting id wanted := by
  rcases h.kept with hlasting | howes
  · exact hlasting
  · have howe := howes b hb hacc
    unfold Begun.succeeded at hok
    split at hok
    · rename_i hrest
      rw [hrest] at howe
      cases howe
    · cases hok

theorem lasting_of_task (r : Records) (as : List Account) (has : r.accounts.repository.Holds as)
    (hrun : Run (Undisturbed id wanted) ⟨r,[],[]⟩ f) (hr : ∀ b ∈ f.tasks, Respects id wanted b.task)
    (t : Task) (ht : Accomplishes id wanted t) (hok : ∃ b ∈ f.tasks, b.task = t ∧ b.succeeded = true) :
    f.Lasting id wanted := by
  obtain ⟨b, hb, rfl, hsucceeded⟩ := hok
  exact succeeded_lasting (run_promised r as has hrun hr) b hb ht hsucceeded

theorem Lasting.stored (h : f.Lasting id wanted) :
    ∃ now, f.records.accounts.repository.records = .ok now ∧ wanted (Memory.find now id) := by
  obtain ⟨now, hnow, hw⟩ := h.records
  exact ⟨now,Repository.holds_records _ _ hnow,hw⟩

end

/-! ## Main statement -/

theorem renamed_firstName (a : Account) (first last : String) :
    (renamed a first last).firstName = if first = "" then a.firstName else first := by
  simp [renamed, String.isEmpty_iff]

theorem renamed_lastName (a : Account) (first last : String) :
    (renamed a first last).lastName = if last = "" then a.lastName else last := by
  simp [renamed, String.isEmpty_iff]

section

variable (id : String) (r : Records) (as : List Account) (has : r.accounts.repository.Holds as)
  (f : Floor)
include has

theorem deletion_lasts (hrun : Run (Undisturbed id fun o => o = none) ⟨r,[],[]⟩ f)
    (hok : ∃ b ∈ f.tasks, b.task = .deleteUser id ∧ b.succeeded = true) :
    f.Lasting id fun o => o = none := by
  refine lasting_of_task r as has hrun ?_ (.deleteUser id) ⟨rfl,rfl⟩ hok
  intro b _
  cases b.task with
  | updateUser i first last =>
    intro _ a ha
    cases ha
  | _ => trivial

/-- A name lasts when no task gives the account another. -/
theorem name_lasts (name : Account → String) (new first last : String)
    (hnew : ∀ a, name (renamed a first last) = new)
    (hrun : Run (Undisturbed id fun o => o.isSome = true) ⟨r,[],[]⟩ f)
    (hok : ∃ b ∈ f.tasks, b.task = .updateUser id first last ∧ b.succeeded = true)
    (hrest : ∀ b ∈ f.tasks, ∀ g l, b.task = .updateUser id g l →
      ∀ a, name (renamed a g l) = name a ∨ name (renamed a g l) = new) :
    f.Lasting id fun o => ∃ a, o = some a ∧ name a = new := by
  have hfair : Run (Undisturbed id fun o => ∃ a, o = some a ∧ name a = new) ⟨r,[],[]⟩ f := by
    refine run_mono hrun fun others e answer h => h.mono (fun hnone => nomatch hnone) ?_
    rintro o ⟨a, rfl, -⟩
    rfl
  refine lasting_of_task r as has hfair ?_ (.updateUser id first last) ⟨rfl,fun a => ?_⟩ hok
  · intro b hb
    have h := hrest b hb
    cases htask : b.task with
    | updateUser i g l =>
      rintro rfl a ⟨_, ⟨⟩, ha⟩
      refine ⟨_, rfl, ?_⟩
      rcases h g l htask a with hsame | hnew
      · exact hsame.trans ha
      · exact hnew
    | _ => trivial
  · exact ⟨_,rfl,hnew a⟩

/-- From any records: an account that a task has deleted is not there any more, when no other task
was about to put it as it was deleted. And when one task has given an account a new first name and
another a new last name, and no task was to give it others, then it is there with both, when it was
not deleted and no task has put it while another was about to put it. -/
theorem undisturbed_tasks_last :
    (Run (Undisturbed id fun o => o = none) ⟨r,[],[]⟩ f →
      (∃ b ∈ f.tasks, b.task = .deleteUser id ∧ b.succeeded = true) →
      ∃ now, f.records.accounts.repository.records = .ok now ∧ ∀ a ∈ now, a.id ≠ id) ∧
    ∀ first last, first ≠ "" → last ≠ "" →
      Run (Undisturbed id fun o => o.isSome = true) ⟨r,[],[]⟩ f →
      (∃ b ∈ f.tasks, b.task = .updateUser id first "" ∧ b.succeeded = true) →
      (∃ b ∈ f.tasks, b.task = .updateUser id "" last ∧ b.succeeded = true) →
      (∀ b ∈ f.tasks, ∀ g l, b.task = .updateUser id g l →
        (g = "" ∨ g = first) ∧ (l = "" ∨ l = last)) →
      ∃ now, f.records.accounts.repository.records = .ok now ∧
        ∃ a ∈ now, a.id = id ∧ a.firstName = first ∧ a.lastName = last := by
  constructor
  · intro hrun hok
    obtain ⟨now, hnow, hnone⟩ := (deletion_lasts id r as has f hrun hok).stored
    exact ⟨now,hnow,(Memory.find_eq_none_iff now id).mp hnone⟩
  · intro first last hfirst hlast hrun hokFirst hokLast hrest
    have hfirstLasts : f.Lasting id fun o => ∃ a, o = some a ∧ a.firstName = first := by
      refine name_lasts id r as has f Account.firstName first first "" ?_ hrun hokFirst ?_
      · intro a
        rw [renamed_firstName, if_neg hfirst]
      · intro b hb g l htask a
        rw [renamed_firstName]
        rcases (hrest b hb g l htask).1 with rfl | rfl
        · exact Or.inl (if_pos rfl)
        · exact Or.inr (if_neg hfirst)
    have hlastLasts : f.Lasting id fun o => ∃ a, o = some a ∧ a.lastName = last := by
      refine name_lasts id r as has f Account.lastName last "" last ?_ hrun hokLast ?_
      · intro a
        rw [renamed_lastName, if_neg hlast]
      · intro b hb g l htask a
        rw [renamed_lastName]
        rcases (hrest b hb g l htask).2 with rfl | rfl
        · exact Or.inl (if_pos rfl)
        · exact Or.inr (if_neg hlast)
    obtain ⟨now, hnow, a, ha, hnameFirst⟩ := hfirstLasts.stored
    obtain ⟨now', hnow', a', ha', hnameLast⟩ := hlastLasts.stored
    cases hnow.symm.trans hnow'
    cases ha.symm.trans ha'
    obtain ⟨hmem, hid⟩ := Memory.find_eq_some now id a ha
    exact ⟨now,hnow,a,hmem,hid,hnameFirst,hnameLast⟩

end

/-! ## Two tasks on one account -/

def stocked (as : List Account) : Records :=
  ⟨⟨.memory as, 0, 0, []⟩, ⟨.memory [], 0, 0, []⟩, .empty, 0⟩

def alice : Account := ⟨"USER:1", "alice", "Alice", "Adams", "hash", "salt", .user⟩

/-- The task of this number neither adds an account under the id nor, when that is to be spared,
deletes the one there, and no other is about to put it. -/
def isCalm (f : Floor) (id : String) (isSpared : Bool) (n : Nat) : Bool :=
  (match (f.tasks[n]?).bind fun b => nextCall? b.rest with
    | some (.add a _) => a.id ≠ id
    | some (.delete i) => !isSpared || i ≠ id
    | _ => true) &&
  (f.tasks.eraseIdx n).all fun b =>
    match nextCall? b.rest with
    | some (.put a) => a.id ≠ id
    | _ => true

def isCalmAlong (f : Floor) (id : String) (isSpared : Bool) : List Nat → Bool
  | [] => true
  | n :: ns => f.isCalm id isSpared n && (f.advance n).isCalmAlong id isSpared ns

theorem advance_calm (f : Floor) (id : String) (isSpared : Bool) (wanted : Option Account → Prop)
    (hnone : isSpared = false → wanted none) (n : Nat) (h : f.isCalm id isSpared n = true) :
    Run (Undisturbed id wanted) f (f.advance n) := by
  simp only [isCalm, Bool.and_eq_true, List.all_eq_true] at h
  obtain ⟨hown, hothers⟩ := h
  refine advance_run n fun t e next hn answer => ⟨?_,?_,?_⟩
  · rintro a ensureUnique rfl
    rw [hn] at hown
    exact of_decide_eq_true hown
  · intro hwritten
    cases e with
    | accounts call =>
      cases call with
      | delete i =>
        rw [hn] at hown
        simp only [written?, Call.written?] at hwritten
        split at hwritten
        · rename_i hid
          apply hnone
          simpa [nextCall?, hid.1] using hown
        · cases hwritten
      | put a =>
        simp only [written?, Call.written?] at hwritten
        split at hwritten <;> cases hwritten
      | _ => cases hwritten
    | _ => cases hwritten
  · rintro o - - b hb ⟨a, ha, hid⟩
    have hb := hothers b hb
    rw [ha] at hb
    exact of_decide_eq_true hb hid

theorem advanceAll_calm (id : String) (isSpared : Bool) (wanted : Option Account → Prop)
    (hnone : isSpared = false → wanted none) (ns : List Nat) (f : Floor)
    (h : f.isCalmAlong id isSpared ns = true) :
    Run (Undisturbed id wanted) f (f.advanceAll ns) := by
  induction ns generalizing f with
  | nil => exact .refl
  | cons n ns ih =>
    obtain ⟨hn, hns⟩ := Bool.and_eq_true_iff.mp h
    exact (advance_calm f id isSpared wanted hnone n hn).trans (ih (f.advance n) hns)

/-- Two tasks begin side by side, and the first has put the account before the second deletes or
reads it. -/
theorem calm_tasks_last :
    (∃ f, Run (Undisturbed "USER:1" fun o => o = none) ⟨stocked [alice],[],[]⟩ f ∧
      (∃ b ∈ f.tasks, b.task = .deleteUser "USER:1" ∧ b.succeeded = true) ∧
      ∃ now, f.records.accounts.repository.records = .ok now ∧ ∀ a ∈ now, a.id ≠ "USER:1") ∧
    ∃ f, Run (Undisturbed "USER:1" fun o => o.isSome = true) ⟨stocked [alice],[],[]⟩ f ∧
      (∃ b ∈ f.tasks, b.task = .updateUser "USER:1" "Alicia" "" ∧ b.succeeded = true) ∧
      (∃ b ∈ f.tasks, b.task = .updateUser "USER:1" "" "Berg" ∧ b.succeeded = true) ∧
      ∃ now, f.records.accounts.repository.records = .ok now ∧
        ∃ a ∈ now, a.id = "USER:1" ∧ a.firstName = "Alicia" ∧ a.lastName = "Berg" := by
  have has : (stocked [alice]).accounts.repository.Holds [alice] := ⟨rfl,by simp⟩
  constructor
  · let f := (begun (stocked [alice]) (.updateUser "USER:1" "Alicia" "") (.deleteUser "USER:1")
      (.ofSystem .root) (.ofSystem .root)).advanceAll [1, 1, 0, 1, 0]
    have hrun : Run (Undisturbed "USER:1" fun o => o = none) ⟨stocked [alice],[],[]⟩ f :=
      (begun_run _ _ _ _ _).trans
        (advanceAll_calm _ false (fun o => o = none) (fun _ => rfl) _ _ (by decide +kernel))
    have hok : ∃ b ∈ f.tasks, b.task = .deleteUser "USER:1" ∧ b.succeeded = true := by
      decide +kernel
    exact ⟨f,hrun,hok,(undisturbed_tasks_last "USER:1" _ [alice] has f).1 hrun hok⟩
  · let f := (begun (stocked [alice]) (.updateUser "USER:1" "Alicia" "")
      (.updateUser "USER:1" "" "Berg") (.ofSystem .root) (.ofSystem .root)).advanceAll
        [1, 1, 0, 0, 1, 0]
    have hrun : Run (Undisturbed "USER:1" fun o => o.isSome = true) ⟨stocked [alice],[],[]⟩ f :=
      (begun_run _ _ _ _ _).trans
        (advanceAll_calm _ true _ (fun h => nomatch h) _ _ (by decide +kernel))
    have hfirst : ∃ b ∈ f.tasks, b.task = .updateUser "USER:1" "Alicia" "" ∧ b.succeeded = true := by
      decide +kernel
    have hlast : ∃ b ∈ f.tasks, b.task = .updateUser "USER:1" "" "Berg" ∧ b.succeeded = true := by
      decide +kernel
    have htasks : ∀ b ∈ f.tasks, b.task = .updateUser "USER:1" "" "Berg" ∨
        b.task = .updateUser "USER:1" "Alicia" "" := by decide +kernel
    refine ⟨f,hrun,hfirst,hlast,(undisturbed_tasks_last "USER:1" _ [alice] has f).2 "Alicia" "Berg"
      (by decide) (by decide) hrun hfirst hlast ?_⟩
    intro b hb g l htask
    rcases htasks b hb with h | h <;> cases htask.symm.trans h <;> simp

/-- One task reads the account, another deletes it and is over, and the first puts it back. And when
two tasks read the account before either puts it, one of the two new names is lost. -/
theorem overlapping_tasks_undo :
    (∃ f, Run (fun _ _ _ => True) ⟨stocked [alice],[],[]⟩ f ∧
      (∃ b ∈ f.tasks, b.task = .deleteUser "USER:1" ∧ b.succeeded = true) ∧
      f.records.accounts.repository.records = .ok [{ alice with firstName := "Alicia" }]) ∧
    ∃ f, Run (fun _ _ _ => True) ⟨stocked [alice],[],[]⟩ f ∧
      (∃ b ∈ f.tasks, b.task = .updateUser "USER:1" "Alicia" "" ∧ b.succeeded = true) ∧
      (∃ b ∈ f.tasks, b.task = .updateUser "USER:1" "" "Berg" ∧ b.succeeded = true) ∧
      f.records.accounts.repository.records = .ok [{ alice with lastName := "Berg" }] := by
  constructor
  · let start := begun (stocked [alice]) (.updateUser "USER:1" "Alicia" "") (.deleteUser "USER:1")
      (.ofSystem .root) (.ofSystem .root)
    refine ⟨start.advanceAll [1, 0, 0, 1, 1], ?_, by decide +kernel, by rfl⟩
    exact (begun_run _ _ _ _ _).trans (advanceAll_run _ start)
  · let start := begun (stocked [alice]) (.updateUser "USER:1" "Alicia" "")
      (.updateUser "USER:1" "" "Berg") (.ofSystem .root) (.ofSystem .root)
    refine ⟨start.advanceAll [1, 0, 1, 0, 1, 0], ?_, by decide +kernel, by decide +kernel, by rfl⟩
    exact (begun_run _ _ _ _ _).trans (advanceAll_run _ start)

end Floor
end VmFleet.Tasks
