import VmFleet.Central.Control
import VmFleet.Proofs.Tasks.Reached

/-!
# Ordinary users are confined to what is theirs

However many tasks a principal with the role of a user runs, also side by side and with provisioning
going on whose replies may be anything, accounts neither come nor go, only the names in its own
account change, and machines are only added, as its own.
-/

set_option autoImplicit false

namespace VmFleet.Tasks

open Security Store

/-! ## What an ordinary user can do -/

/-- What becomes of an account while somebody acts: nothing, or other names when it is their own. -/
def LeftTo (owner : String) (a a' : Account) : Prop :=
  a' = a ∨ a.id = owner ∧ ∃ firstName lastName, a' = { a with firstName, lastName }

theorem leftTo_id (owner : String) (a a' : Account) (h : LeftTo owner a a') : a'.id = a.id := by
  rcases h with rfl | ⟨-, firstName, lastName, rfl⟩ <;> rfl

theorem leftTo_role (owner : String) (a a' : Account) (h : LeftTo owner a a') :
    a'.role = a.role := by
  rcases h with rfl | ⟨-, firstName, lastName, rfl⟩ <;> rfl

theorem leftTo_renamed (owner firstName lastName : String) (a a' : Account)
    (h : LeftTo owner a a') (ha : a.id = owner) :
    LeftTo owner a (renamed a' firstName lastName) := by
  rcases h with rfl | ⟨-, first, last, rfl⟩
  · exact Or.inr ⟨ha,_,_,rfl⟩
  · exact Or.inr ⟨ha,_,_,rfl⟩

theorem leftTo_mem (owner : String) (as as' : List Account)
    (h : List.Forall₂ (LeftTo owner) as as') (a' : Account) (ha : a' ∈ as') :
    ∃ a ∈ as, LeftTo owner a a' := by
  induction h with
  | nil => cases ha
  | cons hx _ ih =>
    rcases List.mem_cons.mp ha with rfl | ha
    · exact ⟨_,List.mem_cons_self,hx⟩
    · obtain ⟨a, hmem, hl⟩ := ih ha
      exact ⟨a,List.mem_cons_of_mem _ hmem,hl⟩

/-- Putting what an account with this id may become keeps all accounts in line. -/
theorem leftTo_place (owner : String) (as as' : List Account)
    (h : List.Forall₂ (LeftTo owner) as as') (a' : Account)
    (hall : ∀ a ∈ as, a.id = a'.id → LeftTo owner a a') (hany : ∃ a ∈ as, a.id = a'.id) :
    List.Forall₂ (LeftTo owner) as (Memory.place a' as') := by
  induction h with
  | nil =>
    obtain ⟨a, ha, -⟩ := hany
    cases ha
  | @cons x x' xs xs' hx hrest ih =>
    unfold Memory.place
    have hid : x'.id = x.id := leftTo_id owner x x' hx
    by_cases heq : Keyed.id x' = Keyed.id a'
    · rw [if_pos heq]
      have hxa : LeftTo owner x a' := hall x List.mem_cons_self (hid.symm.trans heq)
      exact List.Forall₂.cons hxa hrest
    · rw [if_neg heq]
      have hlater : ∃ a ∈ xs, a.id = a'.id := by
        obtain ⟨a, ha, haid⟩ := hany
        rcases List.mem_cons.mp ha with rfl | ha
        · exact absurd (hid.trans haid) heq
        · exact ⟨a,ha,haid⟩
      exact List.Forall₂.cons hx (ih (fun a ha => hall a (List.mem_cons_of_mem _ ha)) hlater)

/-- A machine of this owner that was not there in the beginning. -/
structure NewFor (owner : String) (ms : List Machine) (m : Machine) : Prop where
  owned : m.ownerId = owner
  isNew : ∀ x ∈ ms, x.id ≠ m.id

/-- The terms of somebody who finds these accounts and machines. -/
def ownTerms (owner : String) (as : List Account) (ms : List Machine) : Terms where
  allows
    | .accounts .getAll => True
    | .accounts (.get _) => True
    | .accounts (.put a') => ∃ a ∈ as, a.id = owner ∧ LeftTo owner a a'
    | .accounts _ => False
    | .machines .getAll => True
    | .machines (.get _) => True
    | .machines (.add m ensureUnique) => ensureUnique = true ∧ m.ownerId = owner
    | .machines (.put m) => NewFor owner ms m
    | .machines _ => False
    | .provision m => NewFor owner ms m
    | _ => True
  grants
    | .accounts (.get id), answer =>
      ∀ a', answer = .ok a' → a'.id = id ∧ ∃ a ∈ as, LeftTo owner a a'
    | .machines (.add m _), answer => ∀ m', answer = .ok m' → m' = m ∧ NewFor owner ms m
    | _, _ => True

/-- What is left of these accounts and machines. -/
structure Confined (owner : String) (as : List Account) (ms : List Machine) (r : Records) :
    Prop where
  accounts : ∃ as', r.accounts.repository.Holds as' ∧ List.Forall₂ (LeftTo owner) as as'
  machines : ∃ added, r.machines.repository.Holds (ms ++ added) ∧ ∀ m ∈ added, m.ownerId = owner

theorem own_put (owner : String) (as as' : List Account) (hids : (as.map Account.id).Nodup)
    (h : List.Forall₂ (LeftTo owner) as as') (a a' : Account) (ha : a ∈ as)
    (hl : LeftTo owner a a') : List.Forall₂ (LeftTo owner) as (Memory.put as' a').2 := by
  have hid : a'.id = a.id := leftTo_id owner a a' hl
  rcases Memory.put_cases as' a' with ⟨-, hp⟩ | ⟨-, hp⟩
  · rw [hp]
    exact h
  · rw [hp]
    apply leftTo_place owner as as' h a'
    · intro x hx hxid
      -- the place is found by id, and no other account had this one
      have hxa : x = a := List.inj_on_of_nodup_map hids hx ha (hxid.trans hid)
      rw [hxa]
      exact hl
    · exact ⟨a,ha,hid.symm⟩

theorem own_accounts (owner : String) (as : List Account) (ms : List Machine)
    (hids : (as.map Account.id).Nodup) (r : Records) (call : Call Account)
    (hr : Confined owner as ms r) (he : (ownTerms owner as ms).allows (.accounts call)) :
    Confined owner as ms (r.onAccounts call).2 ∧
      (ownTerms owner as ms).grants (.accounts call) (r.onAccounts call).1 := by
  obtain ⟨⟨as', has, hl⟩, hms⟩ := hr
  have hcall : ∀ new, call ≠ .putAll new := by
    rintro new rfl
    exact he
  rcases accounts_held r call hcall as' has with ⟨⟨reason, hf⟩, h⟩ | ⟨hanswer, h⟩
  · refine ⟨⟨⟨as',h,hl⟩,hms⟩,?_⟩
    cases call with
    | get id =>
      intro a' ha
      cases hf.symm.trans ha
    | _ => trivial
  · cases call with
    | getAll => exact ⟨⟨⟨as',h,hl⟩,hms⟩,trivial⟩
    | get id =>
      refine ⟨⟨⟨as',h,hl⟩,hms⟩,?_⟩
      intro a' ha
      obtain ⟨hmem, hid⟩ := Memory.get_ok as' id a' (hanswer.symm.trans ha)
      exact ⟨hid,leftTo_mem owner as as' hl a' hmem⟩
    | put a' =>
      obtain ⟨a, ha, -, hla⟩ := he
      exact ⟨⟨⟨_,h,own_put owner as as' hids hl a a' ha hla⟩,hms⟩,trivial⟩
    | add a ensureUnique => cases he
    | putAll new => cases he
    | delete id => cases he

theorem own_machines (owner : String) (as : List Account) (ms : List Machine) (r : Records)
    (call : Call Machine) (hr : Confined owner as ms r)
    (he : (ownTerms owner as ms).allows (.machines call)) :
    Confined owner as ms (r.onMachines call).2 ∧
      (ownTerms owner as ms).grants (.machines call) (r.onMachines call).1 := by
  obtain ⟨has, added, hms, howned⟩ := hr
  have hids := r.machines.repository.holds_nodup _ hms
  rcases machines_held r call _ hms with ⟨⟨reason, hf⟩, h⟩ | ⟨hanswer, h⟩
  · refine ⟨⟨has,added,h,howned⟩,?_⟩
    cases call with
    | add m ensureUnique =>
      intro m' hm
      cases hf.symm.trans hm
    | _ => trivial
  · cases call with
    | getAll => exact ⟨⟨has,added,h,howned⟩,trivial⟩
    | get id => exact ⟨⟨has,added,h,howned⟩,trivial⟩
    | add m ensureUnique =>
      obtain ⟨rfl, hm⟩ := he
      rcases Memory.add_cases (ms ++ added) m true with ⟨e, -, hadd⟩ | ⟨hfree, hadd⟩
      · simp only [Memory.run, hadd] at hanswer h
        refine ⟨⟨has,added,h,howned⟩,?_⟩
        intro m' hm'
        cases hanswer.symm.trans hm'
      · simp only [Memory.run, hadd, List.append_assoc] at hanswer h
        refine ⟨⟨has,added ++ [m],h,?_⟩,?_⟩
        · intro x hx
          rcases List.mem_append.mp hx with hx | hx
          · exact howned x hx
          · rw [List.mem_singleton.mp hx]
            exact hm
        · intro m' hm'
          cases hanswer.symm.trans hm'
          refine ⟨rfl,hm,?_⟩
          intro x hx
          exact ((Memory.existing_eq_none_iff _ m).mp hfree x (List.mem_append_left _ hx)).1
    | put m =>
      obtain ⟨hm, hnew⟩ := he
      rcases Memory.put_cases (ms ++ added) m with ⟨-, hput⟩ | ⟨-, hput⟩
      · simp only [Memory.run, hput] at h
        exact ⟨⟨has,added,h,howned⟩,trivial⟩
      · simp only [Memory.run, hput, Memory.place_append m ms added hnew] at h
        refine ⟨⟨has,_,h,?_⟩,trivial⟩
        intro x hx
        rw [List.map_append] at hids
        rcases (Memory.mem_place m added hids.of_append_right x).mp hx with rfl | ⟨hx, -⟩
        · exact hm
        · exact howned x hx
    | putAll new => cases he
    | delete id => cases he

section

variable (owner : String) (as : List Account) (ms : List Machine)

theorem provisioning_own (m : Machine) (hm : NewFor owner ms m) :
    (provisioning m).Within (ownTerms owner as ms) := by
  apply provisioning_within
  · intro channel payload
    trivial
  · intro event
    trivial
  · intro reply hid howner
    constructor
    · exact howner.trans hm.owned
    · intro x hx
      rw [hid]
      exact hm.isNew x hx

theorem own_upheld (hids : (as.map Account.id).Nodup) :
    (ownTerms owner as ms).Upheld (Confined owner as ms) := by
  intro r e answer r' started hr he hreply
  cases hreply with
  | accounts call =>
    obtain ⟨hr', hg⟩ := own_accounts owner as ms hids r call hr he
    exact ⟨hr',hg,by simp⟩
  | machines call =>
    obtain ⟨hr', hg⟩ := own_machines owner as ms r call hr he
    exact ⟨hr',hg,by simp⟩
  | provision m =>
    refine ⟨hr,trivial,?_⟩
    intro n hn
    rw [List.mem_singleton.mp hn]
    exact provisioning_own owner as ms m he
  | _ => exact ⟨⟨hr.accounts,hr.machines⟩,trivial,by simp⟩

/-! ## The tasks of an ordinary user -/

variable (p : Principal)

/-- What no row of the table lets a user do. -/
def reserved : List Operation := [.createUser, .getAllUsers, .deleteUser, .bulkUpdateVms]

theorem user_denied (h : p.role = .user) (o : Operation) (w : Ownership) (ho : o ∈ reserved) :
    isAllowed p o w = false := by
  have hrows : ∀ c ∈ capabilities, c.role = .user → c.operation ∉ reserved := by decide
  rw [isAllowed_eq_false_iff, h]
  intro c hc hco hcr
  rw [← hco] at ho
  exact absurd ho (hrows c hc hcr)

theorem user_owns (h : p.role = .user) (id : String)
    (ha : isAllowed p .updateUser (.of p id) = true) : id = p.id := by
  by_contra hne
  have hdenied : isAllowed p .updateUser .notOwned = false := by
    rw [isAllowed_eq_false_iff, h]
    decide
  rw [Ownership.of, if_neg (Ne.symm hne), hdenied] at ha
  cases ha

theorem updateUser_own (h : p.role = .user) (howner : p.id = owner) (id firstName lastName : String) :
    (updateUser p id firstName lastName).run.Within (ownTerms owner as ms) := by
  apply Attempt.within_authorize
  intro ha
  have hid : id = owner := (user_owns p h id ha).trans howner
  apply Attempt.within_accounts
  · trivial
  · intro current hg
    obtain ⟨hcurrent, a, hmem, hl⟩ := hg current rfl
    have haid : a.id = owner := (leftTo_id owner a current hl).symm.trans (hcurrent.trans hid)
    exact ⟨⟨a,hmem,haid,leftTo_renamed owner firstName lastName a current hl haid⟩,fun _ _ => trivial⟩

theorem createVm_own (howner : p.id = owner) (provider : Provider) :
    (createVm p provider).run.Within (ownTerms owner as ms) := by
  apply Attempt.within_authorize
  intro _
  apply Attempt.within_bind
  · exact checkOwner_within p _ trivial
  · intro _
    apply Attempt.within_bind
    · exact Attempt.within_ask _ _ _ trivial fun _ _ => trivial
    · intro id
      apply Attempt.within_machines
      · exact ⟨rfl,howner⟩
      · intro stored hg
        obtain ⟨rfl, hnew⟩ := hg stored rfl
        exact Attempt.within_ask _ _ _ hnew fun _ _ => trivial

theorem execute_own (t : Task) (h : p.role = .user) (howner : p.id = owner) :
    (t.execute p).run.Within (ownTerms owner as ms) := by
  have hdenied : t.operation ∈ reserved → (t.execute p).run.Within (ownTerms owner as ms) := by
    intro ho
    rw [execute_denied t p (user_denied p h t.operation _ ho)]
    trivial
  cases t with
  | createUser new ensureUnique => exact hdenied (by simp [Task.operation, reserved])
  | getAllUsers => exact hdenied (by simp [Task.operation, reserved])
  | deleteUser id => exact hdenied (by simp [Task.operation, reserved])
  | bulkUpdateVms machines => exact hdenied (by simp [Task.operation, reserved])
  | getUser id =>
    apply Attempt.within_authorize
    intro _
    exact ⟨trivial,fun _ _ => trivial⟩
  | updateUser id firstName lastName =>
    exact updateUser_own owner as ms p h howner id firstName lastName
  | createVm provider => exact createVm_own owner as ms p howner provider
  | getVm id =>
    rw [Task.execute, getVm_run]
    exact ⟨trivial,fun _ _ => trivial⟩
  | getAllVms =>
    apply Attempt.within_authorize
    intro _
    exact Attempt.within_machines _ _ _ trivial fun _ _ => trivial

end

/-! ## Main statement -/

/-- Programs that run a task for the principal: as somebody known, or, when its account is stored as
these records have it, by the id of that account. -/
def RunsFor (p : Principal) (r : Records) (q : Program Unit) : Prop :=
  ∃ t : Task, q = (t.submitTrusted p).run.forget ∨
    q = (t.submit p.id).run.forget ∧
      ∃ a, (r.accounts.repository.run (.get p.id)).1 = .ok a ∧ Principal.ofAccount a = p

theorem runsFor_own (p : Principal) (h : p.role = .user) (r : Records) (as : List Account)
    (ms : List Machine) (has : r.accounts.repository.Holds as) (q : Program Unit)
    (hq : RunsFor p r q) : q.Within (ownTerms p.id as ms) := by
  have htrusted : ∀ (t : Task) (p' : Principal), p'.role = .user → p'.id = p.id →
      (t.submitTrusted p').run.Within (ownTerms p.id as ms) := fun t p' hr hid =>
    submitTrusted_within _ t p' (fun _ => trivial) (execute_own p.id as ms p' t hr hid)
  obtain ⟨t, rfl | ⟨rfl, a, ha, hp⟩⟩ := hq
  · exact Program.forget_within _ _ (htrusted t p h rfl)
  · apply Program.forget_within
    apply submit_within
    · trivial
    · intro a' hg
      obtain ⟨hid', b, hb, hl⟩ := hg a' rfl
      have hget := (r.accounts.repository.run_holds as has (.get p.id) trivial).1
      obtain ⟨hmem, hid⟩ := Memory.get_ok as p.id a (hget.symm.trans ha)
      -- ids are distinct, so that the account found now is what became of the one found first
      have hab : a = b := by
        apply List.inj_on_of_nodup_map (r.accounts.repository.holds_nodup as has) hmem hb
        exact hid.trans (hid'.symm.trans (leftTo_id _ _ _ hl))
      have hrole : a'.role = .user := by
        rw [leftTo_role _ _ _ hl, ← hab, ← h, ← hp]
        rfl
      exact htrusted t (.ofAccount a') hrole hid'

/-- Whatever a principal with the role of a user makes of a state that tasks have led to, the
accounts are those of before, in the same order and with other names at most in its own, and the
machines are those of before, untouched, followed by machines of its own. -/
theorem user_confined (p : Principal) (hp : p.role = .user) (r : Records) (hr : Reached r)
    (c : Crowd) (hc : Crowd.Run (RunsFor p r) ⟨r,[]⟩ c) :
    (∃ as as', r.accounts.repository.records = .ok as ∧
      c.records.accounts.repository.records = .ok as' ∧ List.Forall₂ (LeftTo p.id) as as') ∧
    ∃ ms added, r.machines.repository.records = .ok ms ∧
      c.records.machines.repository.records = .ok (ms ++ added) ∧
      ∀ m ∈ added, m.ownerId = p.id := by
  obtain ⟨⟨as, has⟩, ms, hms⟩ := reached_sound r hr
  have hids := r.accounts.repository.holds_nodup as has
  have hstart : Confined p.id as ms r := by
    constructor
    · exact ⟨as,has,List.forall₂_same.mpr fun a _ => Or.inl rfl⟩
    · exact ⟨[],by rwa [List.append_nil],by simp⟩
  have horderly : Crowd.Orderly (ownTerms p.id as ms) (Confined p.id as ms) ⟨r,[]⟩ :=
    ⟨hstart,by simp⟩
  obtain ⟨⟨as', has', hl⟩, added, hms', howned⟩ :=
    (Crowd.run_orderly (own_upheld p.id as ms hids)
      (fun q hq => runsFor_own p hp r as ms has q hq) _ _ hc horderly).records
  constructor
  · exact ⟨as,as',Repository.holds_records _ _ has,Repository.holds_records _ _ has',hl⟩
  · exact ⟨ms,added,Repository.holds_records _ _ hms,Repository.holds_records _ _ hms',howned⟩

/-- There is a machine of the process, and a user tries to take it over. -/
theorem takeover_confined : ∃ r c m, Reached r ∧ r.machines.repository.records = .ok [m] ∧
    Crowd.Run (RunsFor ⟨"USER:1", .user, .account⟩ r) ⟨r,[]⟩ c ∧
    (∃ as as', r.accounts.repository.records = .ok as ∧
      c.records.accounts.repository.records = .ok as' ∧ List.Forall₂ (LeftTo "USER:1") as as') ∧
    ∃ ms added, r.machines.repository.records = .ok ms ∧
      c.records.machines.repository.records = .ok (ms ++ added) ∧
      ∀ m ∈ added, m.ownerId = "USER:1" := by
  let w := Central.World.new (.memory []) (.memory []) 1000 ⟨fun _ => false,fun _ => .error .missing⟩
  let first := (Task.createVm .aws).submitTrusted (.ofSystem .root)
  let w' := (Central.proceed false first.run .nothing w).2
  let second := (Task.bulkUpdateVms [⟨"VM:1", .gcp, .up, "USER:1"⟩]).submitTrusted
    ⟨"USER:1", .user, .account⟩
  obtain ⟨_, hfirst⟩ :=
    Central.proceed_alone RunsTask first.run ⟨.createVm .aws,Or.inl ⟨_,rfl⟩⟩ w
  have hr : Reached w'.records := ⟨w.records,_,⟨.memory,rfl⟩,⟨.memory,rfl⟩,hfirst⟩
  obtain ⟨_, hsecond⟩ := Central.proceed_alone (RunsFor ⟨"USER:1", .user, .account⟩ w'.records)
    second.run ⟨_,Or.inl rfl⟩ w'
  have hm : ∃ m, w'.records.machines.repository.records = .ok [m] := ⟨_,rfl⟩
  obtain ⟨m, hm⟩ := hm
  exact ⟨_,_,m,hr,hm,hsecond,user_confined ⟨"USER:1", .user, .account⟩ rfl _ hr _ hsecond⟩

end VmFleet.Tasks
