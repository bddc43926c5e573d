import VmFleet.Proofs.Program.Crowd
import VmFleet.Proofs.Store.Held
import VmFleet.Proofs.Tasks.Refusal

/-!
# States that tasks lead to

From empty repositories, tasks of any principals run side by side, with provisioning going on in the
background. None of them ever writes accounts in a batch, so that both repositories remain lists of
readable records with distinct ids, wherever they are kept.
-/

set_option autoImplicit false

namespace VmFleet.Tasks

open Security Store Delegation

/-! ## What tasks ask for -/

/-- The background work asks the worker, and stores at most the machine that it was started for. -/
theorem provision_within (k : Terms) (m : Machine)
    (hdelegate : ∀ channel payload, k.allows (.delegate channel payload))
    (hrecord : ∀ channel outcome, k.allows (.record (.request channel outcome)))
    (hput : ∀ reply : Machine, reply.id = m.id → reply.ownerId = m.ownerId →
      k.allows (.machines (.put reply))) : (provision m).run.Within k := by
  refine ⟨hdelegate _ _, fun answer _ => ⟨hrecord _ _, fun _ _ => ?_⟩⟩
  cases readReply resourceCreate Machine.decode answer with
  | error e => trivial
  | ok reply =>
    change Program.Within k
      (if describes reply m then Attempt.machines (.put reply)
        else throw (.transport (mismatch reply m))).run
    split
    · rename_i hd
      obtain ⟨hid, howner⟩ := of_decide_eq_true hd
      exact ⟨hput reply hid howner,fun _ _ => trivial⟩
    · trivial

theorem provisioning_within (k : Terms) (m : Machine)
    (hdelegate : ∀ channel payload, k.allows (.delegate channel payload))
    (hrecord : ∀ event, k.allows (.record event))
    (hput : ∀ reply : Machine, reply.id = m.id → reply.ownerId = m.ownerId →
      k.allows (.machines (.put reply))) : (provisioning m).Within k :=
  Program.forget_within k _ (provision_within k m hdelegate (fun _ _ => hrecord _) hput)

theorem submitTrusted_within (k : Terms) (t : Task) (p : Principal)
    (hrecord : ∀ event, k.allows (.record event)) (h : (t.execute p).run.Within k) :
    (t.submitTrusted p).run.Within k := by
  rw [submitTrusted_run]
  exact Program.within_bind k _ _ h fun _ => ⟨hrecord _,fun _ _ => trivial⟩

theorem submit_within (k : Terms) (t : Task) (id : String) (hget : k.allows (.accounts (.get id)))
    (h : ∀ a, k.grants (.accounts (.get id)) (.ok a) →
      (t.submitTrusted (.ofAccount a)).run.Within k) : (t.submit id).run.Within k := by
  rw [submit_run]
  refine ⟨hget, fun answer hg => ?_⟩
  cases answer with
  | ok a => exact h a hg
  | error e => trivial

theorem checkOwner_within (p : Principal) (k : Terms) (h : k.allows (.accounts (.get p.id))) :
    (checkOwner p).run.Within k := by
  unfold checkOwner
  cases p.kind with
  | account => exact Attempt.within_accounts k _ _ h fun _ _ => trivial
  | system identity => trivial

theorem freshSalt_within (k : Terms) (h : k.allows (.draw saltLength)) : freshSalt.run.Within k :=
  Attempt.within_ask k _ _ h fun _ _ => trivial

theorem freshId_within (k : Terms) (kind : String) (h : k.allows (.draw idBytes)) :
    (freshId kind).run.Within k := Attempt.within_ask k _ _ h fun _ _ => trivial

theorem createUser_within (k : Terms) (p : Principal) (new : NewAccount) (ensureUnique : Bool)
    (hdraw : ∀ count, k.allows (.draw count))
    (hadd : ∀ a, k.allows (.accounts (.add a ensureUnique))) :
    (createUser p new ensureUnique).run.Within k := by
  apply Attempt.within_authorize
  intro _
  apply Attempt.within_bind
  · trivial
  · intro _
    apply Attempt.within_bind _ _ _ (freshSalt_within k (hdraw saltLength))
    intro salt
    apply Attempt.within_bind
    · trivial
    · intro hashed
      apply Attempt.within_bind _ _ _ (freshId_within k _ (hdraw idBytes))
      intro newId
      exact ⟨hadd _,fun _ _ => trivial⟩

/-- Calls that overwrite records. -/
def puts {α : Type} : Call α → Bool
  | .put _ => true
  | .putAll _ => true
  | _ => false

/-- Apart from accounts that are renamed, machines that are created and machines that are put in a
batch, tasks read, add accounts and delete accounts. -/
theorem execute_within_each (k : Terms) (t : Task) (p : Principal)
    (hupdate : ∀ id firstName lastName, t = .updateUser id firstName lastName →
      (updateUser p id firstName lastName).run.Within k)
    (hcreate : ∀ provider, t = .createVm provider → (createVm p provider).run.Within k)
    (hbulk : ∀ ms, t = .bulkUpdateVms ms → (bulkUpdateVms p ms).run.Within k)
    (haccounts : ∀ call, puts call = false → k.allows (.accounts call))
    (hmachines : ∀ call : Call Machine, call.isRead = true → k.allows (.machines call))
    (hdraw : ∀ count, k.allows (.draw count)) : (t.execute p).run.Within k := by
  cases t with
  | createUser new ensureUnique =>
    exact createUser_within k p new ensureUnique hdraw fun _ => haccounts _ rfl
  | getUser id =>
    apply Attempt.within_authorize
    intro _
    exact ⟨haccounts _ rfl,fun _ _ => trivial⟩
  | getAllUsers =>
    apply Attempt.within_authorize
    intro _
    exact ⟨haccounts _ rfl,fun _ _ => trivial⟩
  | updateUser id firstName lastName => exact hupdate id firstName lastName rfl
  | deleteUser id =>
    apply Attempt.within_authorize
    intro _
    exact ⟨haccounts _ rfl,fun _ _ => trivial⟩
  | createVm provider => exact hcreate provider rfl
  | getVm id =>
    rw [Task.execute, getVm_run]
    exact ⟨hmachines _ rfl,fun _ _ => trivial⟩
  | getAllVms =>
    apply Attempt.within_authorize
    intro _
    exact Attempt.within_machines _ _ _ (hmachines _ rfl) fun _ _ => trivial
  | bulkUpdateVms machines => exact hbulk machines rfl

/-- Apart from accounts that are renamed and machines that are created, tasks read, add accounts, delete
accounts, and put the machines that they are given. -/
theorem execute_within (k : Terms) (t : Task) (p : Principal)
    (hupdate : ∀ id firstName lastName, t = .updateUser id firstName lastName →
      (updateUser p id firstName lastName).run.Within k)
    (hcreate : ∀ provider, t = .createVm provider → (createVm p provider).run.Within k)
    (haccounts : ∀ call, puts call = false → k.allows (.accounts call))
    (hmachines : ∀ call : Call Machine, (call.isRead = true ∨ ∃ ms, call = .putAll ms) →
      k.allows (.machines call))
    (hdraw : ∀ count, k.allows (.draw count)) : (t.execute p).run.Within k := by
  apply execute_within_each k t p hupdate hcreate _ haccounts (fun call h => hmachines call (Or.inl h))
    hdraw
  intro machines _
  apply Attempt.within_authorize
  intro _
  cases machines with
  | nil => trivial
  | cons m rest => exact ⟨hmachines _ (Or.inr ⟨_,rfl⟩),fun _ _ => trivial⟩

/-! ## States that tasks lead to -/

/-- Both repositories can be read as lists of records. -/
structure Sound (r : Records) : Prop where
  accounts : ∃ as, r.accounts.repository.Holds as
  machines : ∃ ms, r.machines.repository.Holds ms

/-- Everything but writing accounts in batches. -/
def soundTerms : Terms := ⟨fun e => ∀ new, e ≠ .accounts (.putAll new),fun _ _ => True⟩

theorem plain_sound (e : Effect) (h : e.isPlain = true) : ∀ new, e ≠ .accounts (.putAll new) := by
  rintro new rfl
  cases h

theorem accounts_held (r : Records) (call : Call Account) (h : ∀ new, call ≠ .putAll new)
    (as : List Account) (has : r.accounts.repository.Holds as) :
    (∃ reason, (r.onAccounts call).1 = .error (.backend reason)) ∧
        (r.onAccounts call).2.accounts.repository.Holds as ∨
      (r.onAccounts call).1 = (Memory.run as call).1 ∧
        (r.onAccounts call).2.accounts.repository.Holds (Memory.run as call).2 :=
  r.accounts.run_holds as has call (Table.alike_of_ne_putAll call h)

theorem machines_held (r : Records) (call : Call Machine) (ms : List Machine)
    (hms : r.machines.repository.Holds ms) :
    (∃ reason, (r.onMachines call).1 = .error (.backend reason)) ∧
        (r.onMachines call).2.machines.repository.Holds ms ∨
      (r.onMachines call).1 = (Memory.run ms call).1 ∧
        (r.onMachines call).2.machines.repository.Holds (Memory.run ms call).2 :=
  r.machines.run_holds ms hms call (Table.alike_of_key_eq_id (fun _ => rfl) call)

theorem provisioning_sound (m : Machine) : (provisioning m).Within soundTerms := by
  apply provisioning_within
  · intro channel payload new h
    cases h
  · intro event
    exact plain_sound _ rfl
  · intro reply _ _
    exact plain_sound _ rfl

theorem sound_upheld : soundTerms.Upheld Sound := by
  intro r e answer r' started hr he hreply
  obtain ⟨⟨as, has⟩, ms, hms⟩ := hr
  cases hreply with
  | accounts call =>
    have hcall : ∀ new, call ≠ .putAll new := fun new h => he new (congrArg Effect.accounts h)
    refine ⟨⟨?_,ms,hms⟩,trivial,by simp⟩
    rcases accounts_held r call hcall as has with ⟨-, h⟩ | ⟨-, h⟩
    · exact ⟨as,h⟩
    · exact ⟨_,h⟩
  | machines call =>
    refine ⟨⟨⟨as,has⟩,?_⟩,trivial,by simp⟩
    rcases machines_held r call ms hms with ⟨-, h⟩ | ⟨-, h⟩
    · exact ⟨ms,h⟩
    · exact ⟨_,h⟩
  | provision m =>
    refine ⟨⟨⟨as,has⟩,ms,hms⟩,trivial,?_⟩
    intro n _
    exact provisioning_sound n
  | _ => exact ⟨⟨⟨as,has⟩,ms,hms⟩,trivial,by simp⟩

theorem execute_sound (t : Task) (p : Principal) : (t.execute p).run.Within soundTerms := by
  by_cases hvm : t.operation = .getVm
  · obtain ⟨id, rfl⟩ := (operation_eq_getVm_iff t).mp hvm
    rw [Task.execute, getVm_run]
    exact ⟨plain_sound _ rfl,fun _ _ => trivial⟩
  · cases h : isAllowed p t.operation (t.stated p) with
    | false =>
      rw [execute_denied t p h]
      trivial
    | true =>
      have hplain := execute_goesOn t p hvm h
      exact (hplain.mono fun _ _ => trivial).ease (fun e he => plain_sound e he) fun _ _ _ => trivial

/-- Programs that run a task, for a known principal or for whoever has an account. -/
def RunsTask (q : Program Unit) : Prop :=
  ∃ t : Task, (∃ p, q = (t.submitTrusted p).run.forget) ∨ ∃ id, q = (t.submit id).run.forget

/-- Records that tasks of any principals, side by side, have led to from empty repositories. -/
def Reached (r : Records) : Prop :=
  ∃ start running, (∃ b, start.accounts.repository = (Repository.seeded b []).2) ∧
    (∃ b, start.machines.repository = (Repository.seeded b []).2) ∧
    Crowd.Run RunsTask ⟨start,[]⟩ ⟨r,running⟩

theorem runsTask_sound (q : Program Unit) (h : RunsTask q) : q.Within soundTerms := by
  have htrusted : ∀ (t : Task) (p : Principal), (t.submitTrusted p).run.Within soundTerms :=
    fun t p => submitTrusted_within _ t p (fun _ => plain_sound _ rfl) (execute_sound t p)
  obtain ⟨t, ⟨p, rfl⟩ | ⟨id, rfl⟩⟩ := h
  · exact Program.forget_within _ _ (htrusted t p)
  · apply Program.forget_within
    apply submit_within
    · exact plain_sound _ rfl
    · exact fun a _ => htrusted t (.ofAccount a)

theorem reached_sound (r : Records) (h : Reached r) : Sound r := by
  obtain ⟨start, running, ⟨a, ha⟩, ⟨m, hm⟩, hrun⟩ := h
  have hstart : Sound start := by
    constructor
    · rw [ha]
      exact ⟨[],Repository.seeded_holds a⟩
    · rw [hm]
      exact ⟨[],Repository.seeded_holds m⟩
  have horderly : Crowd.Orderly soundTerms Sound ⟨start,[]⟩ := ⟨hstart,by simp⟩
  exact (Crowd.run_orderly sound_upheld runsTask_sound _ _ hrun horderly).records

end VmFleet.Tasks
