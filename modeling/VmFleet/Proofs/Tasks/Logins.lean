import VmFleet.Proofs.Password.Recognition
import VmFleet.Proofs.Tasks.Outcomes

/-!
# Logging in

Whoever logs in is looked for by username. No two accounts ever share one, and apart from first and last
names nothing of an account is changed as long as it is there. So an account is found under the username
that it was created with, and its password is recognised, whatever tasks have run since.
-/

set_option autoImplicit false

namespace VmFleet.Tasks

open Security Store

/-! ## What is so of accounts between tasks -/

theorem usernames_unnamed (as : List Account) :
    (as.map unnamed).map Account.username = as.map Account.username := by
  rw [List.map_map]
  rfl

section

variable {trusted : Principal → Prop} {as as' : List Account}

/-- No task makes two accounts share a username. -/
theorem usernames_outcome (t : Task) (result : Except TaskError t.Result)
    (h : Outcome trusted as t result as') (hu : (as.map Account.username).Nodup) :
    (as'.map Account.username).Nodup := by
  cases h with
  | failed => exact hu
  | read => exact hu
  | found => exact hu
  | added new ensureUnique id hashed salt hhashed hfree =>
    rw [List.map_append, List.nodup_append]
    refine ⟨hu,by simp,?_⟩
    intro u hmem v hv
    obtain ⟨b, hb, rfl⟩ := List.mem_map.mp hmem
    rw [List.mem_singleton.mp hv]
    exact (hfree b hb).2
  | renamed id firstName lastName a ha =>
    rw [← usernames_unnamed, place_renamed as id firstName lastName a ha, usernames_unnamed]
    exact hu
  | deleted => exact (List.Sublist.map Account.username List.filter_sublist).nodup hu

/-- An account stays as it is, its names aside, until a task deletes it. -/
theorem unnamed_outcome (a : Account) (t : Task) (result : Except TaskError t.Result)
    (h : Outcome trusted as t result as') (ha : unnamed a ∈ as.map unnamed) :
    unnamed a ∈ as'.map unnamed ∨
      t = .deleteUser a.id ∧ (Begun.mk t (.done result)).succeeded = true := by
  cases h with
  | failed => exact Or.inl ha
  | read => exact Or.inl ha
  | found => exact Or.inl ha
  | added =>
    rw [List.map_append]
    exact Or.inl (List.mem_append_left _ ha)
  | renamed id firstName lastName b hb =>
    rw [place_renamed as id firstName lastName b hb]
    exact Or.inl ha
  | deleted id p hp hallowed =>
    by_cases hid : a.id = id
    · rw [hid]
      exact Or.inr ⟨rfl,rfl⟩
    · obtain ⟨b, hb, hba⟩ := List.mem_map.mp ha
      have hne : Keyed.id b ≠ id := fun h => hid ((of_unnamed_eq a b hba).1.symm.trans h)
      exact Or.inl (List.mem_map.mpr ⟨b,List.mem_filter.mpr ⟨hb,decide_eq_true hne⟩,hba⟩)

end

def UsernamesDiffer (_tasks : List Begun) (as : List Account) : Prop :=
  (as.map Account.username).Nodup

theorem usernamesDiffer_preserved (trusted : Principal → Prop) : Preserved trusted UsernamesDiffer :=
  fun _ _ t result _ hu h => usernames_outcome t result h hu

/-- Since these tasks were over, the account has stayed as it is, its names aside, or it was deleted. -/
def StaysOrGone (a : Account) (earlier tasks : List Begun) (as : List Account) : Prop :=
  (as.map Account.username).Nodup ∧ ∃ since, tasks = since ++ earlier ∧
    (unnamed a ∈ as.map unnamed ∨ ∃ b ∈ since, b.task = .deleteUser a.id ∧ b.succeeded = true)

theorem staysOrGone_preserved (trusted : Principal → Prop) (a : Account) (earlier : List Begun) :
    Preserved trusted (StaysOrGone a earlier) := by
  rintro tasks as t result as' ⟨hu, since, rfl, hstate⟩ h
  refine ⟨usernames_outcome t result h hu,⟨t,.done result⟩ :: since,rfl,?_⟩
  rcases hstate with hstays | ⟨b, hb, hgone⟩
  · rcases unnamed_outcome a t result h hstays with hstays' | hgone
    · exact Or.inl hstays'
    · exact Or.inr ⟨_,List.mem_cons_self,hgone⟩
  · exact Or.inr ⟨b,List.mem_cons_of_mem _ hb,hgone⟩

def Begun.failed (b : Begun) : Bool :=
  match b.rest with
  | .done (.error _) => true
  | _ => false

theorem Begun.failed_iff (b : Begun) : b.failed = true ↔ ∃ e, b.rest = .done (.error e) := by
  unfold failed
  split <;> simp_all

theorem Begun.of_succeeded (bs : List Begun) (t : Task)
    (h : bs.map (fun b => (b.task,b.succeeded)) = [(t,true)]) :
    ∃ result, bs = [⟨t,.done (.ok result)⟩] := by
  obtain ⟨⟨u, rest⟩, rfl, hb⟩ := List.map_eq_singleton_iff.mp h
  obtain ⟨rfl, hsucceeded⟩ := Prod.mk.inj hb
  unfold succeeded at hsucceeded
  split at hsucceeded
  · rename_i result hrest
    exact ⟨result,by rw [← hrest]⟩
  · cases hsucceeded

/-- The tasks that have begun between two moments. -/
def Floor.begunSince (f f' : Floor) : List Begun := f'.tasks.take (f'.tasks.length - f.tasks.length)

theorem Floor.begunSince_eq (f f' : Floor) (since : List Begun) (h : f'.tasks = since ++ f.tasks) :
    f.begunSince f' = since := by
  rw [begunSince, h, List.length_append, Nat.add_sub_cancel]
  exact List.take_left

/-- When nobody has deleted it, the account has stayed. -/
theorem stays (trusted : Principal → Prop) (a : Account) (f f' : Floor) (as : List Account)
    (h : f'.Amid trusted (StaysOrGone a f.tasks) as)
    (hkept : ∀ b ∈ f.begunSince f', b.task = .deleteUser a.id → b.failed = true) :
    (as.map Account.username).Nodup ∧ unnamed a ∈ as.map unnamed := by
  have hnone : ∀ b ∈ f.begunSince f', ¬ (b.task = .deleteUser a.id ∧ b.succeeded = true) := by
    rintro b hb ⟨htask, hsucceeded⟩
    obtain ⟨e, hrest⟩ := b.failed_iff.mp (hkept b hb htask)
    rw [Begun.succeeded, hrest] at hsucceeded
    cases hsucceeded
  rcases stage_shows (staysOrGone_preserved trusted a f.tasks) _ as h.stage with
    ⟨hu, since, hsince, hstate⟩ | ⟨b, earlier, before, htasks, hover, ⟨hu, since, rfl, hstate⟩, hnow⟩
  · rw [Floor.begunSince_eq f f' since hsince] at hnone
    exact ⟨hu,hstate.resolve_right fun ⟨b, hb, hgone⟩ => hnone b hb hgone⟩
  · rw [Floor.begunSince_eq f f' (b :: since) htasks] at hnone hkept
    have hstays : unnamed a ∈ before.map unnamed :=
      hstate.resolve_right fun ⟨c, hc, hgone⟩ => hnone c (List.mem_cons_of_mem b hc) hgone
    obtain rfl | ⟨result, hu', since', hsince', hstate'⟩ := hnow
    · exact ⟨hu,hstays⟩
    · have hsame : since' = ⟨b.task,.done result⟩ :: since :=
        (List.append_cancel_right (hsince' : _ :: since ++ f.tasks = _)).symm
      refine ⟨hu',hstate'.resolve_right ?_⟩
      rintro ⟨c, hc, htask, hsucceeded⟩
      rw [hsame] at hc
      rcases List.mem_cons.mp hc with rfl | hc
      · -- the task that is under way would have to be over
        obtain ⟨e, hrest⟩ := b.failed_iff.mp (hkept b List.mem_cons_self htask)
        rw [Begun.isOver, hrest] at hover
        cases hover
      · exact hnone c (List.mem_cons_of_mem b hc) ⟨htask,hsucceeded⟩

/-! ## Checking a username and a password -/

/-- What a check comes to when these are the accounts. -/
def recognise (username password : String) (all : List Account) : Except TaskError String :=
  match all.find? fun a => a.username = username with
  | none => .error (.notFound "user" username)
  | some a =>
    match Password.verify password a.hashedPassword with
    | .error e => .error (faulty e)
    | .ok agrees => if agrees then .ok a.id else .error (.invalid "invalid credentials")

theorem recognise_run (username password : String) (all : List Account) :
    (match all.find? fun a => a.username = username with
      | none => throw (.notFound "user" username)
      | some a => do
        let agrees ← Attempt.ofExcept faulty (Password.verify password a.hashedPassword)
        if agrees then return a.id else throw (.invalid "invalid credentials") : Attempt String).run =
      .done (recognise username password all) := by
  unfold recognise
  cases all.find? fun a => a.username = username with
  | none => rfl
  | some a =>
    dsimp only
    cases Password.verify password a.hashedPassword with
    | error e => rfl
    | ok agrees => cases agrees <;> rfl

theorem verifyCredentials_run (username password : String) :
    (verifyCredentials username password).run = .perform (.accounts .getAll) fun
      | .ok all => .done (recognise username password all)
      | .error e => .done (.error (.ofStore e)) := by
  refine congrArg (Program.perform (.accounts .getAll)) (funext fun answer => ?_)
  cases answer with
  | error e => rfl
  | ok all => exact recognise_run username password all

theorem resolve_run (accountId : String) : (resolve accountId).run =
    .perform (.accounts (.get accountId)) fun
      | .ok a => .done (.ok (.ofAccount a))
      | .error e => .done (.error (.ofStore e)) := by
  refine congrArg (Program.perform (.accounts (.get accountId))) (funext fun answer => ?_)
  cases answer <;> rfl

section

variable (s : Supply) (r : Records)

theorem runAlone_verify (username password : String) :
    r.runAlone s (verifyCredentials username password).run =
      (match (r.onAccounts .getAll).1 with
        | .ok all => recognise username password all
        | .error e => .error (.ofStore e),(r.onAccounts .getAll).2) := by
  rw [verifyCredentials_run, Records.runAlone, Program.run, Records.respond]
  cases (r.onAccounts .getAll).1 <;> rfl

theorem runAlone_resolve (accountId : String) :
    r.runAlone s (resolve accountId).run =
      (match (r.onAccounts (.get accountId)).1 with
        | .ok a => .ok (.ofAccount a)
        | .error e => .error (.ofStore e),(r.onAccounts (.get accountId)).2) := by
  rw [resolve_run, Records.runAlone, Program.run, Records.respond]
  cases (r.onAccounts (.get accountId)).1 <;> rfl

end

/-- Reading the accounts changes neither of the repositories. -/
theorem getAll_repository (m : Metered Account) : (m.run .getAll).2.repository = m.repository := by
  obtain ⟨repository, reads, writes, faults⟩ := m
  cases faults with
  | cons reason rest => rfl
  | nil => cases repository <;> rfl

/-- Calls that are not due to fail are answered as memory would answer them. -/
theorem onAccounts_served (r : Records) (as : List Account) (has : r.accounts.repository.Holds as)
    (call : Call Account) (hcall : ∀ new, call ≠ .putAll new) (hfaults : r.accounts.faults = []) :
    (r.onAccounts call).1 = (Memory.run as call).1 ∧
      (r.onAccounts call).2.accounts.repository.Holds (Memory.run as call).2 ∧
      (r.onAccounts call).2.accounts.faults = [] := by
  obtain ⟨⟨repository, reads, writes, faults⟩, machines, metrics, drawn⟩ := r
  cases hfaults
  obtain ⟨hanswer, hholds⟩ := repository.run_holds as has call (Table.alike_of_ne_putAll call hcall)
  unfold Records.onAccounts Metered.run
  cases call.isRead <;> exact ⟨hanswer,hholds,rfl⟩

/-- With distinct usernames it is this account that is found. -/
theorem find_username (as : List Account) (a : Account) (ha : a ∈ as)
    (hu : (as.map Account.username).Nodup) :
    as.find? (fun b => b.username = a.username) = some a := by
  cases hfind : as.find? fun b => b.username = a.username with
  | none => exact absurd (decide_eq_true rfl) (List.find?_eq_none.mp hfind a ha)
  | some b =>
    have hb : b.username = a.username := by simpa using List.find?_some hfind
    rw [List.inj_on_of_nodup_map hu (List.mem_of_find?_eq_some hfind) ha hb]

theorem recognise_eq (as : List Account) (a : Account) (ha : a ∈ as)
    (hu : (as.map Account.username).Nodup) (password : String) (agrees : Bool)
    (hv : Password.verify password a.hashedPassword = .ok agrees) :
    recognise a.username password as =
      if agrees then .ok a.id else .error (.invalid "invalid credentials") := by
  rw [recognise, find_username as a ha hu]
  dsimp only
  rw [hv]

section

variable (s : Supply) (r : Records) (as : List Account) (has : r.accounts.repository.Holds as)
  (hfaults : r.accounts.faults = []) (a : Account) (ha : a ∈ as)

include has hfaults ha

/-- While the repository is at hand, a check finds the account and compares the password with its
hash. -/
theorem verify_served (hu : (as.map Account.username).Nodup) (password : String) (agrees : Bool)
    (hv : Password.verify password a.hashedPassword = .ok agrees) :
    ∃ r', r.runAlone s (verifyCredentials a.username password).run =
        (if agrees then .ok a.id else .error (.invalid "invalid credentials"),r') ∧
      r'.accounts.repository.Holds as ∧ r'.accounts.faults = [] := by
  obtain ⟨hanswer, has', hfaults'⟩ :=
    onAccounts_served r as has .getAll (fun _ h => nomatch h) hfaults
  refine ⟨_,?_,has',hfaults'⟩
  rw [runAlone_verify, hanswer]
  exact congrArg (·,_) (recognise_eq as a ha hu password agrees hv)

theorem resolve_served :
    (r.runAlone s (resolve a.id).run).1 = .ok (.ofAccount a) := by
  obtain ⟨hanswer, -, -⟩ := onAccounts_served r as has (.get a.id) (fun _ h => nomatch h) hfaults
  have hfind := Memory.find_eq_of_mem as (r.accounts.repository.holds_nodup as has) a ha
  have hget : Memory.get as a.id = .ok a := (Memory.get_eq_ok_iff as a.id a).mpr hfind
  rw [runAlone_resolve, hanswer, Memory.run, hget]

end

theorem verify_repositories (s : Supply) (r : Records) (username password : String) :
    (r.runAlone s (verifyCredentials username password).run).2.accounts.repository =
        r.accounts.repository ∧
      (r.runAlone s (verifyCredentials username password).run).2.machines = r.machines := by
  rw [runAlone_verify]
  exact ⟨getAll_repository r.accounts,rfl⟩

/-- An account that was not there before is made up of what was asked for. -/
theorem created_outcome {trusted : Principal → Prop} {as as' : List Account} (new : NewAccount)
    (ensureUnique : Bool) (a : Account)
    (h : Outcome trusted as (.createUser new ensureUnique) (.ok a) as') (hnew : a ∉ as) :
    a ∈ as' ∧ a.username = new.username ∧ a.role = new.role ∧
      Password.hash new.password a.salt = .ok a.hashedPassword := by
  cases h with
  | read _ _ h => exact absurd (by simp [writing, Task.operation]) h
  | found _ _ ha => exact absurd ha hnew
  | added _ _ id hashed salt hhashed hfree => exact ⟨by simp,rfl,rfl,hhashed⟩

/-- An account that is there between two tasks is there as long as nobody has deleted it. -/
theorem account_stays {trusted : Principal → Prop} {f : Floor} {as : List Account}
    (turns : List Floor.Turn) (hturns : ∀ t p, .trust t p ∈ turns → trusted p) (a : Account)
    (h : f.Amid trusted UsernamesDiffer as) (hquiet : f.isQuiet = true) (ha : a ∈ as)
    (hkept : ∀ b ∈ f.begunSince (f.play turns), b.task = .deleteUser a.id → b.failed = true) :
    ∃ as' b, (f.play turns).records.accounts.repository.Holds as' ∧
      (as'.map Account.username).Nodup ∧ b ∈ as' ∧ unnamed b = unnamed a := by
  have hstays : StaysOrGone a f.tasks f.tasks as :=
    ⟨stage_quiet _ _ h.stage ((Floor.isQuiet_iff f).mp hquiet),[],rfl,Or.inl (List.mem_map_of_mem ha)⟩
  obtain ⟨as', hamid⟩ := Floor.play_amid (staysOrGone_preserved trusted a f.tasks) turns hturns
    (h.since hquiet hstays)
  obtain ⟨hu, hmem⟩ := stays trusted a f _ as' hamid hkept
  obtain ⟨b, hb, hba⟩ := List.mem_map.mp hmem
  exact ⟨as',b,hamid.accounts,hu,hb,hba⟩

/-! ## Main statement -/

/-- From empty accounts, let any tasks run one after another. When one of them has created an account
that was not there before, its username and password log in to it from then on until a task deletes it;
no other password does, unless it has the same hash. Checking a password never changes what is stored. -/
theorem created_account_logs_in (backend : Backend) (start : Records)
    (hstart : start.accounts.repository = (Repository.seeded backend []).2)
    (before during after : List Floor.Turn) (f₁ f₂ f₃ : Floor)
    (h₁ : (Floor.mk start [] []).play before = f₁) (h₂ : f₁.play during = f₂)
    (h₃ : f₂.play after = f₃) (hquiet : f₁.isQuiet = true) (new : NewAccount) (ensureUnique : Bool)
    (a : Account) (hcreated : f₂.tasks = ⟨.createUser new ensureUnique,.done (.ok a)⟩ :: f₁.tasks)
    (hnew : ∀ as, f₁.records.accounts.repository.records = .ok as → a ∉ as)
    (hkept : ∀ b ∈ f₂.begunSince f₃, b.task = .deleteUser a.id → b.failed = true)
    (hserved : f₃.records.accounts.faults = []) (s : Supply) :
    (∃ r, f₃.records.runAlone s (verifyCredentials new.username new.password).run = (.ok a.id,r) ∧
        (r.runAlone s (resolve a.id).run).1 = .ok ⟨a.id,new.role,.account⟩) ∧
      (∀ q, Password.verify q a.hashedPassword ≠ .ok true →
        (f₃.records.runAlone s (verifyCredentials new.username q).run).1 =
          .error (.invalid "invalid credentials")) ∧
      ∀ (r : Records) (username password : String),
        let r' := (r.runAlone s (verifyCredentials username password).run).2
        r'.accounts.repository = r.accounts.repository ∧ r'.machines.repository = r.machines.repository := by
  have hanybody : ∀ turns : List Floor.Turn, ∀ t p, .trust t p ∈ turns → (fun _ => True) p :=
    fun _ _ _ _ => trivial
  have hdiffer := usernamesDiffer_preserved fun _ => True
  have hempty : (Floor.mk start [] []).Amid (fun _ => True) UsernamesDiffer [] := by
    refine ⟨?_,by simp,.between [] [] (by simp) List.nodup_nil⟩
    rw [hstart]
    exact Repository.seeded_holds backend
  -- until the account is created
  obtain ⟨as₁, hamid₁⟩ := Floor.play_amid hdiffer before (hanybody before) hempty
  rw [h₁] at hamid₁
  -- while it is created
  rw [← h₂] at hcreated
  obtain ⟨as₂, hamid₂, houtcome⟩ :=
    Floor.play_alone hdiffer during (hanybody during) hamid₁ hquiet _ _ hcreated
  rw [h₂] at hamid₂ hcreated
  obtain ⟨ha₂, husername, hrole, hhash⟩ := created_outcome new ensureUnique a houtcome
    (hnew as₁ (Repository.holds_records _ _ hamid₁.accounts))
  have hquiet₂ : f₂.isQuiet = true := by
    rw [Floor.isQuiet_iff, hcreated]
    exact List.forall_mem_cons.mpr ⟨rfl,(Floor.isQuiet_iff f₁).mp hquiet⟩
  -- and from then on
  obtain ⟨as₃, b, has₃, hu, hb, hba⟩ :=
    account_stays after (hanybody after) a hamid₂ hquiet₂ ha₂ (h₃ ▸ hkept)
  rw [h₃] at has₃
  obtain ⟨hid, hname, hashed, hsame⟩ := of_unnamed_eq a b hba
  have hprincipal : Principal.ofAccount b = ⟨a.id,new.role,.account⟩ := by
    rw [Principal.ofAccount, hid, hsame, hrole]
  have hlogin := verify_served s f₃.records as₃ has₃ hserved b hb hu
  rw [hname, husername, hashed, hid] at hlogin
  refine ⟨?_,?_,?_⟩
  · obtain ⟨r, hrun, hr, hfaults⟩ := hlogin new.password true (Password.verify_hash _ _ _ hhash)
    refine ⟨r,hrun,?_⟩
    rw [← hid, resolve_served s r as₃ hr hfaults b hb, hprincipal, hid]
  · intro q hq
    obtain ⟨agrees, hv⟩ := Password.verify_total _ _ _ hhash q
    cases agrees with
    | true => exact absurd hv hq
    | false =>
      obtain ⟨r, hrun, -, -⟩ := hlogin q false hv
      exact congrArg Prod.fst hrun
  · intro r username password
    obtain ⟨haccounts, hmachines⟩ := verify_repositories s r username password
    exact ⟨haccounts,congrArg Metered.repository hmachines⟩

/-- Somebody asks for a username that is taken, with another password and another role, the account is
given another name, and its owner tries to delete it. Then she logs in as ever. -/
theorem renamed_account_logs_in :
    let new : NewAccount := ⟨"ann","secret","","",.user⟩
    let other : NewAccount := ⟨"ann","other","","",.admin⟩
    let supply : Supply := { Supply.nothing with bytes := List.replicate 16 7 }
    let id := "USER:" ++ Text.Base64.encode .addressSafe supply.bytes
    let root := Principal.ofSystem .root
    let go (effects : Nat) : List Floor.Turn := List.replicate effects (.go supply)
    let during := .trust (.createUser new true) root :: go 4
    let after := .trust (.createUser other false) root :: go 4 ++
      .trust (.updateUser id "Ann" "") root :: go 3 ++ .submit (.deleteUser id) id :: go 2
    ∃ f₁ f₂ f₃ a, (Floor.mk (Records.inMemory [] []) [] []).play [] = f₁ ∧ f₁.play during = f₂ ∧
      f₂.play after = f₃ ∧ f₁.isQuiet = true ∧
      f₂.tasks = ⟨.createUser new true,.done (.ok a)⟩ :: f₁.tasks ∧
      (∀ as, f₁.records.accounts.repository.records = .ok as → a ∉ as) ∧
      (f₂.begunSince f₃).map Begun.succeeded = [false, true, true] ∧
      (∀ b ∈ f₂.begunSince f₃, b.task = .deleteUser a.id → b.failed = true) ∧
      f₃.records.accounts.faults = [] ∧
      ∃ r, f₃.records.runAlone supply (verifyCredentials "ann" "secret").run = (.ok a.id,r) ∧
        (r.runAlone supply (resolve a.id).run).1 = .ok ⟨a.id,.user,.account⟩ := by
  intro new other supply id root go during after
  set f₂ := (Floor.mk (Records.inMemory [] []) [] []).play during with hf₂
  set f₃ := f₂.play after with hf₃
  have htasks : f₂.tasks.map (fun b => (b.task,b.succeeded)) = [(.createUser new true,true)] := by
    decide +kernel
  have hsince : (f₂.begunSince f₃).map Begun.succeeded = [false, true, true] := by decide +kernel
  have hdeletes : (f₂.begunSince f₃).all
      (fun b => b.task.operation ≠ .deleteUser || b.failed) = true := by
    decide +kernel
  have hfaults : f₃.records.accounts.faults = [] := by decide +kernel
  obtain ⟨a, ha⟩ := Begun.of_succeeded _ _ htasks
  have hnew : ∀ as, (Floor.mk (Records.inMemory [] []) [] []).records.accounts.repository.records =
      .ok as → a ∉ as := by
    rintro as ⟨⟩
    simp
  have hkept : ∀ b ∈ f₂.begunSince f₃, b.task = .deleteUser a.id → b.failed = true := by
    intro b hb htask
    have hb := List.all_eq_true.mp hdeletes b hb
    rw [htask] at hb
    simpa [Task.operation] using hb
  obtain ⟨hlogin, -, -⟩ := created_account_logs_in .memory (Records.inMemory [] []) rfl [] during after
    _ f₂ f₃ rfl hf₂.symm hf₃.symm rfl new true a ha hnew hkept hfaults supply
  exact ⟨_,f₂,f₃,a,rfl,hf₂.symm,hf₃.symm,rfl,ha,hnew,hsince,hkept,hfaults,hlogin⟩

end VmFleet.Tasks
