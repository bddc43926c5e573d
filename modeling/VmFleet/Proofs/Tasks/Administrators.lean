import VmFleet.Proofs.Tasks.Outcomes

/-!
# There is always an administrator

Only administrators delete accounts, and nobody deletes their own. Whoever deletes one has just been
found among the accounts and is found there afterwards. So the last administrator cannot be deleted,
and since roles never change, there is one as long as nobody else acts than those who have accounts.
-/

set_option autoImplicit false

namespace VmFleet.Tasks

open Security Store

def HasAdmin (as : List Account) : Prop := ∃ a ∈ as, a.role = .admin

theorem hasAdmin_unnamed (as as' : List Account) (h : as'.map unnamed = as.map unnamed)
    (hadmin : HasAdmin as) : HasAdmin as' := by
  obtain ⟨a, ha, hrole⟩ := hadmin
  have hmem : unnamed a ∈ as'.map unnamed := by
    rw [h]
    exact List.mem_map_of_mem ha
  obtain ⟨b, hb, hba⟩ := List.mem_map.mp hmem
  exact ⟨b,hb,(of_unnamed_eq a b hba).2.2.2.trans hrole⟩

/-- Whoever may delete an account is an administrator and somebody else. -/
theorem deleteUser_allowed (p : Principal) (id : String)
    (h : isAllowed p .deleteUser (.of p id) = true) : p.role = .admin ∧ p.id ≠ id := by
  obtain ⟨pid, role, kind⟩ := p
  cases role with
  | user => cases h
  | admin =>
    refine ⟨rfl,fun hid => ?_⟩
    rw [Ownership.of, if_pos hid] at h
    cases h

/-- Those who have accounts leave an administrator, whatever they do. -/
theorem hasAdmin_outcome (as : List Account) (t : Task) (result : Except TaskError t.Result)
    (as' : List Account) (h : Outcome (fun _ => False) as t result as') (hadmin : HasAdmin as) :
    HasAdmin as' := by
  cases h with
  | failed => exact hadmin
  | read => exact hadmin
  | found => exact hadmin
  | added =>
    obtain ⟨a, ha, hrole⟩ := hadmin
    exact ⟨a,List.mem_append_left _ ha,hrole⟩
  | renamed id firstName lastName a ha =>
    exact hasAdmin_unnamed as _ (place_renamed as id firstName lastName a ha) hadmin
  | deleted id p hp hallowed =>
    obtain h | ⟨a, ha, rfl⟩ := hp
    · cases h
    · obtain ⟨hrole, hne⟩ := deleteUser_allowed (.ofAccount a) id hallowed
      exact ⟨a,List.mem_filter.mpr ⟨ha,decide_eq_true hne⟩,hrole⟩

theorem hasAdmin_preserved : Preserved (fun _ => False) fun _ as => HasAdmin as :=
  fun _ as t result as' hadmin h => hasAdmin_outcome as t result as' h hadmin

/-- Let anybody with an account id run any tasks one after another, whatever comes from outside and
whichever calls fail. If one of the accounts was an administrator in the beginning, one of them is at
every moment. -/
theorem administrator_remains (r : Records) (as : List Account)
    (has : r.accounts.repository.Holds as) (hadmin : ∃ a ∈ as, a.role = .admin)
    (turns : List Floor.Turn) (hturns : ∀ t p, .trust t p ∉ turns) :
    ∃ as', ((Floor.mk r [] []).play turns).records.accounts.repository.records = .ok as' ∧
      ∃ a ∈ as', a.role = .admin := by
  have hstart : (Floor.mk r [] []).Amid (fun _ => False) (fun _ as => HasAdmin as) as :=
    ⟨has,by simp,.between [] as (by simp) hadmin⟩
  obtain ⟨as', h⟩ := Floor.play_amid hasAdmin_preserved turns (fun t p => hturns t p) hstart
  refine ⟨as',Repository.holds_records _ _ h.accounts,?_⟩
  rcases stage_shows hasAdmin_preserved _ as' h.stage with
    hadmin' | ⟨_, _, before, _, _, hbefore, rfl | ⟨_, hadmin'⟩⟩
  · exact hadmin'
  · exact hbefore
  · exact hadmin'

/-- Of two administrators one deletes the other, who cannot do so any more in turn; then neither she
herself nor a user can delete her. -/
theorem last_administrator_remains :
    let alice : Account := ⟨"USER:1","alice","","","","",.admin⟩
    let bob : Account := ⟨"USER:2","bob","","","","",.admin⟩
    let carol : Account := ⟨"USER:3","carol","","","","",.user⟩
    let r := Records.inMemory [alice, bob, carol] []
    let turns := Floor.Turn.submitting (.deleteUser bob.id) alice.id 3 ++
      Floor.Turn.submitting (.deleteUser alice.id) bob.id 1 ++
      Floor.Turn.submitting (.deleteUser alice.id) alice.id 2 ++
      Floor.Turn.submitting (.deleteUser alice.id) carol.id 2
    r.accounts.repository.Holds [alice, bob, carol] ∧ (∀ t p, .trust t p ∉ turns) ∧
      ∃ f, f = (Floor.mk r [] []).play turns ∧ f.isQuiet = true ∧
        f.tasks.map Begun.succeeded = [false, false, false, true] ∧
        f.records.accounts.repository.records = .ok [alice, carol] ∧
        ∃ as', f.records.accounts.repository.records = .ok as' ∧ ∃ a ∈ as', a.role = .admin := by
  intro alice bob carol r turns
  have has : r.accounts.repository.Holds [alice, bob, carol] := ⟨rfl,by decide⟩
  have hturns : ∀ t p, .trust t p ∉ turns := by simp [turns, Floor.Turn.submitting]
  refine ⟨has,hturns,_,rfl,by decide +kernel,by decide +kernel,by decide +kernel,?_⟩
  exact administrator_remains r _ has ⟨alice,by simp,rfl⟩ turns hturns

end VmFleet.Tasks
