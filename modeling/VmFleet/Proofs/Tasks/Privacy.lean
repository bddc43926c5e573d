import VmFleet.Proofs.Program.Twins
import VmFleet.Proofs.Tasks.Confinement
import VmFleet.Proofs.Tasks.Outcomes
import VmFleet.Proofs.Tasks.Snapshots

/-!
# What ordinary users cannot tell

Two sets of records may differ in all accounts but one and in all machines of other owners, as long as
the same ids are taken. Whatever the user with that account runs, one task after another, returns the
same on both, errors and all: answers differ at most in what the tasks of a user leave out.
-/

set_option autoImplicit false

namespace VmFleet

/-! ## Two repositories at once -/

namespace Store

variable {α : Type}

/-- Of two repositories either both fail a call, for the same reason, or none. -/
theorem Metered.run_both [Tabled α] [Faithful α] (m m' : Metered α) (items items' : List α)
    (h : m.repository.Holds items) (h' : m'.repository.Holds items') (hfaults : m.faults = m'.faults)
    (c : Call α) (hc : Table.Alike c) :
    (m.run c).2.faults = (m'.run c).2.faults ∧
      ((∃ reason, (m.run c).1 = .error (.backend reason) ∧ (m'.run c).1 = .error (.backend reason)) ∧
          (m.run c).2.repository.Holds items ∧ (m'.run c).2.repository.Holds items' ∨
        ((m.run c).1 = (Memory.run items c).1 ∧ (m'.run c).1 = (Memory.run items' c).1) ∧
          (m.run c).2.repository.Holds (Memory.run items c).2 ∧
          (m'.run c).2.repository.Holds (Memory.run items' c).2) := by
  obtain ⟨repository, reads, writes, faults⟩ := m
  obtain ⟨repository', reads', writes', faults'⟩ := m'
  cases hfaults
  unfold Metered.run
  cases faults with
  | cons reason rest => cases c.isRead <;> exact ⟨rfl,Or.inl ⟨⟨reason,rfl,rfl⟩,h,h'⟩⟩
  | nil =>
    obtain ⟨hanswer, hholds⟩ := repository.run_holds items h c hc
    obtain ⟨hanswer', hholds'⟩ := repository'.run_holds items' h' c hc
    cases c.isRead <;> exact ⟨rfl,Or.inr ⟨⟨hanswer,hanswer'⟩,hholds,hholds'⟩⟩

namespace Memory

variable [Keyed α] (item : α) (items : List α) (q : α → Bool)

theorem filter_place (hitem : q item = true)
    (hall : ∀ e ∈ items, Keyed.id e = Keyed.id item → q e = true) :
    (place item items).filter q = place item (items.filter q) := by
  induction items with
  | nil => simp [place, hitem]
  | cons e es ih =>
    obtain ⟨he, hes⟩ := List.forall_mem_cons.mp hall
    by_cases hid : Keyed.id e = Keyed.id item
    · simp [place, hid, hitem, he hid]
    · rw [place, if_neg hid, List.filter_cons, List.filter_cons, ih hes]
      split
      · rw [place, if_neg hid]
      · rfl

theorem filter_place_other (hitem : q item = false)
    (hall : ∀ e ∈ items, Keyed.id e = Keyed.id item → q e = false) :
    (place item items).filter q = items.filter q := by
  induction items with
  | nil => simp [place, hitem]
  | cons e es ih =>
    obtain ⟨he, hes⟩ := List.forall_mem_cons.mp hall
    by_cases hid : Keyed.id e = Keyed.id item
    · simp [place, hid, hitem, he hid]
    · rw [place, if_neg hid, List.filter_cons, List.filter_cons, ih hes]

omit q in
theorem put_free (hfree : conflicts items item = false) :
    put items item = (.ok item,place item items) := by
  rcases put_cases items item with ⟨h, -⟩ | ⟨-, h⟩
  · rw [hfree] at h
    cases h
  · exact h

omit items q in
theorem get_eq_of_find (items items' : List α) (id : String) (h : find items id = find items' id) :
    get items id = get items' id := by
  unfold find at h
  unfold get
  rw [h]

end Memory
end Store

namespace Tasks

open Security Store Delegation

/-! ## What a user is told -/

def owned (owner : String) (ms : List Machine) : List Machine := ms.filter fun m => m.ownerId = owner

def foreign (owner : String) (ms : List Machine) : List Machine :=
  ms.filter fun m => m.ownerId ≠ owner

theorem mem_ids_iff (owner : String) (ms : List Machine) (id : String) :
    id ∈ ms.map Machine.id ↔
      id ∈ (owned owner ms).map Machine.id ∨ id ∈ (foreign owner ms).map Machine.id := by
  simp only [owned, foreign, List.mem_map, List.mem_filter, decide_eq_true_eq]
  constructor
  · rintro ⟨m, hm, rfl⟩
    by_cases howner : m.ownerId = owner
    · exact Or.inl ⟨m,⟨hm,howner⟩,rfl⟩
    · exact Or.inr ⟨m,⟨hm,howner⟩,rfl⟩
  · rintro (⟨m, ⟨hm, -⟩, rfl⟩ | ⟨m, ⟨hm, -⟩, rfl⟩) <;> exact ⟨m,hm,rfl⟩

/-- The pact of a user whose account is this one, names aside, when these ids are those of machines of
others. -/
def ownPact (owner : String) (account : Option Account) (others : List String) : Pact where
  allows
    | .accounts (.get id) => id = owner
    | .accounts (.put a) => a.id = owner ∧ some (unnamed a) = account
    | .accounts _ => False
    | .machines .getAll => True
    | .machines (.get _) => True
    | .machines (.add m ensureUnique) => ensureUnique = true ∧ m.ownerId = owner
    | .machines (.put m) => m.ownerId = owner ∧ m.id ∉ others
    | .machines _ => False
    | .provision m => m.ownerId = owner ∧ m.id ∉ others
    | _ => True
  alike
    | .accounts (.get _), a, b => a = b ∧ ∀ x, a = .ok x → some (unnamed x) = account
    | .machines .getAll, a, b => a = b ∨
      ∃ ms ms', a = .ok ms ∧ b = .ok ms' ∧ owned owner ms = owned owner ms'
    | .machines (.get _), a, b => a = b ∨
      ∃ m m', a = .ok m ∧ b = .ok m' ∧ m.ownerId ≠ owner ∧ m'.ownerId ≠ owner
    | .machines (.add m _), a, b => a = b ∧ ∀ x, a = .ok x → x = m ∧ m.id ∉ others
    | _, a, b => a = b

/-- What two sets of records have in common, and the machines of others that each of them keeps. -/
structure Mirrored (owner : String) (account : Option Account) (xs xs' : List Machine)
    (r r' : Records) : Prop where
  accounts : ∃ as as', r.accounts.repository.Holds as ∧ r'.accounts.repository.Holds as' ∧
    Memory.Distinct as ∧ Memory.Distinct as' ∧ Memory.find as owner = Memory.find as' owner ∧
    (Memory.find as owner).map unnamed = account
  machines : ∃ ms ms', r.machines.repository.Holds ms ∧ r'.machines.repository.Holds ms' ∧
    owned owner ms = owned owner ms' ∧ foreign owner ms = xs ∧ foreign owner ms' = xs'
  accountFaults : r.accounts.faults = r'.accounts.faults
  machineFaults : r.machines.faults = r'.machines.faults

section

variable {owner : String} {account : Option Account} {xs xs' : List Machine} {r r' : Records}

/-- Nobody else has the username of one's own account. -/
theorem put_own (as : List Account) (has : Memory.Distinct as) (a : Account) (haid : a.id = owner)
    (ha : some (unnamed a) = (Memory.find as owner).map unnamed) :
    Memory.run as (.put a) = (.ok a,Memory.place a as) ∧ Memory.Distinct (Memory.place a as) ∧
      Memory.find (Memory.place a as) owner = some a := by
  obtain ⟨c, hc, hca⟩ := Option.map_eq_some_iff.mp ha.symm
  obtain ⟨hmem, hcid⟩ := Memory.find_eq_some as owner c hc
  have hfree : Memory.conflicts as a = false := by
    rw [Memory.conflicts_eq_false_iff]
    intro e he hkey
    have hec : e = c := List.inj_on_of_nodup_map has.keys he hmem
      (hkey.trans (of_unnamed_eq a c hca).2.1.symm)
    rw [hec]
    exact (of_unnamed_eq a c hca).1
  refine ⟨Memory.put_free a as hfree,Memory.place_distinct a as has hfree,?_⟩
  rw [Memory.find_place]
  exact if_pos haid

theorem accounts_mirrored (call : Call Account) (h : Mirrored owner account xs xs' r r')
    (he : (ownPact owner account (xs.map Machine.id)).allows (.accounts call)) :
    (ownPact owner account (xs.map Machine.id)).alike (.accounts call) (r.onAccounts call).1
        (r'.onAccounts call).1 ∧
      Mirrored owner account xs xs' (r.onAccounts call).2 (r'.onAccounts call).2 := by
  obtain ⟨⟨as, as', has, has', hd, hd', hsame, haccount⟩, hmachines, hfaults, hmachineFaults⟩ := h
  have hcall : ∀ new, call ≠ .putAll new := by
    rintro new rfl
    exact he
  obtain ⟨hfaults', ⟨⟨reason, hanswer, hanswer'⟩, hh, hh'⟩ | ⟨⟨hanswer, hanswer'⟩, hh, hh'⟩⟩ :=
    Metered.run_both r.accounts r'.accounts as as' has has' hfaults call
      (Table.alike_of_ne_putAll call hcall)
  · refine ⟨?_,⟨as,as',hh,hh',hd,hd',hsame,haccount⟩,hmachines,hfaults',hmachineFaults⟩
    rw [show (r.onAccounts call).1 = _ from hanswer, show (r'.onAccounts call).1 = _ from hanswer']
    cases call with
    | get id => exact ⟨rfl,fun _ h => nomatch h⟩
    | _ => exact rfl
  · rw [show (r.onAccounts call).1 = _ from hanswer, show (r'.onAccounts call).1 = _ from hanswer']
    cases call with
    | get id =>
      cases he
      refine ⟨⟨Memory.get_eq_of_find as as' owner hsame,fun x hx => ?_⟩,
        ⟨as,as',hh,hh',hd,hd',hsame,haccount⟩,hmachines,hfaults',hmachineFaults⟩
      rw [← haccount, (Memory.get_eq_ok_iff as owner x).mp hx]
      rfl
    | put a =>
      obtain ⟨haid, ha⟩ := he
      obtain ⟨hput, hdistinct, hfind⟩ := put_own as hd a haid (ha.trans haccount.symm)
      obtain ⟨hput', hdistinct', hfind'⟩ :=
        put_own as' hd' a haid (ha.trans (haccount.symm.trans (congrArg _ hsame)))
      rw [hput] at hh ⊢
      rw [hput'] at hh' ⊢
      refine ⟨rfl,⟨_,_,hh,hh',hdistinct,hdistinct',hfind.trans hfind'.symm,?_⟩,hmachines,hfaults',
        hmachineFaults⟩
      rw [hfind]
      exact ha
    | _ => cases he

theorem existing_machine (ms : List Machine) (m : Machine) :
    Memory.existing? ms m = none ↔ m.id ∉ ms.map Machine.id := by
  rw [Memory.existing_eq_none_iff]
  constructor
  · rintro h hmem
    obtain ⟨e, he, hid⟩ := List.mem_map.mp hmem
    exact (h e he).1 hid
  · intro h e he
    have hne : e.id ≠ m.id := fun hid => h (List.mem_map.mpr ⟨e,he,hid⟩)
    exact ⟨hne,hne⟩

/-- A machine under an id that is not taken by others finds its place among one's own. -/
theorem place_own (ms : List Machine) (m : Machine) (hm : m.ownerId = owner)
    (hid : m.id ∉ (foreign owner ms).map Machine.id) :
    Memory.run ms (.put m) = (.ok m,Memory.place m ms) ∧
      owned owner (Memory.place m ms) = Memory.place m (owned owner ms) ∧
      foreign owner (Memory.place m ms) = foreign owner ms := by
  have hall : ∀ e ∈ ms, Keyed.id e = Keyed.id m → e.ownerId = owner := by
    intro e he heid
    by_contra hne
    exact hid (List.mem_map.mpr ⟨e,List.mem_filter.mpr ⟨he,decide_eq_true hne⟩,heid⟩)
  refine ⟨Memory.put_free m ms (Memory.conflicts_of_key_eq_id (fun _ => rfl) ms m),?_,?_⟩
  · exact Memory.filter_place m ms _ (decide_eq_true hm) fun e he h => decide_eq_true (hall e he h)
  · exact Memory.filter_place_other m ms _ (by simpa using hm) fun e he h => by simpa using hall e he h

/-- Under each id both hold the same machine of one's own, or a machine of others, or none. -/
theorem get_both (ms ms' : List Machine) (hids : (ms.map Machine.id).Nodup)
    (hids' : (ms'.map Machine.id).Nodup) (howned : owned owner ms = owned owner ms')
    (htaken : ∀ id, id ∈ ms.map Machine.id ↔ id ∈ ms'.map Machine.id) (id : String) :
    Memory.get ms id = Memory.get ms' id ∨ ∃ m m', Memory.get ms id = .ok m ∧
      Memory.get ms' id = .ok m' ∧ m.ownerId ≠ owner ∧ m'.ownerId ≠ owner := by
  have hmem : ∀ m, m.ownerId = owner → (m ∈ ms ↔ m ∈ ms') := by
    intro m hm
    have h : m ∈ owned owner ms ↔ m ∈ owned owner ms' := by rw [howned]
    simpa [owned, hm] using h
  cases hfind : Memory.find ms id with
  | none =>
    have hnone : Memory.find ms' id = none := by
      rw [Memory.find_eq_none_iff] at hfind ⊢
      intro m' hm' hid
      obtain ⟨m, hm, hmid⟩ := List.mem_map.mp ((htaken id).mpr (List.mem_map.mpr ⟨m',hm',hid⟩))
      exact hfind m hm hmid
    exact Or.inl (Memory.get_eq_of_find ms ms' id (hfind.trans hnone.symm))
  | some m =>
    obtain ⟨hm, rfl⟩ := Memory.find_eq_some ms id m hfind
    obtain ⟨m', hm', hid⟩ := List.mem_map.mp ((htaken _).mp (List.mem_map.mpr ⟨m,hm,rfl⟩))
    have hfind' : Memory.find ms' (Keyed.id m) = some m' :=
      (congrArg (Memory.find ms') hid.symm).trans (Memory.find_eq_of_mem ms' hids' m' hm')
    by_cases hown : m.ownerId = owner
    · have hsame := Memory.find_eq_of_mem ms' hids' m ((hmem m hown).mp hm)
      exact Or.inl (Memory.get_eq_of_find ms ms' _ (hfind.trans hsame.symm))
    · refine Or.inr ⟨m,m',(Memory.get_eq_ok_iff ..).mpr hfind,(Memory.get_eq_ok_iff ..).mpr hfind',hown,?_⟩
      intro hown'
      have hsame : m' = m := List.inj_on_of_nodup_map hids ((hmem m' hown').mpr hm') hm hid
      exact hown (hsame ▸ hown')

theorem add_own (ms : List Machine) (m : Machine) (hm : m.ownerId = owner) :
    (m.id ∈ ms.map Machine.id → Memory.run ms (.add m true) = (.error (taken m),ms)) ∧
      (m.id ∉ ms.map Machine.id → Memory.run ms (.add m true) = (.ok m,ms ++ [m])) ∧
      owned owner (ms ++ [m]) = owned owner ms ++ [m] ∧ foreign owner (ms ++ [m]) = foreign owner ms := by
  refine ⟨fun hid => ?_,fun hid => ?_,by simp [owned, hm],by simp [foreign, hm]⟩
  · rcases Memory.add_cases ms m true with ⟨_, _, hadd⟩ | ⟨hfree, -⟩
    · exact hadd
    · exact absurd hid ((existing_machine ms m).mp hfree)
  · rcases Memory.add_cases ms m true with ⟨e, he, -⟩ | ⟨-, hadd⟩
    · rw [(existing_machine ms m).mpr hid] at he
      cases he
    · exact hadd

theorem machines_mirrored (call : Call Machine) (h : Mirrored owner account xs xs' r r')
    (hxs : ∀ id, id ∈ xs.map Machine.id ↔ id ∈ xs'.map Machine.id)
    (he : (ownPact owner account (xs.map Machine.id)).allows (.machines call)) :
    (ownPact owner account (xs.map Machine.id)).alike (.machines call) (r.onMachines call).1
        (r'.onMachines call).1 ∧
      Mirrored owner account xs xs' (r.onMachines call).2 (r'.onMachines call).2 := by
  obtain ⟨haccounts, ⟨ms, ms', hms, hms', howned, hxms, hxms'⟩, haccountFaults, hfaults⟩ := h
  obtain ⟨hfaults', ⟨⟨reason, hanswer, hanswer'⟩, hh, hh'⟩ | ⟨⟨hanswer, hanswer'⟩, hh, hh'⟩⟩ :=
    Metered.run_both r.machines r'.machines ms ms' hms hms' hfaults call
      (Table.alike_of_key_eq_id (fun _ => rfl) call)
  · refine ⟨?_,haccounts,⟨ms,ms',hh,hh',howned,hxms,hxms'⟩,haccountFaults,hfaults'⟩
    rw [show (r.onMachines call).1 = _ from hanswer, show (r'.onMachines call).1 = _ from hanswer']
    cases call with
    | getAll => exact Or.inl rfl
    | get id => exact Or.inl rfl
    | add m ensureUnique => exact ⟨rfl,fun _ h => nomatch h⟩
    | _ => exact rfl
  · rw [show (r.onMachines call).1 = _ from hanswer, show (r'.onMachines call).1 = _ from hanswer']
    have htaken : ∀ id, id ∈ ms.map Machine.id ↔ id ∈ ms'.map Machine.id := by
      intro id
      rw [mem_ids_iff owner ms, mem_ids_iff owner ms', howned, hxms, hxms', hxs]
    cases call with
    | getAll =>
      exact ⟨Or.inr ⟨ms,ms',rfl,rfl,howned⟩,haccounts,⟨ms,ms',hh,hh',howned,hxms,hxms'⟩,
        haccountFaults,hfaults'⟩
    | get id =>
      exact ⟨get_both ms ms' (Repository.holds_nodup _ _ hms) (Repository.holds_nodup _ _ hms') howned
        htaken id,haccounts,⟨ms,ms',hh,hh',howned,hxms,hxms'⟩,haccountFaults,hfaults'⟩
    | add m ensureUnique =>
      obtain ⟨rfl, hm⟩ := he
      obtain ⟨hrefused, hadded, hown, hforeign⟩ := add_own ms m hm
      obtain ⟨hrefused', hadded', hown', hforeign'⟩ := add_own ms' m hm
      by_cases hid : m.id ∈ ms.map Machine.id
      · rw [hrefused hid] at hh ⊢
        rw [hrefused' ((htaken m.id).mp hid)] at hh' ⊢
        exact ⟨⟨rfl,fun _ h => nomatch h⟩,haccounts,⟨ms,ms',hh,hh',howned,hxms,hxms'⟩,haccountFaults,
          hfaults'⟩
      · rw [hadded hid] at hh ⊢
        rw [hadded' (mt (htaken m.id).mpr hid)] at hh' ⊢
        have hothers : m.id ∉ xs.map Machine.id := fun hmem =>
          hid ((mem_ids_iff owner ms m.id).mpr (Or.inr (hxms ▸ hmem)))
        refine ⟨⟨rfl,?_⟩,haccounts,⟨_,_,hh,hh',?_,hforeign.trans hxms,hforeign'.trans hxms'⟩,
          haccountFaults,hfaults'⟩
        · rintro x ⟨⟩
          exact ⟨rfl,hothers⟩
        · rw [hown, hown', howned]
    | put m =>
      obtain ⟨hm, hid⟩ := he
      obtain ⟨hput, hown, hforeign⟩ := place_own ms m hm (hxms ▸ hid)
      obtain ⟨hput', hown', hforeign'⟩ := place_own ms' m hm (hxms' ▸ mt (hxs m.id).mpr hid)
      rw [hput] at hh ⊢
      rw [hput'] at hh' ⊢
      refine ⟨rfl,haccounts,⟨_,_,hh,hh',?_,hforeign.trans hxms,hforeign'.trans hxms'⟩,
        haccountFaults,hfaults'⟩
      rw [hown, hown', howned]
    | _ => cases he

theorem provisioning_blind (m : Machine) (hm : m.ownerId = owner)
    (hid : m.id ∉ xs.map Machine.id) :
    (provisioning m).Blind (ownPact owner account (xs.map Machine.id)) := by
  apply Program.blind_forget
  rw [provision_run]
  refine Program.blind_perform _ _ trivial (fun _ _ => id) fun answer _ => ?_
  refine Program.blind_perform _ _ trivial (fun _ _ => id) fun _ _ => ?_
  cases readReply resourceCreate Machine.decode answer with
  | error e => exact .done _ _ rfl
  | ok reply =>
    change Program.Blind _ (if describes reply m then Attempt.machines (.put reply)
      else throw (.transport (mismatch reply m))).run
    split
    · rename_i hd
      obtain ⟨hreply, howner⟩ := of_decide_eq_true hd
      refine Program.blind_perform (.machines (.put reply)) _ ?_ (fun _ _ => id) fun _ _ => .done _ _ rfl
      exact ⟨howner.trans hm,hreply ▸ hid⟩
    · exact .done _ _ rfl

theorem own_pact_upheld (hxs : ∀ id, id ∈ xs.map Machine.id ↔ id ∈ xs'.map Machine.id) :
    (ownPact owner account (xs.map Machine.id)).Upheld (Mirrored owner account xs xs') := by
  intro s r r' e h he
  cases e with
  | accounts call =>
    obtain ⟨halike, h'⟩ := accounts_mirrored call h he
    exact ⟨halike,h',rfl,by simp [Records.respond]⟩
  | machines call =>
    obtain ⟨halike, h'⟩ := machines_mirrored call h hxs he
    exact ⟨halike,h',rfl,by simp [Records.respond]⟩
  | provision m =>
    refine ⟨rfl,h,rfl,?_⟩
    intro n hn
    rw [List.mem_singleton.mp hn]
    exact provisioning_blind m he.1 he.2
  | draw count =>
    exact ⟨rfl,⟨h.accounts,h.machines,h.accountFaults,h.machineFaults⟩,rfl,by simp [Records.respond]⟩
  | record event =>
    exact ⟨rfl,⟨h.accounts,h.machines,h.accountFaults,h.machineFaults⟩,rfl,by simp [Records.respond]⟩
  | _ => exact ⟨rfl,h,rfl,by simp [Records.respond]⟩

/-! ## The tasks of a user -/

/-- Among operations on single targets, users may only do those to what is their own. -/
theorem user_owns_target (p : Principal) (h : p.role = .user) (o : Operation) (ho : o ≠ .createVm)
    (id : String) (ha : isAllowed p o (.of p id) = true) : id = p.id := by
  by_contra hne
  have hdenied : isAllowed p o .notOwned = false := by
    rw [isAllowed_eq_false_iff, h]
    revert ho
    cases o <;> decide
  rw [Ownership.of, if_neg (Ne.symm hne), hdenied] at ha
  cases ha

theorem visible_user (p : Principal) (h : p.role = .user) (ms : List Machine) :
    visible p ms = owned p.id ms := by
  apply List.filter_congr
  intro m _
  by_cases hm : m.ownerId = p.id
  · have hallowed : isAllowed p .getAllVms .owned = true := by
      rw [isAllowed, h]
      rfl
    rw [Ownership.of, if_pos hm.symm, hallowed, decide_eq_true hm]
  · have hdenied : isAllowed p .getAllVms (.of p m.ownerId) = false := Bool.eq_false_iff.mpr fun ha =>
      hm (user_owns_target p h .getAllVms (by decide) m.ownerId ha)
    rw [hdenied, decide_eq_false hm]

theorem getVm_blind (p : Principal) (h : p.role = .user) (id : String) :
    (getVm p id).run.Blind (ownPact p.id account (xs.map Machine.id)) := by
  have hunseen : ∀ m : Machine, m.ownerId ≠ p.id → seen p (.ok m) = .error (.unauthorized ⟨p.id,.getVm⟩) :=
    fun m hm => seen_denied p m (Bool.eq_false_iff.mpr fun ha =>
      hm (user_owns_target p h .getVm (by decide) m.ownerId ha))
  rw [getVm_run]
  refine .perform _ _ _ trivial fun answer answer' halike => ?_
  rcases halike with rfl | ⟨m, m', rfl, rfl, hm, hm'⟩
  · exact .done _ _ rfl
  · exact .done _ _ ((hunseen m hm).trans (hunseen m' hm').symm)

theorem getAllVms_blind (p : Principal) (h : p.role = .user) :
    (getAllVms p).run.Blind (ownPact p.id account (xs.map Machine.id)) := by
  apply Attempt.blind_authorize
  intro _
  rw [Attempt.machines_bind]
  refine .perform _ _ _ trivial fun answer answer' halike => ?_
  rcases halike with rfl | ⟨ms, ms', rfl, rfl, hsame⟩
  · cases answer with
    | ok ms => exact .done _ _ rfl
    | error e => exact .done _ _ rfl
  · have hvisible : visible p ms = visible p ms' :=
      (visible_user p h ms).trans (hsame.trans (visible_user p h ms').symm)
    exact .done _ _ (congrArg Except.ok hvisible)

theorem createVm_blind (p : Principal) (provider : Provider) :
    (createVm p provider).run.Blind (ownPact p.id account (xs.map Machine.id)) := by
  apply Attempt.blind_authorize
  intro _
  apply Attempt.blind_bind
  · unfold checkOwner
    cases p.kind with
    | account => exact Attempt.blind_accounts _ _ rfl (fun _ _ => And.left) fun _ _ => .done _ _ rfl
    | system identity => exact .done _ _ rfl
  · intro _
    apply Attempt.blind_bind
    · exact Program.blind_perform (.draw idBytes) _ trivial (fun _ _ => id) fun _ _ => .done _ _ rfl
    · intro newId
      refine Attempt.blind_machines _ _ ⟨rfl,rfl⟩ (fun _ _ => And.left) fun stored halike => ?_
      obtain ⟨rfl, hid⟩ := halike.2 stored rfl
      exact Program.blind_perform (.provision _) _ ⟨rfl,hid⟩ (fun _ _ => id) fun _ _ => .done _ _ rfl

theorem updateUser_blind (p : Principal) (h : p.role = .user) (id firstName lastName : String)
    (hid : ∀ c, account = some c → c.id = p.id) :
    (updateUser p id firstName lastName).run.Blind (ownPact p.id account (xs.map Machine.id)) := by
  apply Attempt.blind_authorize
  intro ha
  cases user_owns_target p h .updateUser (by decide) id ha
  refine Attempt.blind_accounts (.get p.id) _ rfl (fun _ _ => And.left) fun a halike => ?_
  have haccount : some (unnamed (renamed a firstName lastName)) = account := halike.2 a rfl
  have hown : (renamed a firstName lastName).id = p.id :=
    hid (unnamed (renamed a firstName lastName)) haccount.symm
  exact Program.blind_perform (.accounts (.put _)) _ ⟨hown,haccount⟩ (fun _ _ h => h)
    fun _ _ => .done _ _ rfl

/-- A task of a user leaves out all that the answers to it may differ in. -/
theorem execute_blind (t : Task) (p : Principal) (h : p.role = .user)
    (hid : ∀ c, account = some c → c.id = p.id) :
    (t.execute p).run.Blind (ownPact p.id account (xs.map Machine.id)) := by
  have hdenied : t.operation ∈ reserved →
      (t.execute p).run.Blind (ownPact p.id account (xs.map Machine.id)) := by
    intro ho
    rw [execute_denied t p (user_denied p h t.operation _ ho)]
    exact .done _ _ rfl
  cases t with
  | createUser new ensureUnique => exact hdenied (by simp [Task.operation, reserved])
  | getAllUsers => exact hdenied (by simp [Task.operation, reserved])
  | deleteUser id => exact hdenied (by simp [Task.operation, reserved])
  | bulkUpdateVms machines => exact hdenied (by simp [Task.operation, reserved])
  | getUser id =>
    apply Attempt.blind_authorize
    intro ha
    cases user_owns_target p h .getUser (by decide) id ha
    exact Program.blind_perform (.accounts (.get p.id)) _ rfl (fun _ _ => And.left) fun _ _ => .done _ _ rfl
  | updateUser id firstName lastName => exact updateUser_blind p h id firstName lastName hid
  | createVm provider => exact createVm_blind p provider
  | getVm id => exact getVm_blind p h id
  | getAllVms => exact getAllVms_blind p h

theorem submitTrusted_blind (t : Task) (p : Principal) (h : p.role = .user)
    (hid : ∀ c, account = some c → c.id = p.id) :
    (t.submitTrusted p).run.Blind (ownPact p.id account (xs.map Machine.id)) := by
  rw [submitTrusted_run]
  apply Program.blind_bind (execute_blind t p h hid)
  intro result
  exact Program.blind_perform _ _ trivial (fun _ _ => id) fun _ _ => .done _ _ rfl

theorem submit_blind (t : Task) (p : Principal)
    (haccount : ∀ c, account = some c → c.id = p.id ∧ c.role = .user) :
    (t.submit p.id).run.Blind (ownPact p.id account (xs.map Machine.id)) := by
  rw [submit_eq_get_bind]
  refine Attempt.blind_accounts (.get p.id) _ rfl (fun _ _ => And.left) fun a halike => ?_
  obtain ⟨hid, hrole⟩ := haccount _ (halike.2 a rfl).symm
  have hown : (Principal.ofAccount a).id = p.id := hid
  rw [← hown]
  exact submitTrusted_blind t (.ofAccount a) hrole fun c hc => (haccount c hc).1.trans hown.symm

end

/-! ## Main statement -/

/-- Records that somebody should not be able to tell apart: they have stored the same account for the
principal, if any, and the same machines that it owns, in the same order. The same ids of machines are
taken, and the same calls are due to fail. -/
structure SameFor (p : Principal) (r r' : Records) : Prop where
  accounts : ∃ as as', r.accounts.repository.Holds as ∧ r'.accounts.repository.Holds as' ∧
    Memory.Distinct as ∧ Memory.Distinct as' ∧ Memory.find as p.id = Memory.find as' p.id
  machines : ∃ ms ms', r.machines.repository.Holds ms ∧ r'.machines.repository.Holds ms' ∧
    owned p.id ms = owned p.id ms' ∧ ∀ id, id ∈ ms.map Machine.id ↔ id ∈ ms'.map Machine.id
  accountFaults : r.accounts.faults = r'.accounts.faults
  machineFaults : r.machines.faults = r'.machines.faults

/-- Turns in which nobody begins a task but the principal: as somebody known, or, when its account is
stored as these records have it, by the id of that account. -/
def Floor.Turn.IsBy (p : Principal) (r : Records) : Floor.Turn → Prop
  | .trust _ q => q = p
  | .submit _ accountId => accountId = p.id ∧
      ∀ a, (r.accounts.repository.run (.get p.id)).1 = .ok a → Principal.ofAccount a = p
  | _ => True

variable {p : Principal} {r r' : Records}

/-- Those ids that are not taken by one's own machines are taken by those of others. -/
theorem foreign_taken (ms ms' : List Machine) (hids : (ms.map Machine.id).Nodup)
    (howned : owned p.id ms = owned p.id ms')
    (htaken : ∀ id, id ∈ ms.map Machine.id → id ∈ ms'.map Machine.id) (id : String)
    (h : id ∈ (foreign p.id ms).map Machine.id) : id ∈ (foreign p.id ms').map Machine.id := by
  obtain ⟨m, hm, rfl⟩ := List.mem_map.mp h
  obtain ⟨hm, hother⟩ := List.mem_filter.mp hm
  rcases (mem_ids_iff p.id ms' m.id).mp (htaken m.id (List.mem_map.mpr ⟨m,hm,rfl⟩)) with hown | hforeign
  · rw [← howned] at hown
    obtain ⟨o, ho, hid⟩ := List.mem_map.mp hown
    obtain ⟨ho, howner⟩ := List.mem_filter.mp ho
    obtain rfl : o = m := List.inj_on_of_nodup_map hids ho hm hid
    exact absurd (of_decide_eq_true howner) (of_decide_eq_true hother)
  · exact hforeign

theorem SameFor.mirrored (h : SameFor p r r') : ∃ account xs xs',
    Mirrored p.id account xs xs' r r' ∧
      ∀ id, id ∈ xs.map Machine.id ↔ id ∈ xs'.map Machine.id := by
  obtain ⟨⟨as, as', has, has', hd, hd', hsame⟩, ⟨ms, ms', hms, hms', howned, htaken⟩, hfaults, hfaults'⟩ := h
  refine ⟨_,_,_,⟨⟨as,as',has,has',hd,hd',hsame,rfl⟩,⟨ms,ms',hms,hms',howned,rfl,rfl⟩,hfaults,hfaults'⟩,
    fun id => ⟨?_,?_⟩⟩
  · exact foreign_taken ms ms' (Repository.holds_nodup _ _ hms) howned (fun id => (htaken id).mp) id
  · exact foreign_taken ms' ms (Repository.holds_nodup _ _ hms') howned.symm (fun id => (htaken id).mpr) id

theorem Mirrored.account_id {account : Option Account} {xs xs' : List Machine}
    (h : Mirrored p.id account xs xs' r r') (c : Account) (hc : account = some c) : c.id = p.id := by
  obtain ⟨as, -, -, -, -, -, -, haccount⟩ := h.accounts
  rw [hc] at haccount
  obtain ⟨a, ha, rfl⟩ := Option.map_eq_some_iff.mp haccount
  exact (Memory.find_eq_some as p.id a ha).2

/-- Whoever may begin by account id has the role of that account. -/
theorem Mirrored.account_role {account : Option Account} {xs xs' : List Machine}
    (h : Mirrored p.id account xs xs' r r')
    (hown : ∀ a, (r.accounts.repository.run (.get p.id)).1 = .ok a → Principal.ofAccount a = p)
    (c : Account) (hc : account = some c) : c.role = p.role := by
  obtain ⟨as, -, has, -, -, -, -, haccount⟩ := h.accounts
  rw [hc] at haccount
  obtain ⟨a, ha, rfl⟩ := Option.map_eq_some_iff.mp haccount
  have hget : (r.accounts.repository.run (.get p.id)).1 = .ok a :=
    (r.accounts.repository.run_holds as has (.get p.id) trivial).1.trans
      ((Memory.get_eq_ok_iff as p.id a).mpr ha)
  rw [← hown a hget]
  rfl

/-- Whatever a principal with the role of a user runs, it is returned the same on records that are the
same for it, whoever else's accounts and machines there are. -/
theorem user_told_the_same (p : Principal) (hp : p.role = .user) (r r' : Records)
    (h : SameFor p r r') (turns : List Floor.Turn) (hturns : ∀ t ∈ turns, t.IsBy p r) :
    ((Floor.mk r [] []).play turns).results = ((Floor.mk r' [] []).play turns).results := by
  obtain ⟨account, xs, xs', hmirrored, hxs⟩ := h.mirrored
  refine Floor.play_results (own_pact_upheld hxs) turns (fun t ht => ?_) ⟨hmirrored,.nil,.nil⟩
  have hby := hturns t ht
  cases t with
  | trust t q =>
    cases hby
    exact submitTrusted_blind t p hp hmirrored.account_id
  | submit t accountId =>
    obtain ⟨rfl, hown⟩ := hby
    refine submit_blind t p fun c hc => ⟨hmirrored.account_id c hc,?_⟩
    exact (hmirrored.account_role hown c hc).trans hp
  | go s => trivial
  | provide n s => trivial

/-- Others have renamed themselves and their machines are quite different; a user who tries to read
and to change what is theirs, and gets a machine of her own meanwhile, is none the wiser. -/
theorem bob_told_the_same :
    let bob : Account := ⟨"USER:1","bob","Bob","","hash","salt",.user⟩
    let carol : Account := ⟨"USER:2","carol","Carol","","hash","salt",.user⟩
    let alice : Account := ⟨"USER:3","alice","","","","",.admin⟩
    let own : Machine := ⟨"VM:1",.aws,.up,bob.id⟩
    let other : Machine := ⟨"VM:2",.aws,.initializing,carol.id⟩
    let other' : Machine := ⟨"VM:2",.gcp,.up,alice.id⟩
    let r := Records.inMemory [bob, carol] [own, other]
    let r' := Records.inMemory [{ carol with firstName := "Caroline" }, alice, bob] [other', own]
    let p : Principal := ⟨bob.id,.user,.account⟩
    let supply : Supply := { Supply.nothing with bytes := List.replicate 16 7 }
    let run (t : Task) : List Floor.Turn := .submit t bob.id :: List.replicate 6 (.go supply)
    let turns := run (.createVm .gcp) ++ run .getAllVms ++ run (.getVm own.id) ++ run (.getVm other.id) ++
      run (.getUser carol.id) ++ run (.updateUser bob.id "Rob" "") ++ run (.deleteUser bob.id)
    p.role = .user ∧ SameFor p r r' ∧ (∀ t ∈ turns, t.IsBy p r) ∧
      ((Floor.mk r [] []).play turns).results = ((Floor.mk r' [] []).play turns).results ∧
      ∃ f, f = (Floor.mk r [] []).play turns ∧ f.isQuiet = true ∧
        f.tasks.map Begun.succeeded = [false, true, false, false, true, true, true] := by
  intro bob carol alice own other other' r r' p supply run turns
  have hsame : SameFor p r r' :=
    ⟨⟨_,_,⟨rfl,by decide⟩,⟨rfl,by decide⟩,⟨by decide,by decide⟩,⟨by decide,by decide⟩,rfl⟩,
      ⟨_,_,⟨rfl,by decide⟩,⟨rfl,by decide⟩,rfl,by
        intro id
        simp [own, other, other', or_comm]⟩,rfl,rfl⟩
  have hby : ∀ t ∈ turns, t.IsBy p r := by
    have hrun : ∀ t, ∀ turn ∈ run t, turn.IsBy p r := by
      intro t turn hturn
      rcases List.mem_cons.mp hturn with rfl | hgo
      · refine ⟨rfl,?_⟩
        rintro a ⟨⟩
        rfl
      · rw [List.eq_of_mem_replicate hgo]
        trivial
    simp only [turns, List.mem_append]
    rintro t ((((((h | h) | h) | h) | h) | h) | h) <;> exact hrun _ t h
  exact ⟨rfl,hsame,hby,user_told_the_same p rfl r r' hsame turns hby,_,rfl,by decide +kernel,by decide +kernel⟩

end Tasks
end VmFleet
