import VmFleet.Proofs.Store.Agreement
import VmFleet.Proofs.Store.Lookup

/-!
# A batch and its records one by one

A table writes the records of a batch one after the other, so that each of them sees what those before
it have left. Memory checks all of them against the records as they were. The two part ways at a batch
in which one record gives up a key that a later one takes: one by one all of them are accepted, and as
a batch memory refuses them. Such a batch is the only one that is refused without reason.
-/

set_option autoImplicit false

namespace VmFleet.Store

namespace Memory

variable {α : Type} [Keyed α]

/-- The records after putting these one after the other; the first that is refused is the error. -/
def putEach : List α → List α → Except StoreError (List α)
  | [], items => .ok items
  | item :: rest, items =>
    match put items item with
    | (.error e, _) => .error e
    | (.ok _, items) => putEach rest items

theorem putEach_eq_ok (new items stored : List α) (h : putEach new items = .ok stored) :
    stored = placeAll new items ∧ ∀ first item last, new = first ++ item :: last →
      conflicts (placeAll first items) item = false := by
  induction new generalizing items with
  | nil =>
    cases h
    refine ⟨rfl, ?_⟩
    intro first item last hnew
    simp at hnew
  | cons item rest ih =>
    rw [putEach] at h
    rcases put_cases items item with ⟨-, hp⟩ | ⟨hc, hp⟩
    · rw [hp] at h
      cases h
    · rw [hp] at h
      obtain ⟨hstored, hfree⟩ := ih _ h
      refine ⟨hstored, ?_⟩
      intro first other last hnew
      cases first with
      | nil =>
        obtain ⟨rfl, -⟩ := List.cons.inj hnew
        exact hc
      | cons x first =>
        obtain ⟨rfl, hrest⟩ := List.cons.inj hnew
        exact hfree first other last hrest

/-- One record of the batch takes the key of a stored one, which an earlier one of the batch replaces
by a record with another key. -/
def PassesKey (new items : List α) : Prop :=
  ∃ first item last, new = first ++ item :: last ∧
    ∃ e ∈ items, Keyed.key e = Keyed.key item ∧ Keyed.id e ≠ Keyed.id item ∧
      ∃ mover ∈ first, Keyed.id mover = Keyed.id e ∧ Keyed.key mover ≠ Keyed.key e

/-- If a record can be put after others and conflicts with what was stored before them, then one of
them has replaced the record that it conflicts with. -/
theorem exists_mover (first items : List α) (h : (items.map Keyed.id).Nodup) (item e : α)
    (he : e ∈ items) (hkey : Keyed.key e = Keyed.key item) (hid : Keyed.id e ≠ Keyed.id item)
    (hfree : conflicts (placeAll first items) item = false) :
    ∃ mover ∈ first, Keyed.id mover = Keyed.id e ∧ Keyed.key mover ≠ Keyed.key e := by
  have hfree := (conflicts_eq_false_iff _ item).mp hfree
  have hfind := find_placeAll first items (Keyed.id e)
  cases hlast : last? (Keyed.id e) first with
  | none =>
    rw [hlast, Option.none_or, find_eq_of_mem items h e he] at hfind
    exact absurd (hfree e (find_eq_some _ _ e hfind).1 hkey) hid
  | some mover =>
    rw [hlast, Option.some_or] at hfind
    obtain ⟨hmem, hmover⟩ := last_eq_some _ first mover hlast
    refine ⟨mover, hmem, hmover, ?_⟩
    intro hsame
    have hback := hfree mover (find_eq_some _ _ mover hfind).1 (hsame.trans hkey)
    exact hid (hmover.symm.trans hback)

theorem conflicts_iff_passesKey (new items stored : List α) (h : (items.map Keyed.id).Nodup)
    (hputs : putEach new items = .ok stored) :
    (∃ item ∈ new, conflicts items item = true) ↔ PassesKey new items := by
  constructor
  · rintro ⟨item, hitem, hc⟩
    obtain ⟨e, he, hne⟩ := List.any_eq_true.mp hc
    obtain ⟨hid, hkey⟩ := of_decide_eq_true hne
    obtain ⟨first, last, rfl⟩ := List.append_of_mem hitem
    have hfree := (putEach_eq_ok _ items stored hputs).2 first item last rfl
    exact ⟨first, item, last, rfl, e, he, hkey, hid, exists_mover first items h item e he hkey hid hfree⟩
  · rintro ⟨first, item, last, rfl, e, he, hkey, hid, -⟩
    have hitem : item ∈ first ++ item :: last := List.mem_append_right _ List.mem_cons_self
    exact ⟨item,hitem,List.any_eq_true.mpr ⟨e,he,decide_eq_true ⟨hid,hkey⟩⟩⟩

end Memory

namespace Table

variable {α : Type} [Tabled α] [Faithful α]

/-- A table writes a batch as memory puts its records one by one. -/
theorem writeAll_putEach (new : List α) (s : Sheet) (items : List α) (h : Represents s items) :
    (∃ t stored, writeAll new s = .ok t ∧ Memory.putEach new items = .ok stored ∧
        Represents t stored) ∨
      ∃ item ∈ new, writeAll new s = .error (taken item) ∧
        Memory.putEach new items = .error (taken item) := by
  induction new generalizing s items with
  | nil => exact Or.inl ⟨s,items,rfl,rfl,h⟩
  | cons item rest ih =>
    rcases Memory.put_cases items item with ⟨hc, hp⟩ | ⟨hc, hp⟩
    · refine Or.inr ⟨item, List.mem_cons_self, ?_, ?_⟩
      · rw [writeAll, write_conflict s items h item hc]
      · rw [Memory.putEach, hp]
    · obtain ⟨t, ht, hr⟩ := write_place s items h item hc
      rw [writeAll, ht, Memory.putEach, hp]
      rcases ih t _ hr with hok | ⟨other, hother, herror⟩
      · exact Or.inl hok
      · exact Or.inr ⟨other,List.mem_cons_of_mem _ hother,herror⟩

end Table

namespace Memory

/-- When the records of a batch can be put one by one, then a table takes the batch and holds the same
records in the same order. Memory does so exactly if no record of the batch takes a key that an earlier
one gives up; else it refuses the batch and keeps what it has. -/
theorem putAll_follows_puts_iff {α : Type} [Tabled α] [Faithful α] (items new stored : List α)
    (h : Distinct items) (hputs : putEach new items = .ok stored) :
    (∀ s, Table.Represents s items → ∃ t, Table.putAll s new = (.ok new, t) ∧
      Table.Represents t stored) ∧
    (putAll items new = (.ok new, stored) ↔ ¬ PassesKey new items) ∧
    (PassesKey new items ↔ ∃ item ∈ new, putAll items new = (.error (taken item), items)) := by
  have hpasses := conflicts_iff_passesKey new items stored h.ids hputs
  obtain ⟨hstored, -⟩ := putEach_eq_ok new items stored hputs
  refine ⟨?_, ?_⟩
  · intro s hs
    rcases Table.writeAll_putEach new s items hs with ⟨t, r, ht, hr, hrep⟩ | ⟨item, -, -, herror⟩
    · rw [hputs] at hr
      cases hr
      exact ⟨t,by rw [Table.putAll, ht],hrep⟩
    · rw [hputs] at herror
      cases herror
  · rcases putAll_cases items new with ⟨item, hitem, hc, hp⟩ | ⟨hfree, hp⟩
    · have hyes : PassesKey new items := hpasses.mp ⟨item,hitem,hc⟩
      rw [hp]
      exact ⟨by simp [hyes],by simpa [hyes] using ⟨item,hitem,rfl⟩⟩
    · have hno : ¬ PassesKey new items := by
        rw [← hpasses]
        rintro ⟨item, hitem, hc⟩
        exact absurd (hc.symm.trans (hfree item hitem)) Bool.noConfusion
      rw [hp, hstored]
      exact ⟨by simp [hno],by simp [hno]⟩

def twoAccounts : List Account :=
  [⟨"USER:1", "alice", "Alice", "A", "h", "s", .user⟩, ⟨"USER:2", "bob", "Bob", "B", "h", "s", .user⟩]

theorem twoAccounts_distinct : Distinct twoAccounts := ⟨by decide,by decide⟩

/-- A batch that renames an account twice and adds another under a username that nobody has had. -/
theorem renamed_twice_follows_puts :
    let new : List Account := [⟨"USER:1", "carol", "Alice", "A", "h", "s", .user⟩,
      ⟨"USER:3", "dave", "Dave", "D", "h", "s", .user⟩, ⟨"USER:1", "alice", "Alice", "A", "h", "s", .user⟩]
    let stored := twoAccounts ++ [⟨"USER:3", "dave", "Dave", "D", "h", "s", .user⟩]
    Distinct twoAccounts ∧ putEach new twoAccounts = .ok stored ∧
      (∀ s, Table.Represents s twoAccounts → ∃ t, Table.putAll s new = (.ok new, t) ∧
        Table.Represents t stored) ∧
      (putAll twoAccounts new = (.ok new, stored) ↔ ¬ PassesKey new twoAccounts) ∧
      (PassesKey new twoAccounts ↔
        ∃ item ∈ new, putAll twoAccounts new = (.error (taken item), twoAccounts)) :=
  ⟨twoAccounts_distinct,rfl,putAll_follows_puts_iff _ _ _ twoAccounts_distinct rfl⟩

/-- Alice is renamed and Bob takes her username: one by one both are put, and as a batch both are
refused. -/
theorem passed_username_is_refused :
    let new : List Account := [⟨"USER:1", "carol", "Alice", "A", "h", "s", .user⟩,
      ⟨"USER:2", "alice", "Bob", "B", "h", "s", .user⟩]
    Distinct twoAccounts ∧ putEach new twoAccounts = .ok new ∧
      putAll twoAccounts new = (.error (.duplicate "user" "alice"), twoAccounts) :=
  ⟨twoAccounts_distinct,rfl,rfl⟩

end Memory
end VmFleet.Store
