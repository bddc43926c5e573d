import VmFleet.Proofs.Store.Distinct

/-!
# What is stored under an id

Putting or deleting a record changes what is found under its id. Any other call leaves that alone,
except for what is added under the id or put in a batch.
-/

set_option autoImplicit false

namespace VmFleet.Store

variable {α : Type} [Keyed α]

/-- What an answered call has written under the id, if it has written anything there. -/
def Call.written? (id : String) : (c : Call α) → c.Answer → Option (Option α)
  | .put item, answer => if Keyed.id item = id ∧ answer.isOk = true then some (some item) else none
  | .delete i, answer => if i = id ∧ answer.isOk = true then some none else none
  | _, _ => none

namespace Memory

def find (items : List α) (id : String) : Option α := items.find? fun e => Keyed.id e = id

theorem find_eq_none_iff (items : List α) (id : String) :
    find items id = none ↔ ∀ a ∈ items, Keyed.id a ≠ id := by
  simp [find, List.find?_eq_none]

theorem find_eq_some (items : List α) (id : String) (a : α) (h : find items id = some a) :
    a ∈ items ∧ Keyed.id a = id := by
  have hid := List.find?_some h
  exact ⟨List.mem_of_find?_eq_some h,of_decide_eq_true hid⟩

theorem get_eq_ok_iff (items : List α) (id : String) (a : α) :
    get items id = .ok a ↔ find items id = some a := by
  unfold get find
  cases items.find? fun e => decide (Keyed.id e = id) <;> simp

theorem find_place (item : α) (items : List α) (id : String) :
    find (place item items) id = if Keyed.id item = id then some item else find items id := by
  unfold find
  induction items with
  | nil => by_cases h : Keyed.id item = id <;> simp [place, h]
  | cons e es ih =>
    by_cases he : Keyed.id e = Keyed.id item
    · by_cases h : Keyed.id item = id
      · simp [place, he, h]
      · simp [place, he, h]
    · by_cases h : Keyed.id e = id
      · have hne : Keyed.id item ≠ id := fun hid => he (h.trans hid.symm)
        simp [place, h, hne, hne.symm]
      · simp [place, he, h, ih]

theorem find_filter (items : List α) (i id : String) :
    find (items.filter fun e => Keyed.id e ≠ i) id = if i = id then none else find items id := by
  unfold find
  rw [List.find?_filter]
  split
  · rename_i h
    rw [List.find?_eq_none]
    intro e _ he
    simp [h] at he
  · rename_i h
    congr 1
    funext e
    by_cases he : Keyed.id e = id
    · simp [he, Ne.symm h]
    · simp [he]

theorem delete_cases (items : List α) (id : String) :
    (∃ e, delete items id = (.error e, items)) ∨
      delete items id = (.ok (), items.filter fun e => Keyed.id e ≠ id) := by
  unfold delete
  dsimp only
  split
  · exact Or.inl ⟨_,rfl⟩
  · exact Or.inr rfl

theorem find_run (items : List α) (id : String) (c : Call α)
    (hfresh : ∀ item ensureUnique, c = .add item ensureUnique → Keyed.id item ≠ id)
    (hsingle : ∀ new, c ≠ .putAll new) :
    find (run items c).2 id = (c.written? id (run items c).1).getD (find items id) := by
  cases c with
  | getAll => rfl
  | get i => rfl
  | putAll new => exact absurd rfl (hsingle new)
  | add item ensureUnique =>
    rcases add_cases items item ensureUnique with ⟨e, -, hadd⟩ | ⟨-, hadd⟩
    · simp only [run, hadd]
      rfl
    · simp only [run, hadd]
      have hne := hfresh item ensureUnique rfl
      simp [find, Call.written?, hne]
  | put item =>
    rcases put_cases items item with ⟨-, hput⟩ | ⟨-, hput⟩
    · simp only [run, hput]
      simp [Call.written?, Except.isOk, Except.toBool]
    · simp only [run, hput, find_place]
      by_cases h : Keyed.id item = id <;> simp [Call.written?, Except.isOk, Except.toBool, h]
  | delete i =>
    rcases delete_cases items i with ⟨e, hdelete⟩ | hdelete
    · simp only [run, hdelete]
      simp [Call.written?, Except.isOk, Except.toBool]
    · simp only [run, hdelete, find_filter]
      by_cases h : i = id <;> simp [Call.written?, Except.isOk, Except.toBool, h]

/-! ## Batches -/

/-- The last of the records that has the id. -/
def last? (id : String) : List α → Option α
  | [] => none
  | item :: rest => (last? id rest).or (if Keyed.id item = id then some item else none)

theorem last_append (id : String) (first rest : List α) :
    last? id (first ++ rest) = (last? id rest).or (last? id first) := by
  induction first with
  | nil => simp [last?]
  | cons item first ih => rw [List.cons_append, last?, ih, last?, Option.or_assoc]

theorem last_eq_some (id : String) (items : List α) (a : α) (h : last? id items = some a) :
    a ∈ items ∧ Keyed.id a = id := by
  induction items with
  | nil => cases h
  | cons item items ih =>
    rw [last?, Option.or_eq_some_iff] at h
    rcases h with h | ⟨-, h⟩
    · exact ⟨List.mem_cons_of_mem item (ih h).1,(ih h).2⟩
    · by_cases hid : Keyed.id item = id
      · rw [if_pos hid] at h
        cases h
        exact ⟨List.mem_cons_self,hid⟩
      · rw [if_neg hid] at h
        cases h

theorem find_eq_of_mem (items : List α) (h : (items.map Keyed.id).Nodup) (a : α) (ha : a ∈ items) :
    find items (Keyed.id a) = some a := by
  cases hfind : find items (Keyed.id a) with
  | none => exact absurd rfl ((find_eq_none_iff items _).mp hfind a ha)
  | some b =>
    obtain ⟨hb, hid⟩ := find_eq_some items _ b hfind
    rw [List.inj_on_of_nodup_map h hb ha hid]

theorem last_eq_find (items : List α) (h : (items.map Keyed.id).Nodup) (id : String) :
    last? id items = find items id := by
  cases hlast : last? id items with
  | some a =>
    obtain ⟨ha, rfl⟩ := last_eq_some id items a hlast
    exact (find_eq_of_mem items h a ha).symm
  | none =>
    symm
    rw [find_eq_none_iff]
    intro a ha hid
    obtain ⟨first, rest, rfl⟩ := List.append_of_mem ha
    rw [last_append, Option.or_eq_none_iff, last?, if_pos hid] at hlast
    simp at hlast

theorem find_placeAll (new items : List α) (id : String) :
    find (placeAll new items) id = (last? id new).or (find items id) := by
  induction new generalizing items with
  | nil => rfl
  | cons item new ih =>
    have hrest := ih (place item items)
    rw [last?, Option.or_assoc]
    refine Eq.trans hrest ?_
    rw [find_place]
    by_cases hid : Keyed.id item = id
    · simp [hid]
    · simp [hid]

/-- A batch with no new id leaves every record in its place, as the batch has it last. -/
theorem placeAll_eq_map (new items : List α) (h : (items.map Keyed.id).Nodup)
    (hin : ∀ item ∈ new, ∃ e ∈ items, Keyed.id e = Keyed.id item) :
    placeAll new items = items.map fun e => (last? (Keyed.id e) new).getD e := by
  induction new generalizing items with
  | nil => simp [placeAll, last?]
  | cons item new ih =>
    have hplace := place_eq_map item items h (hin item List.mem_cons_self)
    have hids : (place item items).map Keyed.id = items.map Keyed.id := by
      rw [hplace, List.map_map]
      apply List.map_congr_left
      intro e _
      by_cases he : Keyed.id e = Keyed.id item <;> simp [he]
    have hrest := ih (place item items) (hids ▸ h) fun x hx => by
      obtain ⟨e, he, hid⟩ := hin x (List.mem_cons_of_mem item hx)
      have hmem : Keyed.id x ∈ (place item items).map Keyed.id := by
        rw [hids, ← hid]
        exact List.mem_map_of_mem he
      exact List.mem_map.mp hmem
    refine Eq.trans hrest ?_
    rw [hplace, List.map_map]
    apply List.map_congr_left
    intro e _
    rw [Function.comp_apply, last?]
    by_cases he : Keyed.id e = Keyed.id item
    · rw [if_pos he, if_pos he.symm, he]
      cases last? (Keyed.id item) new <;> rfl
    · rw [if_neg he, if_neg (Ne.symm he), Option.or_none]

end Memory
end VmFleet.Store
