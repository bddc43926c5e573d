import VmFleet.Proofs.Store.Batches
import VmFleet.Proofs.Store.Held

/-!
# What calls leave alone

A call that fails has changed nothing. One that succeeds touches no records but those with the ids that
it was given: the others stay as they are, all that are still there stand in the order in which they
stood, and new ones come last, in the order in which the call names them first. This holds wherever the
records are kept, since memory and table come to the same few outcomes.
-/

set_option autoImplicit false

namespace VmFleet.Store

section

variable {α : Type} [Keyed α]

/-- The ids that a call may write under, in the order of its arguments. -/
def Call.ids : Call α → List String
  | .getAll => []
  | .get _ => []
  | .add item _ => [Keyed.id item]
  | .put item => [Keyed.id item]
  | .putAll new => new.map Keyed.id
  | .delete id => [id]

/-- Whatever has changed has one of these ids. What was there before keeps its order, and what was not
comes after it, in the order of the ids. -/
structure Framed (ids : List String) (before after : List α) : Prop where
  others : (after.filter fun e => Keyed.id e ∉ ids) = before.filter fun e => Keyed.id e ∉ ids
  order : after.map Keyed.id =
    ((before.map Keyed.id).filter fun i => i ∈ after.map Keyed.id) ++
      (ids.filter fun i => i ∉ before.map Keyed.id ∧ i ∈ after.map Keyed.id).eraseDups

/-- What stands under its ids after a call with this result. -/
def Call.Leaves : (c : Call α) → c.Result → List α → List α → Prop
  | .getAll, all, before, after => all = before ∧ after = before
  | .get id, a, before, after => Memory.find before id = some a ∧ after = before
  | .add item _, a, before, after =>
    (Memory.existing? before item = some a ∧ after = before) ∨
      (Memory.existing? before item = none ∧ a = item ∧
        Memory.find after (Keyed.id item) = some item)
  | .put item, a, _, after => a = item ∧ Memory.find after (Keyed.id item) = some item
  | .putAll new, all, _, after =>
    all = new ∧ ∀ item ∈ new, Memory.find after (Keyed.id item) = Memory.last? (Keyed.id item) new
  | .delete id, _, before, after =>
    (Memory.find before id).isSome = true ∧ Memory.find after id = none

/-! ## Frames of the few things that calls do -/

theorem framed_refl (ids : List String) (items : List α) : Framed ids items items := by
  refine ⟨rfl, ?_⟩
  have hkept : ((items.map Keyed.id).filter fun i => i ∈ items.map Keyed.id) =
      items.map Keyed.id := List.filter_eq_self.mpr fun i hi => decide_eq_true hi
  have hnone : (ids.filter fun i => i ∉ items.map Keyed.id ∧ i ∈ items.map Keyed.id) = [] := by
    rw [List.filter_eq_nil_iff]
    intro i _ hi
    obtain ⟨hnot, hin⟩ := of_decide_eq_true hi
    exact hnot hin
  rw [hkept, hnone, List.eraseDups_nil, List.append_nil]

theorem filter_place (p : String → Bool) (item : α) (items : List α)
    (hp : p (Keyed.id item) = false) :
    ((Memory.place item items).filter fun e => p (Keyed.id e)) =
      items.filter fun e => p (Keyed.id e) := by
  induction items with
  | nil => simp [Memory.place, hp]
  | cons e es ih =>
    by_cases he : Keyed.id e = Keyed.id item
    · simp [Memory.place, he, hp]
    · simp only [Memory.place, he, if_false, List.filter_cons, ih]

theorem filter_placeAll (p : String → Bool) (new items : List α)
    (hp : ∀ item ∈ new, p (Keyed.id item) = false) :
    ((Memory.placeAll new items).filter fun e => p (Keyed.id e)) =
      items.filter fun e => p (Keyed.id e) := by
  induction new generalizing items with
  | nil => rfl
  | cons item rest ih =>
    have hrest := ih (Memory.place item items) fun x hx => hp x (List.mem_cons_of_mem _ hx)
    exact hrest.trans (filter_place p item items (hp item List.mem_cons_self))

/-- The ids of a batch that were not there come last, each where the batch names it first. -/
theorem placeAll_ids (new items : List α) :
    (Memory.placeAll new items).map Keyed.id = items.map Keyed.id ++
      ((new.map Keyed.id).filter fun i => i ∉ items.map Keyed.id).eraseDups := by
  induction new generalizing items with
  | nil => simp [Memory.placeAll]
  | cons item rest ih =>
    change (Memory.placeAll rest (Memory.place item items)).map Keyed.id = _
    rw [ih, List.map_cons]
    rcases Memory.place_ids item items with hsame | ⟨hne, happend⟩
    · have hin : Keyed.id item ∈ items.map Keyed.id := by
        rw [← hsame]
        exact List.mem_map_of_mem (Memory.find_eq_some _ _ item (by
          rw [Memory.find_place, if_pos rfl])).1
      rw [hsame, List.filter_cons_of_neg (by simpa using hin)]
    · have hnot : Keyed.id item ∉ items.map Keyed.id := by
        rintro hin
        obtain ⟨e, he, hid⟩ := List.mem_map.mp hin
        exact hne e he hid
      have hlater : ((rest.map Keyed.id).filter fun i => i ∉ items.map Keyed.id ++ [Keyed.id item]) =
          ((rest.map Keyed.id).filter fun i => i ∉ items.map Keyed.id).filter fun i =>
            !i == Keyed.id item := by
        rw [List.filter_filter]
        apply List.filter_congr
        intro i _
        by_cases hi : i = Keyed.id item <;> simp [hi]
      rw [happend, hlater, List.filter_cons_of_pos (by simpa using hnot), List.eraseDups_cons,
        List.append_assoc, List.singleton_append]

theorem framed_placeAll (new items : List α) :
    Framed (new.map Keyed.id) items (Memory.placeAll new items) := by
  have hids := placeAll_ids new items
  constructor
  · apply filter_placeAll (fun i => decide (i ∉ new.map Keyed.id))
    intro item hitem
    simpa using ⟨item,hitem,rfl⟩
  · have hkept : ((items.map Keyed.id).filter fun i =>
        i ∈ (Memory.placeAll new items).map Keyed.id) = items.map Keyed.id := by
      rw [List.filter_eq_self]
      intro i hi
      rw [hids]
      exact decide_eq_true (List.mem_append_left _ hi)
    have hfresh : ((new.map Keyed.id).filter fun i =>
        i ∉ items.map Keyed.id ∧ i ∈ (Memory.placeAll new items).map Keyed.id) =
        (new.map Keyed.id).filter fun i => i ∉ items.map Keyed.id := by
      apply List.filter_congr
      intro i hi
      have hthere : i ∉ items.map Keyed.id → i ∈ (Memory.placeAll new items).map Keyed.id := by
        intro hnot
        rw [hids]
        exact List.mem_append_right _
          (List.mem_eraseDups.mpr (List.mem_filter.mpr ⟨hi,decide_eq_true hnot⟩))
      exact decide_eq_decide.mpr ⟨And.left,fun hnot => ⟨hnot,hthere hnot⟩⟩
    rw [hkept, hfresh]
    exact hids

theorem framed_delete (items : List α) (id : String) :
    Framed [id] items (items.filter fun e => Keyed.id e ≠ id) := by
  have hids : (items.filter fun e => Keyed.id e ≠ id).map Keyed.id =
      (items.map Keyed.id).filter fun i => i ≠ id := by
    rw [List.filter_map]
    rfl
  constructor
  · rw [List.filter_filter]
    apply List.filter_congr
    intro e _
    simp
  · have hkept : ((items.map Keyed.id).filter fun i =>
        i ∈ (items.filter fun e => Keyed.id e ≠ id).map Keyed.id) =
        (items.map Keyed.id).filter fun i => i ≠ id := by
      rw [hids]
      apply List.filter_congr
      intro i hi
      simp only [List.mem_filter]
      exact decide_eq_decide.mpr ⟨fun h => of_decide_eq_true h.2,fun h => ⟨hi,decide_eq_true h⟩⟩
    have hnone : ([id].filter fun i => i ∉ items.map Keyed.id ∧
        i ∈ (items.filter fun e => Keyed.id e ≠ id).map Keyed.id) = [] := by
      rw [hids]
      simp
    rw [hkept, hnone, List.eraseDups_nil, List.append_nil]
    exact hids

/-! ## Outcomes -/

/-- What can come of a call on these records. -/
inductive Outcome (items : List α) : (c : Call α) → c.Answer → List α → Prop
  | refused (c : Call α) (e : StoreError) : Outcome items c (.error e) items
  | all : Outcome items .getAll (.ok items) items
  | one (id : String) (a : α) (h : Memory.find items id = some a) :
      Outcome items (.get id) (.ok a) items
  | found (item a : α) (ensureUnique : Bool) (h : Memory.existing? items item = some a) :
      Outcome items (.add item ensureUnique) (.ok a) items
  | added (item : α) (ensureUnique : Bool) (h : Memory.existing? items item = none) :
      Outcome items (.add item ensureUnique) (.ok item) (Memory.placeAll [item] items)
  | placed (item : α) : Outcome items (.put item) (.ok item) (Memory.placeAll [item] items)
  | batch (new : List α) : Outcome items (.putAll new) (.ok new) (Memory.placeAll new items)
  | deleted (id : String) (h : (Memory.find items id).isSome = true) :
      Outcome items (.delete id) (.ok ()) (items.filter fun e => Keyed.id e ≠ id)

theorem outcome_framed (items : List α) (c : Call α) (answer : c.Answer) (after : List α)
    (h : Outcome items c answer after) :
    (∀ e, answer = .error e → after = items) ∧
      ∀ a, answer = .ok a → Framed c.ids items after ∧ c.Leaves a items after := by
  have hplaced : ∀ item : α, Memory.find (Memory.placeAll [item] items) (Keyed.id item) =
      some item := by
    intro item
    rw [Memory.find_placeAll]
    simp [Memory.last?]
  cases h with
  | refused e => exact ⟨fun _ _ => rfl,fun a ha => by cases ha⟩
  | all =>
    refine ⟨fun _ _ => rfl, fun a ha => ?_⟩
    cases ha
    exact ⟨framed_refl _ items,rfl,rfl⟩
  | one id a hfind =>
    refine ⟨fun _ _ => rfl, fun b hb => ?_⟩
    cases hb
    exact ⟨framed_refl _ items,hfind,rfl⟩
  | found item a ensureUnique hexisting =>
    refine ⟨fun _ _ => rfl, fun b hb => ?_⟩
    cases hb
    exact ⟨framed_refl _ items,Or.inl ⟨hexisting,rfl⟩⟩
  | added item ensureUnique hexisting =>
    refine ⟨fun e he => by (cases he), fun b hb => ?_⟩
    cases hb
    exact ⟨framed_placeAll [item] items,Or.inr ⟨hexisting,rfl,hplaced item⟩⟩
  | placed item =>
    refine ⟨fun e he => by (cases he), fun b hb => ?_⟩
    cases hb
    exact ⟨framed_placeAll [item] items,rfl,hplaced item⟩
  | batch new =>
    refine ⟨fun e he => by (cases he), fun b hb => ?_⟩
    cases hb
    refine ⟨framed_placeAll new items, rfl, ?_⟩
    intro item hitem
    rw [Memory.find_placeAll]
    cases hlast : Memory.last? (Keyed.id item) new with
    | some a => rfl
    | none =>
      obtain ⟨first, rest, rfl⟩ := List.append_of_mem hitem
      rw [Memory.last_append, Option.or_eq_none_iff, Memory.last?, if_pos rfl] at hlast
      simp at hlast
  | deleted id hfound =>
    refine ⟨fun e he => by (cases he), fun b hb => ?_⟩
    exact ⟨framed_delete items id,hfound,by rw [Memory.find_filter, if_pos rfl]⟩

theorem Memory.delete_outcome (items : List α) (id : String) :
    Outcome items (.delete id) (delete items id).1 (delete items id).2 := by
  rcases delete_cases items id with ⟨e, hdelete⟩ | hdelete
  · rw [hdelete]
    exact .refused _ e
  · rw [hdelete]
    refine .deleted id ?_
    by_contra hnone
    have habsent := (find_eq_none_iff items id).mp (Option.not_isSome_iff_eq_none.mp hnone)
    have hlen : (items.filter fun e => Keyed.id e ≠ id).length = items.length :=
      List.length_filter_eq_length_iff.mpr fun e he => decide_eq_true (habsent e he)
    rw [delete, if_pos hlen] at hdelete
    cases hdelete

theorem Memory.run_outcome (items : List α) (c : Call α) :
    Outcome items c (run items c).1 (run items c).2 := by
  cases c with
  | getAll => exact .all
  | get id =>
    cases hget : get items id with
    | error e =>
      simp only [run, hget]
      exact .refused _ e
    | ok a =>
      simp only [run, hget]
      exact .one id a ((get_eq_ok_iff items id a).mp hget)
  | add item ensureUnique =>
    rcases add_cases items item ensureUnique with ⟨e, he, hadd⟩ | ⟨he, hadd⟩
    · simp only [run, hadd]
      cases ensureUnique with
      | true => exact .refused _ _
      | false => exact .found item e false he
    · simp only [run, hadd, append_eq_place items item he]
      exact .added item ensureUnique he
  | put item =>
    rcases put_cases items item with ⟨-, hput⟩ | ⟨-, hput⟩
    · simp only [run, hput]
      exact .refused _ _
    · simp only [run, hput]
      exact .placed item
  | putAll new =>
    rcases putAll_cases items new with ⟨item, -, -, hput⟩ | ⟨-, hput⟩
    · simp only [run, hput]
      exact .refused _ _
    · simp only [run, hput]
      exact .batch new
  | delete id => exact delete_outcome items id

end

/-! ## Either backend -/

section

variable {α : Type} [Tabled α] [Faithful α]

/-- A table that stands for a list of records does so after any call, also after a batch that memory
would have refused. -/
theorem Table.run_outcome (s : Sheet) (items : List α) (h : Represents s items) (c : Call α) :
    ∃ after, Represents (run s c).2 after ∧ Outcome items c (run s c).1 after := by
  by_cases hbatch : ∃ new, c = .putAll new
  · obtain ⟨new, rfl⟩ := hbatch
    rcases writeAll_putEach new s items h with ⟨t, stored, ht, hputs, hr⟩ | ⟨item, -, herror, -⟩
    · obtain ⟨rfl, -⟩ := Memory.putEach_eq_ok new items stored hputs
      simp only [run, putAll, ht]
      exact ⟨_,hr,.batch new⟩
    · simp only [run, putAll, herror]
      exact ⟨items,h,.refused _ _⟩
  · obtain ⟨hanswer, hr⟩ := run_represented s items h c
      (alike_of_ne_putAll c fun new hnew => hbatch ⟨new,hnew⟩)
    rw [hanswer]
    exact ⟨_,hr,Memory.run_outcome items c⟩

namespace Repository

theorem run_outcome (r : Repository α) (items : List α) (h : r.Holds items) (c : Call α) :
    ∃ after, (r.run c).2.Holds after ∧ Outcome items c (r.run c).1 after := by
  cases r with
  | memory stored =>
    obtain ⟨rfl, hids⟩ := h
    exact ⟨_,⟨rfl,Memory.run_nodup stored c hids⟩,Memory.run_outcome stored c⟩
  | table sheet => exact Table.run_outcome sheet items h c

/-- The repository after a run of calls. -/
def after (r : Repository α) (calls : List (Call α)) : Repository α :=
  calls.foldl (fun r c => (r.run c).2) r

theorem after_holds (r : Repository α) (items : List α) (h : r.Holds items) (calls : List (Call α)) :
    ∃ stored, (r.after calls).Holds stored := by
  induction calls generalizing r items with
  | nil => exact ⟨items,h⟩
  | cons c calls ih =>
    obtain ⟨next, hnext, -⟩ := run_outcome r items h c
    exact ih (r.run c).2 next hnext

/-- Calls that fail change nothing, and those that succeed keep to their ids. -/
def Steady (r : Repository α) : Prop :=
  ∀ c : Call α, ∃ before after, r.records = .ok before ∧ (r.run c).2.records = .ok after ∧
    (∀ e, (r.run c).1 = .error e → after = before) ∧
    ∀ a, (r.run c).1 = .ok a → Framed c.ids before after ∧ c.Leaves a before after

theorem after_steady (b : Backend) (calls : List (Call α)) :
    Steady (after (seeded b []).2 calls) := by
  intro c
  obtain ⟨before, hbefore⟩ := after_holds _ [] (seeded_holds b) calls
  obtain ⟨next, hnext, houtcome⟩ := run_outcome _ before hbefore c
  exact ⟨before,next,holds_records _ before hbefore,holds_records _ next hnext,
    outcome_framed before c _ next houtcome⟩

/-- Whatever has been called since the repository was empty, with either kind of record and in either
backend: a call that fails changes nothing, and one that succeeds keeps to its ids. -/
theorem calls_keep_to_their_ids (b : Backend) :
    (∀ calls : List (Call Account), Steady (after (seeded b []).2 calls)) ∧
      ∀ calls : List (Call Machine), Steady (after (seeded b []).2 calls) :=
  ⟨after_steady b,after_steady b⟩

end Repository

end

end VmFleet.Store
