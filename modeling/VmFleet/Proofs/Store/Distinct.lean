import Mathlib.Data.List.Induction
import Mathlib.Data.List.Nodup
import VmFleet.Store.Memory

/-!
# When the records in memory stay distinct

Ids are distinct in every state that calls can reach. Keys are too, with one exception: a batch is
checked against the stored records only, so two of its own records may bring the same key. The main
statement names the batches that do, and they are the only calls after which keys can coincide.
-/

set_option autoImplicit false

namespace VmFleet.Store.Memory

variable {α : Type} [Keyed α]

structure Distinct (items : List α) : Prop where
  ids : (items.map Keyed.id).Nodup
  keys : (items.map Keyed.key).Nodup

theorem distinct_nil : Distinct ([] : List α) := ⟨List.nodup_nil,List.nodup_nil⟩

/-- With distinct ids, keys are distinct when equal keys only ever belong to one id. -/
theorem nodup_keys_iff (items : List α) (h : (items.map Keyed.id).Nodup) :
    (items.map Keyed.key).Nodup ↔
      ∀ a ∈ items, ∀ b ∈ items, Keyed.key a = Keyed.key b → Keyed.id a = Keyed.id b := by
  rw [List.nodup_map_iff_inj_on (List.Nodup.of_map _ h)]
  constructor
  · intro hk a ha b hb he
    rw [hk a ha b hb he]
  · intro hk a ha b hb he
    exact List.inj_on_of_nodup_map h ha hb (hk a ha b hb he)

theorem conflicts_eq_false_iff (items : List α) (item : α) :
    conflicts items item = false ↔
      ∀ e ∈ items, Keyed.key e = Keyed.key item → Keyed.id e = Keyed.id item := by
  simp only [conflicts, List.any_eq_false, decide_eq_true_eq, not_and]
  constructor
  · intro h e he hk
    by_contra hid
    exact h e he hid hk
  · intro h e he hid hk
    exact hid (h e he hk)

theorem conflicts_of_key_eq_id (h : ∀ a : α, Keyed.key a = Keyed.id a) (items : List α) (item : α) :
    conflicts items item = false := by
  rw [conflicts_eq_false_iff]
  intro e he hk
  rw [← h e, ← h item, hk]

theorem existing_eq_none_iff (items : List α) (item : α) :
    existing? items item = none ↔
      ∀ e ∈ items, Keyed.id e ≠ Keyed.id item ∧ Keyed.key e ≠ Keyed.key item := by
  simp only [existing?, List.find?_eq_none, decide_eq_true_eq, not_or, ne_eq]

/-! ## Placing one record -/

/-- Placing a record brings no new id, or exactly its own at the end. -/
theorem place_ids (item : α) (items : List α) :
    (place item items).map Keyed.id = items.map Keyed.id ∨
      (∀ e ∈ items, Keyed.id e ≠ Keyed.id item) ∧
        (place item items).map Keyed.id = items.map Keyed.id ++ [Keyed.id item] := by
  induction items with
  | nil => exact Or.inr ⟨by simp,rfl⟩
  | cons e es ih =>
    by_cases he : Keyed.id e = Keyed.id item
    · left
      simp [place, he]
    · rcases ih with ih | ⟨hes, ih⟩
      · left
        simp [place, he, ih]
      · right
        refine ⟨?_, by simp [place, he, ih]⟩
        intro x hx
        rcases List.mem_cons.mp hx with rfl | hx
        · exact he
        · exact hes x hx

theorem place_nodup (item : α) (items : List α) (h : (items.map Keyed.id).Nodup) :
    ((place item items).map Keyed.id).Nodup := by
  rcases place_ids item items with hp | ⟨hne, hp⟩
  · rw [hp]
    exact h
  · rw [hp, List.nodup_append]
    refine ⟨h, by simp, ?_⟩
    intro a ha b hb
    obtain ⟨e, he, rfl⟩ := List.mem_map.mp ha
    rw [List.mem_singleton.mp hb]
    exact hne e he

theorem place_append (item : α) (items rest : List α) (h : ∀ e ∈ items, Keyed.id e ≠ Keyed.id item) :
    place item (items ++ rest) = items ++ place item rest := by
  induction items with
  | nil => rfl
  | cons e es ih =>
    rw [List.cons_append, place, if_neg (h e List.mem_cons_self), List.cons_append,
      ih fun x hx => h x (List.mem_cons_of_mem _ hx)]

theorem mem_place (item : α) (items : List α) (h : (items.map Keyed.id).Nodup) (x : α) :
    x ∈ place item items ↔ x = item ∨ (x ∈ items ∧ Keyed.id x ≠ Keyed.id item) := by
  induction items with
  | nil => simp [place]
  | cons e es ih =>
    obtain ⟨hnot, hes⟩ := List.nodup_cons.mp h
    by_cases he : Keyed.id e = Keyed.id item
    · -- the first record goes, and no later one has its id
      have hkeep : ∀ y ∈ es, Keyed.id y ≠ Keyed.id item := by
        intro y hy hyi
        exact hnot (List.mem_map.mpr ⟨y, hy, hyi.trans he.symm⟩)
      simp only [place, he, if_true, List.mem_cons]
      constructor
      · rintro (rfl | hx)
        · exact Or.inl rfl
        · exact Or.inr ⟨Or.inr hx,hkeep x hx⟩
      · rintro (rfl | ⟨rfl | hx, hne⟩)
        · exact Or.inl rfl
        · exact absurd he hne
        · exact Or.inr hx
    · simp only [place, he, if_false, List.mem_cons, ih hes]
      constructor
      · rintro (rfl | rfl | ⟨hx, hne⟩)
        · exact Or.inr ⟨Or.inl rfl,he⟩
        · exact Or.inl rfl
        · exact Or.inr ⟨Or.inr hx,hne⟩
      · rintro (rfl | ⟨rfl | hx, hne⟩)
        · exact Or.inr (Or.inl rfl)
        · exact Or.inl rfl
        · exact Or.inr (Or.inr ⟨hx,hne⟩)

theorem place_eq_map (item : α) (items : List α) (h : (items.map Keyed.id).Nodup)
    (hany : ∃ e ∈ items, Keyed.id e = Keyed.id item) :
    place item items = items.map fun e => if Keyed.id e = Keyed.id item then item else e := by
  induction items with
  | nil => simp at hany
  | cons e es ih =>
    obtain ⟨hnot, hes⟩ := List.nodup_cons.mp h
    by_cases he : Keyed.id e = Keyed.id item
    · have hkeep : es.map (fun e => if Keyed.id e = Keyed.id item then item else e) = es := by
        refine (List.map_congr_left ?_).trans (List.map_id es)
        intro y hy
        rw [if_neg, id]
        intro hyi
        exact hnot (List.mem_map.mpr ⟨y,hy,hyi.trans he.symm⟩)
      simp only [place, he, if_true, List.map_cons, hkeep]
    · have hrest : ∃ x ∈ es, Keyed.id x = Keyed.id item := by
        obtain ⟨x, hx, hid⟩ := hany
        rcases List.mem_cons.mp hx with rfl | hx
        · exact absurd hid he
        · exact ⟨x,hx,hid⟩
      simp only [place, he, if_false, List.map_cons, ih hes hrest]

theorem place_distinct (item : α) (items : List α) (h : Distinct items)
    (hc : conflicts items item = false) : Distinct (place item items) := by
  have hids := place_nodup item items h.ids
  refine ⟨hids, (nodup_keys_iff _ hids).mpr ?_⟩
  have hc := (conflicts_eq_false_iff items item).mp hc
  have hk := (nodup_keys_iff items h.ids).mp h.keys
  intro a ha b hb hab
  rw [mem_place item items h.ids] at ha hb
  rcases ha with rfl | ⟨ha, -⟩
  · rcases hb with rfl | ⟨hb, -⟩
    · rfl
    · exact (hc b hb hab.symm).symm
  · rcases hb with rfl | ⟨hb, -⟩
    · exact hc a ha hab
    · exact hk a ha b hb hab

/-! ## Placing a batch -/

def placeAll (new items : List α) : List α := new.foldl (fun acc item => place item acc) items

theorem placeAll_nodup (new items : List α) (h : (items.map Keyed.id).Nodup) :
    ((placeAll new items).map Keyed.id).Nodup := by
  induction new generalizing items with
  | nil => exact h
  | cons item rest ih => exact ih _ (place_nodup item items h)

/-- The records of a batch that no later record of it replaces. -/
def survivors : List α → List α
  | [] => []
  | item :: rest =>
    if rest.any fun e => Keyed.id e = Keyed.id item then survivors rest else item :: survivors rest

theorem mem_of_mem_survivors (new : List α) (x : α) (h : x ∈ survivors new) : x ∈ new := by
  induction new with
  | nil => exact h
  | cons item rest ih =>
    unfold survivors at h
    split at h
    · exact List.mem_cons_of_mem _ (ih h)
    · rcases List.mem_cons.mp h with rfl | h
      · exact List.mem_cons_self
      · exact List.mem_cons_of_mem _ (ih h)

theorem survivors_nodup (new : List α) : ((survivors new).map Keyed.id).Nodup := by
  induction new with
  | nil => exact List.nodup_nil
  | cons item rest ih =>
    unfold survivors
    split
    · exact ih
    · rename_i hany
      refine List.nodup_cons.mpr ⟨?_, ih⟩
      rintro hmem
      obtain ⟨e, he, hid⟩ := List.mem_map.mp hmem
      refine hany (List.any_eq_true.mpr ⟨e, mem_of_mem_survivors rest e he, ?_⟩)
      exact decide_eq_true hid

theorem mem_placeAll (new items : List α) (h : (items.map Keyed.id).Nodup) (x : α) :
    x ∈ placeAll new items ↔
      x ∈ survivors new ∨ (x ∈ items ∧ ∀ e ∈ new, Keyed.id e ≠ Keyed.id x) := by
  induction new generalizing items with
  | nil => simp [placeAll, survivors]
  | cons item rest ih =>
    change x ∈ placeAll rest (place item items) ↔ _
    rw [ih _ (place_nodup item items h), mem_place item items h]
    by_cases hany : rest.any fun e => Keyed.id e = Keyed.id item
    · obtain ⟨e, he, hid⟩ := List.any_eq_true.mp hany
      have hid : Keyed.id e = Keyed.id item := of_decide_eq_true hid
      rw [survivors, if_pos hany]
      constructor
      · rintro (hx | ⟨rfl | ⟨hx, hne⟩, hrest⟩)
        · exact Or.inl hx
        · exact absurd hid (hrest e he)
        · exact Or.inr ⟨hx,List.forall_mem_cons.mpr ⟨hne.symm,hrest⟩⟩
      · rintro (hx | ⟨hx, hall⟩)
        · exact Or.inl hx
        · obtain ⟨hne, hrest⟩ := List.forall_mem_cons.mp hall
          exact Or.inr ⟨Or.inr ⟨hx,hne.symm⟩,hrest⟩
    · have hlast : ∀ e ∈ rest, Keyed.id e ≠ Keyed.id item := by
        intro e he hid
        exact hany (List.any_eq_true.mpr ⟨e,he,decide_eq_true hid⟩)
      rw [survivors, if_neg hany, List.mem_cons]
      constructor
      · rintro (hx | ⟨rfl | ⟨hx, hne⟩, hrest⟩)
        · exact Or.inl (Or.inr hx)
        · exact Or.inl (Or.inl rfl)
        · exact Or.inr ⟨hx,List.forall_mem_cons.mpr ⟨hne.symm,hrest⟩⟩
      · rintro ((rfl | hx) | ⟨hx, hall⟩)
        · exact Or.inr ⟨Or.inl rfl,hlast⟩
        · exact Or.inl hx
        · obtain ⟨hne, hrest⟩ := List.forall_mem_cons.mp hall
          exact Or.inr ⟨Or.inr ⟨hx,hne.symm⟩,hrest⟩

/-- No two records that a batch leaves behind share a key. -/
def Coherent (new : List α) : Prop := ((survivors new).map Keyed.key).Nodup

theorem placeAll_distinct_iff (new items : List α) (h : Distinct items)
    (hc : ∀ item ∈ new, conflicts items item = false) :
    Distinct (placeAll new items) ↔ Coherent new := by
  have hids := placeAll_nodup new items h.ids
  have hmem := mem_placeAll new items h.ids
  constructor
  · intro hd
    refine (nodup_keys_iff _ (survivors_nodup new)).mpr ?_
    intro a ha b hb
    exact (nodup_keys_iff _ hids).mp hd.keys a ((hmem a).mpr (Or.inl ha)) b
      ((hmem b).mpr (Or.inl hb))
  · intro hnew
    have hnew := (nodup_keys_iff _ (survivors_nodup new)).mp hnew
    have hold := (nodup_keys_iff items h.ids).mp h.keys
    -- a stored record that stays has none of the batch's keys
    have hcross : ∀ a ∈ survivors new, ∀ b ∈ items, Keyed.key b = Keyed.key a →
        Keyed.id b = Keyed.id a := by
      intro a ha b hb hab
      exact (conflicts_eq_false_iff items a).mp (hc a (mem_of_mem_survivors new a ha)) b hb hab
    refine ⟨hids, (nodup_keys_iff _ hids).mpr ?_⟩
    intro a ha b hb hab
    rcases (hmem a).mp ha with ha | ⟨ha, -⟩
    · rcases (hmem b).mp hb with hb | ⟨hb, -⟩
      · exact hnew a ha b hb hab
      · exact (hcross a ha b hb hab.symm).symm
    · rcases (hmem b).mp hb with hb | ⟨hb, -⟩
      · exact hcross b hb a ha hab
      · exact hold a ha b hb hab

/-- Every batch is either refused as a whole or written as a whole. -/
theorem putAll_cases (items new : List α) :
    (∃ item ∈ new, conflicts items item = true ∧ putAll items new = (.error (taken item), items)) ∨
      (∀ item ∈ new, conflicts items item = false) ∧
        putAll items new = (.ok new, placeAll new items) := by
  unfold putAll
  cases hf : new.find? fun item => conflicts items item with
  | some item => exact Or.inl ⟨item,List.mem_of_find?_eq_some hf,List.find?_some hf,rfl⟩
  | none =>
    right
    refine ⟨?_, rfl⟩
    intro item hi
    exact eq_false_of_ne_true (List.find?_eq_none.mp hf item hi)

/-! ## One call -/

theorem get_ok (items : List α) (id : String) (a : α) (h : get items id = .ok a) :
    a ∈ items ∧ Keyed.id a = id := by
  unfold get at h
  cases hf : items.find? fun e => decide (Keyed.id e = id) with
  | none =>
    rw [hf] at h
    cases h
  | some e =>
    rw [hf] at h
    cases h
    have hid := List.find?_some hf
    exact ⟨List.mem_of_find?_eq_some hf,of_decide_eq_true hid⟩

theorem add_cases (items : List α) (item : α) (ensureUnique : Bool) :
    (∃ e, existing? items item = some e ∧ add items item ensureUnique =
        (if ensureUnique then .error (taken item) else .ok e, items)) ∨
      existing? items item = none ∧ add items item ensureUnique = (.ok item, items ++ [item]) := by
  unfold add
  cases existing? items item with
  | some e => exact Or.inl ⟨e,rfl,by cases ensureUnique <;> rfl⟩
  | none => exact Or.inr ⟨rfl,rfl⟩

theorem append_eq_place (items : List α) (item : α) (h : existing? items item = none) :
    items ++ [item] = place item items := by
  have hne := (existing_eq_none_iff items item).mp h
  exact (place_of_forall_ne item items fun e he => (hne e he).1).symm

theorem conflicts_of_existing_eq_none (items : List α) (item : α)
    (h : existing? items item = none) : conflicts items item = false := by
  refine (conflicts_eq_false_iff items item).mpr ?_
  intro e he hk
  exact absurd hk ((existing_eq_none_iff items item).mp h e he).2

theorem put_cases (items : List α) (item : α) :
    conflicts items item = true ∧ put items item = (.error (taken item), items) ∨
      conflicts items item = false ∧ put items item = (.ok item, place item items) := by
  unfold put
  cases conflicts items item with
  | true => exact Or.inl ⟨rfl,rfl⟩
  | false => exact Or.inr ⟨rfl,rfl⟩

theorem delete_records (items : List α) (id : String) :
    (delete items id).2 = items.filter fun e => Keyed.id e ≠ id := by
  unfold delete
  dsimp only
  split
  · rename_i hlen
    exact (List.filter_eq_self.mpr (List.length_filter_eq_length_iff.mp hlen)).symm
  · rfl

theorem run_nodup (items : List α) (c : Call α) (h : (items.map Keyed.id).Nodup) :
    ((run items c).2.map Keyed.id).Nodup := by
  cases c with
  | getAll => exact h
  | get id => exact h
  | add item ensureUnique =>
    rcases add_cases items item ensureUnique with ⟨e, -, he⟩ | ⟨he, ha⟩
    · simpa only [run, he] using h
    · simp only [run, ha, append_eq_place items item he]
      exact place_nodup item items h
  | put item =>
    rcases put_cases items item with ⟨-, hp⟩ | ⟨-, hp⟩
    · simpa only [run, hp] using h
    · simpa only [run, hp] using place_nodup item items h
  | putAll new =>
    rcases putAll_cases items new with ⟨_, -, -, hp⟩ | ⟨-, hp⟩
    · simpa only [run, hp] using h
    · simpa only [run, hp] using placeAll_nodup new items h
  | delete id =>
    simp only [run, delete_records]
    exact (List.Sublist.map Keyed.id List.filter_sublist).nodup h

theorem delete_distinct (items : List α) (id : String) (h : Distinct items) :
    Distinct (delete items id).2 := by
  rw [delete_records]
  exact ⟨(List.Sublist.map Keyed.id List.filter_sublist).nodup h.ids,
    (List.Sublist.map Keyed.key List.filter_sublist).nodup h.keys⟩

/-- Every call keeps the records distinct, unless it writes a batch that is not coherent. -/
theorem run_distinct (items : List α) (c : Call α) (h : Distinct items)
    (hb : ∀ new, c = .putAll new → (putAll items new).1 = .ok new → Coherent new) :
    Distinct (run items c).2 := by
  cases c with
  | getAll => exact h
  | get id => exact h
  | add item ensureUnique =>
    rcases add_cases items item ensureUnique with ⟨e, -, he⟩ | ⟨he, ha⟩
    · simpa only [run, he] using h
    · simp only [run, ha, append_eq_place items item he]
      exact place_distinct item items h (conflicts_of_existing_eq_none items item he)
  | put item =>
    rcases put_cases items item with ⟨-, hp⟩ | ⟨hc, hp⟩
    · simpa only [run, hp] using h
    · simpa only [run, hp] using place_distinct item items h hc
  | putAll new =>
    rcases putAll_cases items new with ⟨_, -, -, hp⟩ | ⟨hc, hp⟩
    · simpa only [run, hp] using h
    · have hnew : Coherent new := hb new rfl (by rw [hp])
      simpa only [run, hp] using (placeAll_distinct_iff new items h hc).mpr hnew
  | delete id => exact delete_distinct items id h

/-! ## All calls of a run -/

/-- The records after a run of calls. -/
def after (items : List α) (calls : List (Call α)) : List α :=
  calls.foldl (fun items c => (run items c).2) items

theorem after_concat (items : List α) (calls : List (Call α)) (c : Call α) :
    after items (calls ++ [c]) = (run (after items calls) c).2 := by
  simp only [after, List.foldl_append, List.foldl_cons, List.foldl_nil]

theorem after_nodup (items : List α) (calls : List (Call α)) (h : (items.map Keyed.id).Nodup) :
    ((after items calls).map Keyed.id).Nodup := by
  induction calls generalizing items with
  | nil => exact h
  | cons c calls ih => exact ih _ (run_nodup items c h)

theorem after_distinct (calls : List (Call α))
    (hb : ∀ before new, before ++ [.putAll new] <+: calls →
      (putAll (after [] before) new).1 = .ok new → Coherent new) :
    Distinct (after [] calls) := by
  induction calls using List.reverseRecOn with
  | nil => exact distinct_nil
  | append_singleton calls c ih =>
    rw [after_concat]
    have hcalls : Distinct (after [] calls) := by
      apply ih
      intro before new hpre
      exact hb before new (hpre.trans (List.prefix_append calls [c]))
    apply run_distinct _ _ hcalls
    rintro new rfl hok
    exact hb calls new (List.prefix_refl _) hok

/-- In every state that a run from no records reaches, ids are distinct. So are keys in all of
them, exactly when every batch that the run got accepted was coherent. -/
theorem reached_distinct_iff (calls : List (Call α)) :
    (∀ before, before <+: calls → ((after [] before).map Keyed.id).Nodup) ∧
      ((∀ before, before <+: calls → Distinct (after [] before)) ↔
        ∀ before new, before ++ [.putAll new] <+: calls →
          (putAll (after [] before) new).1 = .ok new → Coherent new) := by
  refine ⟨fun before _ => after_nodup [] before List.nodup_nil, ?_, ?_⟩
  · intro hd before new hpre hok
    have hbefore := hd before ((List.prefix_append before [.putAll new]).trans hpre)
    have hafter := hd _ hpre
    rw [after_concat] at hafter
    rcases putAll_cases (after [] before) new with ⟨_, -, -, hp⟩ | ⟨hc, hp⟩
    · rw [hp] at hok
      cases hok
    · simp only [run, hp] at hafter
      exact (placeAll_distinct_iff new _ hbefore hc).mp hafter
  · intro hb before hpre
    apply after_distinct before
    intro earlier new hearlier
    exact hb earlier new (hearlier.trans hpre)

/-- A batch with two new accounts of one username is accepted by an empty store. -/
theorem batch_shares_username :
    ¬ Distinct (after [] [Call.putAll
      [(⟨"USER:1", "alice", "Alice", "A", "h", "s", .user⟩ : Account),
        ⟨"USER:2", "alice", "Alice", "B", "h", "s", .user⟩]]) := by
  intro h
  exact absurd h.keys (by decide)

end VmFleet.Store.Memory
