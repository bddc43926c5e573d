import VmFleet.Proofs.Schema.Parsing

/-!
# What a definition makes

The columns of a table come out as they were declared. At most one of them is the key, since a
second one is refused, and it is known by its name wherever the key is kept.
-/

set_option autoImplicit false

namespace VmFleet.Schema

open Sql
open Sql.Scope (sameName)

namespace Table

/-! ## The key of a table -/

/-- The column that is the key: it numbers the rows or has an index of its own. -/
def KeyedBy (t : Table) (k : Option String) : Prop :=
  (t.rowKey = k ∧ ∀ u ∈ t.unique, u.isKey = false) ∨
    (t.rowKey = none ∧ (∃ u ∈ t.unique, u.isKey = true) ∧ ∃ n, k = some n ∧
      ∀ u ∈ t.unique, u.isKey = true → u.columns = [(n, "binary")])

theorem keyedBy_none_of_not_hasKey (t : Table) (h : t.hasKey = false) :
    t.rowKey = none ∧ ∀ u ∈ t.unique, u.isKey = false := by
  simpa [hasKey] using h

theorem hasKey_of_keyedBy (t : Table) (k : Option String) (h : t.KeyedBy k) :
    t.hasKey = k.isSome := by
  rcases h with ⟨rfl, hall⟩ | ⟨hnone, ⟨u, hu, hkey⟩, n, rfl, -⟩
  · have hany : t.unique.any UniqueIndex.isKey = false := by simpa using hall
    rw [hasKey, hany, Bool.or_false]
  · have hany : t.unique.any UniqueIndex.isKey = true := List.any_eq_true.2 ⟨u, hu, hkey⟩
    rw [hasKey, hany, Bool.or_true]
    rfl

theorem placeInKey_of_keyedBy (t : Table) (k : Option String) (h : t.KeyedBy k) (n : String) :
    t.placeInKey n = 1 ↔ k = some n := by
  rcases h with ⟨rfl, hall⟩ | ⟨hnone, ⟨u, hu, hkey⟩, m, rfl, hcolumns⟩
  · have hfind : t.unique.find? UniqueIndex.isKey = none :=
      List.find?_eq_none.2 (by simpa using hall)
    by_cases hrow : t.rowKey = some n
    · simp [placeInKey, hrow]
    · simp [placeInKey, hrow, hfind]
  · obtain ⟨v, hv⟩ : ∃ v, t.unique.find? UniqueIndex.isKey = some v :=
      Option.isSome_iff_exists.1 (List.find?_isSome.2 ⟨u, hu, hkey⟩)
    have hkeyed := hcolumns v (List.mem_of_find?_eq_some hv) (List.find?_some hv)
    by_cases hm : m = n
    · simp [placeInKey, hnone, hv, hkeyed, hm]
    · simp [placeInKey, hnone, hv, hkeyed, hm]

/-- What adding an index that keeps columns unique does to the keys among such indices. -/
structure AddsUnique (t : Table) (index : UniqueIndex) (t' : Table) : Prop where
  frame : t' = { t with unique := t'.unique }
  keys : ∀ u' ∈ t'.unique, u'.isKey = true →
    (index.isKey = true ∧ u'.columns = index.columns) ∨
      ∃ u ∈ t.unique, u.isKey = true ∧ u.columns = u'.columns
  kept : ∀ u ∈ t.unique, u.isKey = true → ∃ u' ∈ t'.unique, u'.isKey = true
  added : index.isKey = true → ∃ u' ∈ t'.unique, u'.isKey = true

theorem addUnique_adds (t t' : Table) (index : UniqueIndex) (h : t.addUnique index = some t') :
    AddsUnique t index t' := by
  unfold addUnique at h
  split at h
  · cases h
    refine ⟨rfl, fun u' hu' hkey => ?_, fun u hu hkey => ⟨u, List.mem_append_left _ hu, hkey⟩,
      fun hkey => ⟨index, by simp, hkey⟩⟩
    rcases List.mem_append.1 hu' with hu' | hu'
    · exact Or.inr ⟨u', hu', hkey, rfl⟩
    · obtain rfl := List.mem_singleton.1 hu'
      exact Or.inl ⟨hkey, rfl⟩
  · rename_i u hu
    split at h
    · cases h
    · cases h
      refine ⟨rfl, fun u' hu' hkey => ?_, fun v hv hkey => ?_, fun hkey => ?_⟩
      · obtain ⟨v, hv, rfl⟩ := List.mem_map.1 hu'
        split at hkey
        · rename_i hcolumns
          rw [if_pos hcolumns]
          rcases Bool.or_eq_true _ _ ▸ hkey with hkey | hkey
          · exact Or.inr ⟨v, hv, hkey, rfl⟩
          · exact Or.inl ⟨hkey, hcolumns⟩
        · rename_i hcolumns
          rw [if_neg hcolumns]
          exact Or.inr ⟨v, hv, hkey, rfl⟩
      · refine ⟨_, List.mem_map_of_mem hv, ?_⟩
        split
        · simp [hkey]
        · exact hkey
      · have hcolumns : u.columns = index.columns := by simpa using List.find?_some hu
        refine ⟨_, List.mem_map_of_mem (List.mem_of_find?_eq_some hu), ?_⟩
        simp [hcolumns, hkey]

theorem keyedBy_of_addsUnique (t t' : Table) (k : Option String) (index : UniqueIndex)
    (hindex : index.isKey = false) (h : t.KeyedBy k) (hadd : AddsUnique t index t') :
    t'.KeyedBy k := by
  have hrow : t'.rowKey = t.rowKey := by rw [hadd.frame]
  rcases h with ⟨rfl, hall⟩ | ⟨hnone, ⟨u, hu, hkey⟩, n, rfl, hcolumns⟩
  · refine Or.inl ⟨hrow, fun u' hu' => ?_⟩
    rw [Bool.eq_false_iff]
    intro hkey
    rcases hadd.keys u' hu' hkey with ⟨hbad, -⟩ | ⟨u, hu, hu', -⟩
    · simp [hindex] at hbad
    · simp [hall u hu] at hu'
  · refine Or.inr ⟨hrow.trans hnone, hadd.kept u hu hkey, n, rfl, fun u' hu' hkey' => ?_⟩
    rcases hadd.keys u' hu' hkey' with ⟨hbad, -⟩ | ⟨v, hv, hvkey, hsame⟩
    · simp [hindex] at hbad
    · rw [← hsame, hcolumns v hv hvkey]

theorem setKey_keyedBy (t t' : Table) (c : Column) (hc : c.isComputed = false)
    (h : t.setKey [(c, "binary")] false false none = some t') :
    t.hasKey = false ∧ t'.KeyedBy (some c.name) ∧
      t' = { t with rowKey := t'.rowKey, unique := t'.unique } := by
  unfold setKey at h
  split at h
  · cases h
  · rename_i hfree
    have hkey : t.hasKey = false := by simp_all
    obtain ⟨hnone, hall⟩ := keyedBy_none_of_not_hasKey t hkey
    refine ⟨hkey, ?_⟩
    simp only [Bool.false_and, Bool.false_eq_true, if_false, Bool.not_false, Bool.and_true] at h
    split at h
    · cases h
      exact ⟨Or.inl ⟨rfl, hall⟩, rfl⟩
    · have hadd := addUnique_adds t t' _ h
      have hrow : t'.rowKey = none := by rw [hadd.frame, hnone]
      refine ⟨Or.inr ⟨hrow, hadd.added rfl, c.name, rfl, fun u' hu' hu'key => ?_⟩, ?_⟩
      · rcases hadd.keys u' hu' hu'key with ⟨-, hcolumns⟩ | ⟨u, hu, hukey, -⟩
        · exact hcolumns
        · simp [hall u hu] at hukey
      · rw [hrow, hadd.frame, hnone]

/-! ## Rules of the last column -/

def declared (name type : String) (notNull : Bool) (default : Option String) : Column :=
  ⟨name, type, notNull, default, 0, "binary", false⟩

/-- A table whose last column is still being declared. -/
structure Growing (title : String) (old : List Column) (c : Column) (k : Option String)
    (t : Table) : Prop where
  columns : t.columns = old ++ [c]
  rows : t.hasRowNumbers = true
  title : t.name = title
  key : t.KeyedBy k

section Rules

variable {title : String} {old : List Column} {name type : String} {nn : Bool}
  {value : Option String} {k : Option String} {t t' : Table}
  (hfresh : ∀ c ∈ old, sameName c.name name = false)
  (hg : Growing title old (declared name type nn value) k t)
include hfresh hg

theorem Growing.column : t.column? name = some (declared name type nn value) := by
  rw [column?, hg.columns, List.find?_append, List.find?_eq_none.2 (by simpa using hfresh)]
  simp [declared, sameName]

theorem Growing.update (f : Column → Column) :
    (t.updateColumn name f).columns = old ++ [f (declared name type nn value)] := by
  have hold : old.map (fun c => if sameName c.name name then f c else c) = old := by
    refine (List.map_congr_left fun c hc => ?_).trans (List.map_id old)
    simp [hfresh c hc]
  rw [updateColumn, hg.columns, List.map_append, hold]
  simp [declared, sameName]

theorem Growing.primaryKey (h : t.addRule name (.primaryKey false false none) = some t') :
    k = none ∧ Growing title old (declared name type nn value) (some name) t' := by
  simp only [addRule, hg.column hfresh, Option.bind_eq_bind, Option.bind_some] at h
  obtain ⟨hfree, hkeyed, hframe⟩ := setKey_keyedBy t t' _ rfl h
  rw [hasKey_of_keyedBy t k hg.key] at hfree
  refine ⟨by simpa using hfree, ?_, ?_, ?_, hkeyed⟩
  · rw [hframe, hg.columns]
  · rw [hframe, hg.rows]
  · rw [hframe, hg.title]

theorem Growing.notNull (h : t.addRule name .notNull = some t') :
    Growing title old (declared name type true value) k t' := by
  simp only [addRule, hg.column hfresh, Option.bind_eq_bind, Option.bind_some,
    Option.some.injEq] at h
  subst h
  exact ⟨hg.update hfresh _, hg.rows, hg.title, hg.key⟩

theorem Growing.unique (h : t.addRule name (.unique none) = some t') :
    Growing title old (declared name type nn value) k t' := by
  simp only [addRule, hg.column hfresh, Option.bind_eq_bind, Option.bind_some] at h
  have hadd := addUnique_adds t t' _ h
  refine ⟨?_, ?_, ?_, keyedBy_of_addsUnique t t' k _ rfl hg.key hadd⟩
  · rw [hadd.frame, hg.columns]
  · rw [hadd.frame, hg.rows]
  · rw [hadd.frame, hg.title]

theorem Growing.default (text : String) (e : Expr)
    (h : t.addRule name (.default text e) = some t') :
    Growing title old (declared name type nn (some text)) k t' := by
  simp only [addRule, hg.column hfresh, Option.bind_eq_bind, Option.bind_some] at h
  split at h
  · cases h
    exact ⟨hg.update hfresh _, hg.rows, hg.title, hg.key⟩
  · cases h

end Rules

/-- The column that is reported, but for its place in the key. -/
def columnOf (c : ColumnSpec) : Column :=
  declared c.name c.type.name c.notNull (c.default.map reportedDefault)

theorem Growing.rules (title : String) (old : List Column) (c : ColumnSpec) (k : Option String)
    (ds : List ColumnRule) (hds : DefaultRules c.default ds) (t t' : Table)
    (hfresh : ∀ d ∈ old, sameName d.name c.name = false)
    (hg : Growing title old (declared c.name c.type.name false none) k t)
    (h : (flagRules c ++ ds).foldlM (addRule c.name) t = some t') :
    (c.primaryKey = true → k = none) ∧
      Growing title old (columnOf c) (if c.primaryKey then some c.name else k) t' := by
  simp only [flagRules, List.foldlM_append, Option.bind_eq_bind, Option.bind_eq_some_iff] at h
  -- One step for each flag, whether it is set or not, and the default last.
  obtain ⟨t₃, ⟨t₂, ⟨t₁, h₁, h₂⟩, h₃⟩, h₄⟩ := h
  have hkey : (c.primaryKey = true → k = none) ∧
      Growing title old (declared c.name c.type.name false none)
        (if c.primaryKey then some c.name else k) t₁ := by
    cases hpk : c.primaryKey with
    | false =>
      rw [hpk] at h₁
      cases h₁
      exact ⟨by simp, hg⟩
    | true =>
      rw [hpk] at h₁
      simp at h₁
      obtain ⟨hnone, hg₁⟩ := hg.primaryKey hfresh h₁
      exact ⟨fun _ => hnone, hg₁⟩
  refine ⟨hkey.1, ?_⟩
  have hg₂ : Growing title old (declared c.name c.type.name c.notNull none)
      (if c.primaryKey then some c.name else k) t₂ := by
    cases hnn : c.notNull with
    | false =>
      rw [hnn] at h₂
      cases h₂
      exact hkey.2
    | true =>
      rw [hnn] at h₂
      simp at h₂
      exact hkey.2.notNull hfresh h₂
  have hg₃ : Growing title old (declared c.name c.type.name c.notNull none)
      (if c.primaryKey then some c.name else k) t₃ := by
    cases hu : c.unique with
    | false =>
      rw [hu] at h₃
      cases h₃
      exact hg₂
    | true =>
      rw [hu] at h₃
      simp at h₃
      exact hg₂.unique hfresh h₃
  unfold columnOf
  cases hd : c.default with
  | none =>
    rw [hd] at hds
    cases hds
    cases h₄
    exact hg₃
  | some v =>
    rw [hd] at hds
    obtain ⟨e, rfl⟩ := hds
    simp at h₄
    exact hg₃.default hfresh _ e h₄

/-! ## Whole tables -/

/-- A table that has the columns declared so far. -/
structure Built (title : String) (cs : List ColumnSpec) (t : Table) : Prop where
  columns : t.columns = cs.map columnOf
  rows : t.hasRowNumbers = true
  title : t.name = title
  key : ∃ k, t.KeyedBy k ∧ (∀ n ∈ k, n ∈ cs.map ColumnSpec.name) ∧
    ∀ c ∈ cs, c.primaryKey = true ↔ k = some c.name

theorem Built.add (title : String) (cs : List ColumnSpec) (c : ColumnSpec) (t t' : Table)
    (hb : Built title cs t) (d : Sql.ColumnDef) (hd : Declares c d)
    (h : t.addColumn d = some t') : Built title (cs ++ [c]) t' := by
  obtain ⟨k, hkeyed, hknown, hkey⟩ := hb.key
  obtain ⟨ds, hrules, hds⟩ := hd.rules
  unfold addColumn at h
  split at h
  · cases h
  · rename_i hfree
    rw [hd.name, hd.type, hrules] at h
    have hfresh : ∀ e ∈ t.columns, sameName e.name c.name = false := by
      cases hcolumn : t.column? c.name with
      | none => simpa using List.find?_eq_none.1 hcolumn
      | some e => simp [hd.name, hcolumn] at hfree
    obtain ⟨hnone, hg⟩ := Growing.rules title t.columns c k ds hds
      { t with columns := t.columns ++ [declared c.name c.type.name false none] } t' hfresh
      ⟨rfl, hb.rows, hb.title, hkeyed⟩ h
    have hother (e : ColumnSpec) (he : e ∈ cs) : e.name ≠ c.name := fun hsame => by
      have hold := hfresh (columnOf e) (by rw [hb.columns]; exact List.mem_map_of_mem he)
      simp [columnOf, declared, hsame, sameName] at hold
    refine ⟨?_, hg.rows, hg.title, _, hg.key, ?_, ?_⟩
    · rw [hg.columns, hb.columns, List.map_append]
      rfl
    · intro n hn
      cases hpk : c.primaryKey with
      | true => simp_all
      | false => simpa using Or.inl (by simpa using hknown n (by simpa [hpk] using hn))
    · intro e he
      rcases List.mem_append.1 he with he | he
      · cases hpk : c.primaryKey with
        | true => simpa [hnone hpk, Ne.symm (hother e he)] using hkey e he
        | false => simpa [hpk] using hkey e he
      · obtain rfl := List.mem_singleton.1 he
        cases hpk : e.primaryKey with
        | true => simp
        | false =>
          simp only [Bool.false_eq_true, if_false, false_iff]
          intro hk
          obtain ⟨d, hd, hname⟩ := List.mem_map.1 (hknown e.name hk)
          exact hother d hd hname

theorem foldlM_built (title : String) (cs done : List ColumnSpec) (defs : List Sql.ColumnDef)
    (h : List.Forall₂ Declares cs defs) (t t' : Table) (hb : Built title done t)
    (hfold : defs.foldlM addColumn t = some t') : Built title (done ++ cs) t' := by
  induction h generalizing done t with
  | nil =>
    cases hfold
    rwa [List.append_nil]
  | @cons c d cs ds hd _ ih =>
    rw [List.foldlM_cons] at hfold
    obtain ⟨t₁, h₁, hrest⟩ := Option.bind_eq_some_iff.1 hfold
    have hbuilt := ih (done ++ [c]) t₁ (hb.add title done c t t₁ d hd h₁) hrest
    rwa [List.append_assoc] at hbuilt

/-- What is reported of a column that was declared. -/
structure Reports (c : ColumnSpec) (found : Column) : Prop where
  name : found.name = c.name
  type : found.type = c.type.name
  notNull : found.notNull = c.notNull
  default : found.default = c.default.map reportedDefault
  key : found.keyPlace = 1 ↔ c.primaryKey = true
  stored : found.isComputed = false

theorem ofDef_reports (title : String) (cs : List ColumnSpec) (defs : List Sql.ColumnDef)
    (hdefs : List.Forall₂ Declares cs defs) (t : Table)
    (h : ofDef? ⟨⟨none, title⟩, false, defs, [], true, false⟩ = some t) :
    t.name = title ∧ List.Forall₂ Reports cs t.columns := by
  unfold ofDef? at h
  obtain ⟨t₁, h₁, h⟩ := Option.bind_eq_some_iff.1 h
  obtain ⟨hcolumns, hrows, htitle, k, hkeyed, -, hkey⟩ :=
    foldlM_built title cs [] defs hdefs _ t₁
      ⟨rfl, rfl, rfl, none, Or.inl ⟨rfl, by simp⟩, by simp, by simp⟩ h₁
  simp only [List.foldlM_nil, Option.pure_def, Option.bind_eq_bind, Option.bind_some,
    settleStrictness, settleRowNumbers, hrows, Bool.not_false, if_true] at h
  split at h
  · cases h
    refine ⟨htitle, ?_⟩
    simp only [settleKey, hcolumns, List.nil_append, List.forall₂_map_right_iff,
      List.forall₂_same]
    intro c hc
    refine ⟨rfl, rfl, rfl, rfl, ?_, rfl⟩
    rw [hkey c (by simpa using hc)]
    exact placeInKey_of_keyedBy t₁ k hkeyed c.name
  · cases h

end Table

end VmFleet.Schema
