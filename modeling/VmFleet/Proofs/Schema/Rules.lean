import Mathlib.Data.List.Forall2
import VmFleet.Proofs.Schema.Migrations

/-!
# What opening does not look at

A database does not report by which rules its tables keep columns unique, and nothing compares them.
On two databases that differ in these rules alone the opening goes the same way.
-/

set_option autoImplicit false

namespace VmFleet.Schema

variable {α β : Type}

def Table.SameButRules (t u : Table) : Prop :=
  ∃ unique, u = { t with unique }

structure Database.SameButRules (d e : Database) : Prop where
  version : e.userVersion = d.userVersion
  tables : List.Forall₂ Table.SameButRules d.tables e.tables

namespace Database.SameButRules

variable {d e : Database}

theorem setVersion (h : d.SameButRules e) (n : Int) :
    (d.setVersion n).SameButRules (e.setVersion n) := ⟨rfl, h.tables⟩

theorem table? (h : d.SameButRules e) (name : String) :
    Option.Rel Table.SameButRules (d.table? name) (e.table? name) := by
  unfold Database.table?
  have ht := h.tables
  generalize d.tables = ts, e.tables = us at ht
  induction ht with
  | nil => exact .none
  | cons htu _ ih =>
    obtain ⟨unique, rfl⟩ := htu
    simp only [List.find?_cons]
    split
    · exact .some ⟨unique,rfl⟩
    · exact ih

theorem table_isSome (h : d.SameButRules e) (name : String) :
    (e.table? name).isSome = (d.table? name).isSome := by
  have ht := h.table? name
  generalize d.table? name = t, e.table? name = u at ht
  cases ht <;> rfl

theorem any_tables (h : d.SameButRules e) (p : Table → Bool)
    (hp : ∀ t unique, p { t with unique } = p t) : e.tables.any p = d.tables.any p := by
  have ht := h.tables
  generalize d.tables = ts, e.tables = us at ht
  induction ht with
  | nil => rfl
  | cons htu _ ih =>
    obtain ⟨unique, rfl⟩ := htu
    simp only [List.any_cons, hp, ih]

theorem hasIndex (h : d.SameButRules e) (name : String) : e.hasIndex name = d.hasIndex name :=
  h.any_tables _ fun _ _ => rfl

theorem describe (h : d.SameButRules e) (text : String) : e.describe text = d.describe text := by
  have hcolumns : ∀ name, e.columnsOf name = d.columnsOf name := by
    intro name
    unfold columnsOf
    have ht := h.table? name
    generalize d.table? name = t, e.table? name = u at ht
    cases ht with
    | none => rfl
    | some htu =>
      obtain ⟨unique, rfl⟩ := htu
      rfl
  simp only [Database.describe, hcolumns]

/-! ## Statements -/

theorem createTable (h : d.SameButRules e) (t : Sql.TableDef) :
    Option.Rel Database.SameButRules (d.createTable t) (e.createTable t) := by
  unfold Database.createTable
  dsimp only
  rw [h.table_isSome, h.hasIndex]
  split
  · exact .none
  · split
    · exact .none
    · cases Table.ofDef? t with
      | none => exact .none
      | some table => exact .some h
    · split
      · split
        · exact .some h
        · exact .none
      · split
        · exact .none
        · cases Table.ofDef? t with
          | none => exact .none
          | some table =>
            refine .some ⟨h.version, ?_⟩
            exact List.rel_append h.tables (.cons ⟨table.unique,rfl⟩ .nil)

theorem map_tables (h : d.SameButRules e) (f g : Table → Table)
    (hf : ∀ t unique, Table.SameButRules (f t) (g { t with unique })) :
    SameButRules { d with tables := d.tables.map f } { e with tables := e.tables.map g } := by
  refine ⟨h.version, ?_⟩
  rw [List.forall₂_map_left_iff, List.forall₂_map_right_iff]
  refine h.tables.imp ?_
  rintro t _ ⟨unique, rfl⟩
  exact hf t unique

theorem addIndex (h : d.SameButRules e) (t : Table) (unique : List UniqueIndex) (name : String) :
    (d.addIndex t name).SameButRules (e.addIndex { t with unique } name) := by
  refine h.map_tables _ _ ?_
  intro v rules
  dsimp only
  split <;> exact ⟨rules,rfl⟩

theorem createIndex (h : d.SameButRules e) (i : Sql.IndexDef) :
    Option.Rel Database.SameButRules (d.createIndex i) (e.createIndex i) := by
  unfold Database.createIndex
  dsimp only
  have ht := h.table? i.table
  rw [h.table_isSome, h.hasIndex]
  generalize d.table? i.table = t, e.table? i.table = u at ht
  cases ht with
  | none => exact .none
  | @some t _ htu =>
    obtain ⟨unique, rfl⟩ := htu
    have hcan : Table.canIndex { t with unique } = t.canIndex := rfl
    have hscope : Table.scope { t with unique } = t.scope := rfl
    simp only [Option.bind_eq_bind, Option.bind_some, hcan, hscope]
    split
    · exact .none
    · split
      · split
        · exact .some h
        · exact .none
      · split
        · exact .some (h.addIndex t unique _)
        · exact .none

theorem dropTable (h : d.SameButRules e) (path : Sql.Path) (ifThere : Bool) :
    Option.Rel Database.SameButRules (d.dropTable path ifThere) (e.dropTable path ifThere) := by
  unfold Database.dropTable
  rw [h.table_isSome]
  split
  · exact .none
  · split
    · refine .some ⟨h.version, ?_⟩
      refine List.rel_filter ?_ h.tables
      rintro t _ ⟨unique, rfl⟩
      rfl
    · split
      · exact .some h
      · exact .none

/-- Dropping an index is left out: those that come with a rule cannot be dropped. -/
theorem execute (h : d.SameButRules e) (s : Sql.Statement)
    (hs : ∀ path ifThere, s ≠ .dropIndex path ifThere) :
    Option.Rel Database.SameButRules (d.execute s) (e.execute s) := by
  cases s with
  | createTable t => exact h.createTable t
  | createIndex i => exact h.createIndex i
  | dropTable path ifThere => exact h.dropTable path ifThere
  | dropIndex path ifThere => exact absurd rfl (hs path ifThere)
  | describeTable name => exact .some h
  | insert path columns => exact .none

end Database.SameButRules

/-! ## Checks -/

/-- A name that no index of a rule can have. -/
def isGiven (name : String) : Bool := name.toList.head? ≠ some 's'

theorem uniqueNames_head (t : Table) (name : String) (h : name ∈ t.uniqueNames) :
    name.toList.head? = some 's' := by
  obtain ⟨u, -, rfl⟩ := List.mem_map.mp h
  simp only [String.toList_append, List.append_assoc]
  rfl

theorem tableHasIndex_given (d : Database) (table name : String) (h : isGiven name = true) :
    d.tableHasIndex table name = d.tables.any fun t => t.name = table && t.indices.contains name := by
  have hnone : ∀ t : Table, t.uniqueNames.contains name = false := by
    intro t
    rw [List.contains_eq_mem, decide_eq_false_iff_not]
    intro hmem
    simp [isGiven, uniqueNames_head t name hmem] at h
  simp only [Database.tableHasIndex, hnone, Bool.or_false]

variable {d e : Database}

theorem checkIndices_rules (h : d.SameButRules e) (table : String)
    (indices : List (String × String)) (hi : ∀ i ∈ indices, isGiven i.1 = true) :
    checkIndices e table indices = checkIndices d table indices := by
  induction indices with
  | nil => rfl
  | cons i rest ih =>
    have hfirst : e.tableHasIndex table i.1 = d.tableHasIndex table i.1 := by
      rw [tableHasIndex_given e table i.1 (hi i (by simp)),
        tableHasIndex_given d table i.1 (hi i (by simp))]
      exact h.any_tables _ fun _ _ => rfl
    rw [checkIndices, checkIndices, hfirst, ih fun j hj => hi j (by simp [hj])]

theorem validateTables_rules (h : d.SameButRules e) (tables : List TableSpec)
    (hi : ∀ t ∈ tables, ∀ i ∈ t.indices, isGiven i.1 = true) :
    validateTables tables e = validateTables tables d := by
  induction tables with
  | nil => rfl
  | cons t rest ih =>
    have hfirst : t.validate e = t.validate d := by
      simp only [TableSpec.validate, h.describe,
        checkIndices_rules h t.name t.indices (hi t (by simp))]
    rw [validateTables, validateTables, hfirst, ih fun u hu => hi u (by simp [hu])]

/-! ## Actions -/

/-- The action ends the same way on databases that differ in their rules alone, and they still
differ in these alone afterwards. -/
def Blind (a : Action α) : Prop :=
  ∀ d e : Database, d.SameButRules e →
    (a.on e).1 = (a.on d).1 ∧ (a.on d).2.SameButRules (a.on e).2

theorem blind_pure (x : α) : Blind (pure x : Action α) := fun _ _ h => ⟨rfl,h⟩

theorem blind_bind (a : Action α) (f : α → Action β) (ha : Blind a)
    (hf : ∀ x d d', a.on d = (.ok x, d') → Blind (f x)) : Blind (a >>= f) := by
  intro d e h
  obtain ⟨hr, hde⟩ := ha d e h
  rcases hd : a.on d with ⟨r, d'⟩
  rcases he : a.on e with ⟨r', e'⟩
  rw [hd, he] at hr hde
  obtain rfl : r' = r := hr
  rw [on_bind, on_bind, hd, he]
  cases r' with
  | ok x => exact hf x d d' hd d' e' hde
  | error err => exact ⟨rfl,hde⟩

theorem blind_statement (change : Database → Option Database)
    (hc : ∀ d e : Database, d.SameButRules e →
      Option.Rel Database.SameButRules (change d) (change e)) : Blind (statement change) := by
  intro d e h
  have hrel := hc d e h
  rcases hd : change d with _ | d' <;> rcases he : change e with _ | e' <;> rw [hd, he] at hrel
  · rw [statement_fails change d hd, statement_fails change e he]
    exact ⟨rfl,h⟩
  · cases hrel
  · cases hrel
  · rw [statement_on change d d' hd, statement_on change e e' he]
    cases hrel with
    | some hde => exact ⟨rfl,hde⟩

theorem blind_execute (text : String)
    (ht : ∀ path ifThere, Sql.Statement.ofText? text ≠ some (.dropIndex path ifThere)) :
    Blind (execute text) := by
  apply blind_statement
  intro d e h
  unfold Database.run
  cases hs : Sql.Statement.ofText? text with
  | none => exact .none
  | some s =>
    refine h.execute s ?_
    rintro path ifThere rfl
    exact ht path ifThere hs

theorem blind_validate (s : VersionedSchema)
    (hi : ∀ t ∈ s.tables, ∀ i ∈ t.indices, isGiven i.1 = true) : Blind s.validate := by
  intro d e h
  rw [validate_on, validate_on, validateTables_rules h s.tables hi]
  exact ⟨rfl,h⟩

theorem blind_storedVersion (count : Nat) : Blind (storedVersion count) := by
  intro d e h
  unfold storedVersion
  rw [on_bind, on_bind, on_get, on_get]
  dsimp only
  rw [h.version]
  by_cases hlow : d.userVersion - baseVersion < 0
  · rw [if_pos hlow]
    exact ⟨rfl,h⟩
  · rw [if_neg hlow]
    by_cases hhigh : count ≤ (d.userVersion - baseVersion).toNat
    · rw [if_pos hhigh]
      exact ⟨rfl,h⟩
    · rw [if_neg hhigh]
      exact ⟨rfl,h⟩

theorem blind_schemaAt (schemas : List VersionedSchema) (v : Nat) : Blind (schemaAt schemas v) := by
  intro d e h
  unfold schemaAt
  cases schemas[v]? with
  | none => exact ⟨rfl,h⟩
  | some s => exact ⟨rfl,h⟩

theorem blind_setUserVersion (v : Nat) : Blind (setUserVersion v) := by
  unfold setUserVersion
  split
  · exact blind_statement _ fun d e h => .some (h.setVersion _)
  · exact fun d e h => ⟨rfl,h⟩

theorem blind_migrate (current : Nat) (schemas : List VersionedSchema)
    (hm : ∀ s ∈ schemas, ∀ m, s.migration = some m → Blind m) : Blind (migrate current schemas) := by
  induction schemas generalizing current with
  | nil => exact blind_pure current
  | cons s rest ih =>
    have hrest := ih s.version fun t ht => hm t (by simp [ht])
    unfold migrate
    cases hs : s.migration with
    | none => exact blind_bind _ _ (blind_pure ()) fun _ _ _ _ => hrest
    | some m => exact blind_bind _ _ (hm s (by simp) m hs) fun _ _ _ _ => hrest

/-- Opening does not look at the rules, as long as the migrations do not. -/
theorem blind_upgrade (schemas : List VersionedSchema)
    (hm : ∀ s ∈ schemas, ∀ m, s.migration = some m → Blind m)
    (hi : ∀ s ∈ schemas, ∀ t ∈ s.tables, ∀ i ∈ t.indices, isGiven i.1 = true) :
    Blind (upgrade schemas) := by
  have hcheck : ∀ v, Blind (do (← schemaAt schemas v).validate) := by
    intro v
    refine blind_bind _ _ (blind_schemaAt schemas v) fun s d d' hs => ?_
    obtain ⟨hat, -⟩ := schemaAt_ok schemas v d d' s hs
    exact blind_validate s (hi s (List.mem_of_getElem? hat))
  have hmore : ∀ v, Blind (migrate v (schemas.drop (v + 1))) := fun v =>
    blind_migrate v _ fun s hs => hm s (List.mem_of_mem_drop hs)
  unfold upgrade
  refine blind_bind _ _ (blind_storedVersion _) fun v _ _ _ => ?_
  refine blind_bind _ _ (blind_schemaAt schemas v) fun s d d' hs => ?_
  obtain ⟨hat, -⟩ := schemaAt_ok schemas v d d' s hs
  refine blind_bind _ _ (blind_validate s (hi s (List.mem_of_getElem? hat))) fun _ _ _ _ => ?_
  refine blind_bind _ _ (hmore v) fun reached _ _ _ => ?_
  split
  · exact blind_pure ()
  · exact blind_bind _ _ (blind_setUserVersion reached) fun _ _ _ _ => hcheck reached

end VmFleet.Schema
