import VmFleet.Proofs.Results
import VmFleet.Proofs.Schema.Declared
import VmFleet.Proofs.Schema.Migrations

/-!
# Fresh schemas

Every statement of a creation leaves in place what the ones before it made, so that a check right
after the creation finds all tables, columns and indices. The defaults are what it stumbles over:
one pair of parentheses is taken off what was declared and off what is reported, and what is
reported has lost a pair already, and the blanks inside it.
-/

set_option autoImplicit false

namespace VmFleet.Schema

open Sql
open Sql.Scope (sameName)

/-! ## Defaults that survive -/

/-- What stands in the outer parentheses of a default, if there are any, has no blanks at its ends
and no parentheses that could be taken for outer ones. -/
def Survives (v : String) : Prop :=
  ∀ inner, v.toList = '(' :: (inner ++ [')']) →
    Solid inner ∧ ¬(inner.head? = some '(' ∧ inner.getLast? = some ')')

instance (v : String) : Decidable (Survives v) :=
  decidable_of_iff (v.toList = '(' :: (v.toList.tail.dropLast ++ [')']) →
      Solid v.toList.tail.dropLast ∧ ¬(v.toList.tail.dropLast.head? = some '(' ∧
        v.toList.tail.dropLast.getLast? = some ')'))
    ⟨fun h inner hv => by simpa [hv] using h, fun h => h _⟩

theorem strip_wrapped (v : String) (inner : List Char) (h : v.toList = '(' :: (inner ++ [')'])) :
    strip v = String.ofList inner := by
  simp [strip, h]

theorem strip_eq_self (cs : List Char) (h : ¬(cs.head? = some '(' ∧ cs.getLast? = some ')')) :
    strip (String.ofList cs) = String.ofList cs := by
  rw [strip, String.toList_ofList]
  split
  · rename_i t
    split
    · rename_i hlast
      refine absurd ⟨rfl, ?_⟩ h
      rw [List.getLast?_cons, hlast]
      rfl
    · rfl
  · rfl

theorem wrapped_of_ends (cs : List Char) (h : cs.head? = some '(' ∧ cs.getLast? = some ')') :
    ∃ inner, cs = '(' :: (inner ++ [')']) := by
  obtain ⟨t, rfl⟩ := List.head?_eq_some_iff.1 h.1
  obtain ⟨init, hinit⟩ := List.getLast?_eq_some_iff.1 h.2
  cases init with
  | nil => cases hinit
  | cons c init =>
    obtain ⟨rfl, rfl⟩ := List.cons.inj hinit
    exact ⟨init, rfl⟩

/-- The text of a default comes through both sides exactly when it survives. -/
theorem strip_reported_iff (v : String) (ts : List Tree) (h : WritesDefault v ts) :
    strip (reportedDefault v) = strip v ↔ Survives v := by
  rcases h.wrapped_or with ⟨inner, hv⟩ | hopen
  · have hreported : reportedDefault v = String.ofList (trimBlanks inner) := by
      simp only [reportedDefault, hv, List.dropLast_concat]
      rfl
    rw [hreported, strip_wrapped v inner hv]
    have hsurvives : Survives v ↔
        Solid inner ∧ ¬(inner.head? = some '(' ∧ inner.getLast? = some ')') := by
      constructor
      · exact fun hs => hs inner hv
      · intro hs other hother
        obtain rfl : inner = other := by simpa [hv] using hother
        exact hs
    rw [hsurvives]
    constructor
    · intro heq
      by_cases hends : (trimBlanks inner).head? = some '(' ∧ (trimBlanks inner).getLast? = some ')'
      · obtain ⟨t, ht⟩ := wrapped_of_ends _ hends
        have hlen := trimBlanks_length inner
        have hagain := strip_wrapped (String.ofList (trimBlanks inner)) t
          (by rw [String.toList_ofList, ht])
        rw [hagain, String.ofList_inj] at heq
        rw [ht, heq] at hlen
        simp only [List.length_cons, List.length_append, List.length_nil] at hlen
        omega
      · rw [strip_eq_self _ hends, String.ofList_inj] at heq
        rw [heq] at hends
        exact ⟨solid_of_trimBlanks inner heq, hends⟩
    · rintro ⟨hsolid, hends⟩
      rw [trimBlanks_solid inner hsolid, strip_eq_self inner hends]
  · rw [reportedDefault_eq v hopen]
    exact ⟨fun _ inner hv => absurd hv (hopen _), fun _ => rfl⟩

/-! ## What a check finds -/

/-- The table is there with its columns and at least these indices. -/
structure Holds (name : String) (columns : List ColumnSpec) (indices : List String)
    (d : Database) : Prop where
  free : Database.isCatalog name = false
  found : ∃ t, d.table? name = some t ∧ t.name = name ∧
    List.Forall₂ Table.Reports columns t.columns ∧ ∀ i ∈ indices, i ∈ t.indices

theorem Holds.append (name : String) (columns : List ColumnSpec) (indices : List String)
    (d : Database) (h : Holds name columns indices d) (t : Table) :
    Holds name columns indices { d with tables := d.tables ++ [t] } := by
  obtain ⟨hfree, u, hu, hrest⟩ := h
  refine ⟨hfree, u, ?_, hrest⟩
  rw [Database.table?] at hu ⊢
  rw [List.find?_append, hu]
  rfl

theorem table_addIndex (d : Database) (t : Table) (index name : String) :
    (d.addIndex t index).table? name =
      (d.table? name).map fun u => if u.name = t.name then u.withIndex index else u := by
  have hname : (fun u : Table => sameName (if u.name = t.name then u.withIndex index else u).name
      name) = fun u => sameName u.name name := by
    funext u
    split <;> rfl
  simp only [Database.table?, Database.addIndex, List.find?_map, Function.comp_def, hname]

theorem Holds.addIndex (name : String) (columns : List ColumnSpec) (indices : List String)
    (d : Database) (h : Holds name columns indices d) (t : Table) (index : String) :
    Holds name columns indices (d.addIndex t index) ∧
      (t.name = name → Holds name columns (index :: indices) (d.addIndex t index)) := by
  obtain ⟨hfree, u, hu, hname, hcolumns, hindices⟩ := h
  have hfound := table_addIndex d t index name
  rw [hu, Option.map_some] at hfound
  constructor
  · refine ⟨hfree, _, hfound, ?_⟩
    split
    · exact ⟨hname, hcolumns, fun i hi => List.mem_append_left _ (hindices i hi)⟩
    · exact ⟨hname, hcolumns, hindices⟩
  · intro ht
    refine ⟨hfree, _, hfound, ?_⟩
    rw [if_pos (hname.trans ht.symm)]
    refine ⟨hname, hcolumns, fun i hi => ?_⟩
    rcases List.mem_cons.1 hi with rfl | hi
    · simp [Table.withIndex]
    · exact List.mem_append_left _ (hindices i hi)

/-! ## Statements keep what holds -/

/-- What the creation of a table makes of a database, unless it leaves it alone. -/
theorem createTable_cases (d e : Database) (t : Sql.TableDef) (h : d.createTable t = some e) :
    (e = d ∧ (t.ifMissing = true ∨ Database.placeOf t.path = .temporary)) ∨
      (Database.isReserved t.path.name = false ∧ d.table? t.path.name = none ∧
        ∃ table, Table.ofDef? t = some table ∧ e = { d with tables := d.tables ++ [table] }) := by
  unfold Database.createTable at h
  dsimp only at h
  split at h
  · cases h
  · rename_i hreserved
    split at h
    · cases h
    · rename_i hplace
      obtain ⟨_, -, rfl⟩ := Option.map_eq_some_iff.1 h
      exact Or.inl ⟨rfl, Or.inr hplace⟩
    · split at h
      · split at h
        · rename_i hmissing
          cases h
          exact Or.inl ⟨rfl, Or.inl hmissing⟩
        · cases h
      · rename_i hfree
        split at h
        · cases h
        · obtain ⟨table, htable, rfl⟩ := Option.map_eq_some_iff.1 h
          exact Or.inr ⟨by simpa using hreserved, by simpa using hfree, table, htable, rfl⟩

theorem createIndex_cases (d e : Database) (i : Sql.IndexDef) (h : d.createIndex i = some e) :
    (e = d ∧ i.ifMissing = true) ∨
      ∃ t, d.table? i.table = some t ∧ e = d.addIndex t i.path.name := by
  unfold Database.createIndex at h
  obtain ⟨t, ht, h⟩ := Option.bind_eq_some_iff.1 h
  split at h
  · cases h
  · split at h
    · split at h
      · rename_i hmissing
        cases h
        exact Or.inl ⟨rfl, hmissing⟩
      · cases h
    · split at h
      · cases h
        exact Or.inr ⟨t, ht, rfl⟩
      · cases h

theorem isReserved_of_isCatalog (name : String) (h : Database.isCatalog name = true) :
    Database.isReserved name = true := by
  have hall : ∀ n ∈ Database.catalogs, n.startsWith "sqlite_" = true := by decide +kernel
  exact hall _ (by simpa [Database.isCatalog] using h)

section Kept

variable {name : String} {columns : List ColumnSpec} {indices : List String} {d e : Database}

theorem Holds.createTable (h : Holds name columns indices d) (t : Sql.TableDef)
    (hrun : d.createTable t = some e) : Holds name columns indices e := by
  rcases createTable_cases d e t hrun with ⟨rfl, -⟩ | ⟨-, -, table, -, rfl⟩
  · exact h
  · exact h.append name columns indices d table

theorem Holds.createIndex (h : Holds name columns indices d) (i : Sql.IndexDef)
    (hrun : d.createIndex i = some e) : Holds name columns indices e := by
  rcases createIndex_cases d e i hrun with ⟨rfl, -⟩ | ⟨t, -, rfl⟩
  · exact h
  · exact (h.addIndex name columns indices d t i.path.name).1

theorem holds_of_createTable (defs : List Sql.ColumnDef)
    (hdefs : List.Forall₂ Declares columns defs)
    (hrun : d.createTable ⟨⟨none, name⟩, false, defs, [], true, false⟩ = some e) :
    Holds name columns [] e := by
  rcases createTable_cases d e _ hrun with ⟨-, hbad | hbad⟩ | ⟨hreserved, hfree, t, ht, rfl⟩
  · cases hbad
  · cases hbad
  · obtain ⟨hname, hcolumns⟩ := Table.ofDef_reports name columns defs hdefs t ht
    refine ⟨?_, t, ?_, hname, hcolumns, by simp⟩
    · cases hcatalog : Database.isCatalog name with
      | false => rfl
      | true => simp [isReserved_of_isCatalog name hcatalog] at hreserved
    · rw [Database.table?] at hfree ⊢
      rw [List.find?_append, hfree]
      simp [hname, sameName]

theorem holds_of_createIndex (h : Holds name columns indices d) (index : String)
    (terms : List Term)
    (hrun : d.createIndex ⟨⟨none, index⟩, false, name, terms, none⟩ = some e) :
    Holds name columns (index :: indices) e := by
  rcases createIndex_cases d e _ hrun with ⟨-, hbad⟩ | ⟨t, ht, rfl⟩
  · cases hbad
  · obtain ⟨u, hu, hname, -⟩ := h.found
    obtain rfl : u = t := Option.some.inj (hu.symm.trans ht)
    exact (h.addIndex name columns indices d u index).2 hname

end Kept

/-! ## Running the statements of a schema -/

theorem run_ok (text : String) (d e : Database) (h : (execute text).on d = (.ok (), e)) :
    ∃ st, Statement.ofText? text = some st ∧ d.execute st = some e := by
  cases hrun : d.run text with
  | none =>
    rw [execute, statement_fails (fun d => d.run text) d hrun] at h
    cases h
  | some d' =>
    rw [execute, statement_on (fun d => d.run text) d d' hrun] at h
    cases h
    exact Option.bind_eq_some_iff.1 hrun

/-- The indices of a table are added to what holds of it, and nothing is lost of other tables. -/
theorem createIndices_holds (name : String) (hname : IsPlain name)
    (indices : List (String × String)) (hplain : ∀ i ∈ indices, IsPlain i.1 ∧ IsPlain i.2)
    (d e : Database) (h : (createIndices name indices).on d = (.ok (), e)) :
    (∀ columns done, Holds name columns done d →
        Holds name columns ((indices.map Prod.fst).reverse ++ done) e) ∧
      ∀ other columns held, Holds other columns held d → Holds other columns held e := by
  induction indices generalizing d with
  | nil =>
    cases h
    exact ⟨fun _ _ hd => hd, fun _ _ _ hd => hd⟩
  | cons i rest ih =>
    obtain ⟨_, d', hfirst, hrest⟩ := on_bind_ok _ _ _ _ _ h
    obtain ⟨hi, hc⟩ := hplain i (by simp)
    obtain ⟨st, hst, hexec⟩ := run_ok _ d d' hfirst
    obtain ⟨terms, rfl⟩ := index_statement name i.1 i.2 hname hi hc st hst
    obtain ⟨hadds, hkeeps⟩ := ih (fun j hj => hplain j (by simp [hj])) d' hrest
    constructor
    · intro columns done hd
      simpa using hadds columns _ (holds_of_createIndex hd i.1 terms hexec)
    · intro other columns held hd
      exact hkeeps other columns held (hd.createIndex _ hexec)

/-- The table is there with all that its description asks for. -/
def Stands (t : TableSpec) (d : Database) : Prop :=
  Holds t.name t.columns (t.indices.map Prod.fst).reverse d

theorem create_stands (t : TableSpec) (ht : PlainTable t) (d e : Database)
    (h : t.create.on d = (.ok (), e)) :
    Stands t e ∧ ∀ u, Stands u d → Stands u e := by
  obtain ⟨_, d', hfirst, hrest⟩ := on_bind_ok _ _ _ _ _ h
  obtain ⟨st, hst, hexec⟩ := run_ok _ d d' hfirst
  obtain ⟨defs, rfl, hdefs⟩ := table_statement t ht st hst
  obtain ⟨hadds, hkeeps⟩ := createIndices_holds t.name ht.name t.indices ht.indices d' e hrest
  constructor
  · simpa [Stands] using hadds t.columns [] (holds_of_createTable defs hdefs hexec)
  · intro u hu
    exact hkeeps _ _ _ (Holds.createTable hu _ hexec)

theorem createTables_stand (ts : List TableSpec) (hts : ∀ t ∈ ts, PlainTable t) (d e : Database)
    (h : (createTables ts).on d = (.ok (), e)) :
    (∀ t ∈ ts, Stands t e) ∧ ∀ u, Stands u d → Stands u e := by
  induction ts generalizing d with
  | nil =>
    cases h
    exact ⟨by simp, fun _ hu => hu⟩
  | cons t ts ih =>
    obtain ⟨_, d', hfirst, hrest⟩ := on_bind_ok _ _ _ _ _ h
    obtain ⟨hstands, hkeeps⟩ := create_stands t (hts t (by simp)) d d' hfirst
    obtain ⟨hall, hkeeps'⟩ := ih (fun u hu => hts u (by simp [hu])) d' hrest
    refine ⟨List.forall_mem_cons.2 ⟨hkeeps' t hstands, hall⟩, fun u hu => hkeeps' u (hkeeps u hu)⟩

/-! ## Checking what stands -/

theorem check_eq_ok_iff (b : Bool) (e : SchemaError) : check b e = .ok () ↔ b = true := by
  cases b <;> simp [check]

theorem checkColumn_iff (table : String) (c : ColumnSpec) (found : Column)
    (h : Table.Reports c found) (hc : PlainColumn c) :
    checkColumn table found c = .ok () ↔ ∀ v ∈ c.default, Survives v := by
  have hname : decide (found.name = c.name) = true := by simp [h.name]
  have hdefinition : (decide (ColumnType.ofName? found.type = some c.type) &&
      decide (found.notNull = c.notNull) &&
      decide ((found.keyPlace = 1 : Bool) = c.primaryKey)) = true := by
    have htype : ColumnType.ofName? c.type.name = some c.type := by cases c.type <;> rfl
    have hkey : (found.keyPlace = 1 : Bool) = c.primaryKey := by
      rw [Bool.eq_iff_iff, decide_eq_true_eq, h.key]
    simp [h.type, htype, h.notNull, hkey]
  simp only [checkColumn, then_eq_ok_iff, check_eq_ok_iff, hname, hdefinition, true_and,
    decide_eq_true_eq, h.default]
  cases hd : c.default with
  | none => simp
  | some v =>
    have hwritten := written_treesOf v (hc.default v hd)
    simpa using strip_reported_iff v _ hwritten

theorem checkColumns_iff (table : String) (cs : List ColumnSpec) (found : List Column)
    (h : List.Forall₂ Table.Reports cs found) (hcs : ∀ c ∈ cs, PlainColumn c) :
    checkColumns table found cs = .ok () ↔ ∀ c ∈ cs, ∀ v ∈ c.default, Survives v := by
  induction h with
  | nil => simp [checkColumns]
  | @cons c f cs fs hc _ ih =>
    rw [checkColumns, then_eq_ok_iff, checkColumn_iff table c f hc (hcs c (by simp)),
      ih fun d hd => hcs d (by simp [hd]), List.forall_mem_cons]

theorem checkIndices_ok (d : Database) (table : String) (indices : List (String × String))
    (h : ∀ i ∈ indices, d.tableHasIndex table i.1 = true) :
    checkIndices d table indices = .ok () := by
  induction indices with
  | nil => rfl
  | cons i rest ih =>
    rw [checkIndices, then_eq_ok_iff, check_eq_ok_iff]
    exact ⟨h i (by simp), ih fun j hj => h j (by simp [hj])⟩

theorem reports_of_mem (cs : List ColumnSpec) (found : List Column)
    (h : List.Forall₂ Table.Reports cs found) : ∀ f ∈ found, ∃ c, Table.Reports c f := by
  induction h with
  | nil => simp
  | cons hc _ ih => exact List.forall_mem_cons.2 ⟨⟨_, hc⟩, ih⟩

theorem validate_iff (t : TableSpec) (ht : PlainTable t) (d : Database) (h : Stands t d) :
    t.validate d = .ok () ↔ ∀ c ∈ t.columns, ∀ v ∈ c.default, Survives v := by
  obtain ⟨hfree, found, hfound, hname, hcolumns, hindices⟩ := h
  have hreports := reports_of_mem t.columns found.columns hcolumns
  have hstored : found.columns.filter (fun c => !c.isComputed) = found.columns := by
    refine List.filter_eq_self.2 fun f hf => ?_
    obtain ⟨c, hc⟩ := hreports f hf
    simp [hc.stored]
  have hdescribe : d.describe ("PRAGMA table_info(" ++ t.name ++ ");") = some found.columns := by
    rw [Database.describe, describe_statement t.name ht.name]
    simp only [Database.columnsOf, hfree, hfound, hstored, Bool.false_eq_true, if_false]
  have htypes : (found.columns.all fun c => (ColumnType.ofName? c.type).isSome) = true := by
    refine List.all_eq_true.2 fun f hf => ?_
    obtain ⟨c, hc⟩ := hreports f hf
    rw [hc.type]
    cases c.type <;> rfl
  have hlength : decide (found.columns.length = t.columns.length) = true := by
    simp [hcolumns.length_eq]
  have hindex : ∀ i ∈ t.indices, d.tableHasIndex t.name i.1 = true := by
    intro i hi
    have hmem : found ∈ d.tables := List.mem_of_find?_eq_some hfound
    have hfirst := hindices i.1 (by simpa using ⟨i.2, hi⟩)
    exact List.any_eq_true.2 ⟨found, hmem, by simp [hname, hfirst]⟩
  have hvalidate : t.validate d = (do
      check (found.columns.all fun c => (ColumnType.ofName? c.type).isSome)
        (.unreadableColumns t.name)
      check (found.columns.length = t.columns.length)
        (.columnCount t.name found.columns.length t.columns.length)
      checkColumns t.name found.columns t.columns
      checkIndices d t.name t.indices) := by
    rw [TableSpec.validate, hdescribe]
    rfl
  rw [hvalidate]
  simp only [then_eq_ok_iff, check_eq_ok_iff, htypes, hlength, true_and, and_true,
    checkColumns_iff t.name t.columns _ hcolumns ht.columns,
    checkIndices_ok d t.name t.indices hindex]

theorem validateTables_iff (ts : List TableSpec) (hts : ∀ t ∈ ts, PlainTable t) (d : Database)
    (h : ∀ t ∈ ts, Stands t d) :
    validateTables ts d = .ok () ↔ ∀ t ∈ ts, ∀ c ∈ t.columns, ∀ v ∈ c.default, Survives v := by
  induction ts with
  | nil => simp [validateTables]
  | cons t ts ih =>
    rw [validateTables, then_eq_ok_iff, validate_iff t (hts t (by simp)) d (h t (by simp)),
      ih (fun u hu => hts u (by simp [hu])) (fun u hu => h u (by simp [hu])), List.forall_mem_cons]

theorem Stands.setVersion (t : TableSpec) (d : Database) (h : Stands t d) (n : Int) :
    Stands t (d.setVersion n) := by
  obtain ⟨hfree, found, hfound, hrest⟩ := h
  exact ⟨hfree, found, hfound, hrest⟩

/-- A check right after a creation stumbles over the defaults that do not survive, and over nothing
else. -/
theorem created_validates_iff (s : VersionedSchema) (hs : ∀ t ∈ s.tables, PlainTable t)
    (d : Database) (h : s.create.on .empty = (.ok (), d)) :
    (s.validate.on d).1 = .ok () ↔
      ∀ t ∈ s.tables, ∀ c ∈ t.columns, ∀ v ∈ c.default, Survives v := by
  obtain ⟨_, d', htables, hversion⟩ := on_bind_ok _ _ _ _ _ h
  obtain ⟨hstand, -⟩ := createTables_stand s.tables hs _ d' htables
  rw [setUserVersion_on] at hversion
  rw [validate_on]
  split at hversion
  · obtain ⟨-, rfl⟩ := Prod.mk.inj hversion
    exact validateTables_iff s.tables hs _ fun t ht => (hstand t ht).setVersion t d' _
  · cases hversion

/-- One table with a string and a number with a sign for defaults, and this one. -/
def crates (value : String) : VersionedSchema :=
  { version := 0
    tables := [⟨"crate", [⟨"id", .text, true, true, false, some "'a b'"⟩,
      ⟨"size", .integer, false, true, false, some "-1"⟩,
      ⟨"made", .integer, false, true, true, some value⟩], [("crate_sizes", "size")]⟩]
    migration := none }

def datedCrates : VersionedSchema := crates "(cast(strftime('%s','now') as int))"

theorem datedCrates_validate :
    (∀ t ∈ datedCrates.tables, PlainTable t) ∧
      ∃ d, datedCrates.create.on .empty = (.ok (), d) ∧ (datedCrates.validate.on d).1 = .ok () := by
  have hplain : ∀ t ∈ datedCrates.tables, PlainTable t := by decide +kernel
  have hcreated : datedCrates.create.on .empty =
      (.ok (), (datedCrates.create.on .empty).2) := by decide +kernel
  refine ⟨hplain, _, hcreated, (created_validates_iff datedCrates hplain _ hcreated).2 ?_⟩
  decide +kernel

/-- The engine takes one pair of parentheses off, and the check another one on both sides. -/
theorem crates_turned_down :
    (∀ t ∈ (crates "((1))").tables, PlainTable t) ∧
      ((crates "((1))").create.on .empty).1 = .ok () ∧
      ((crates "((1))").validate.on ((crates "((1))").create.on .empty).2).1 =
        .error (.columnDefault "crate" "made" (some "((1))") (some "(1)")) := by
  decide +kernel

end VmFleet.Schema
