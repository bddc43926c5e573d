import VmFleet.Proofs.Schema.Halfway
import VmFleet.Proofs.Schema.Rules
import VmFleet.Proofs.Store.Agreement

/-!
# Tables with and without the rule for keys

A table that refuses a second row with the same key keeps ids and keys distinct whatever is called.
One without that rule does not, and opening takes both.
-/

set_option autoImplicit false

namespace VmFleet.Store

open Schema

namespace Table

variable {α : Type} [Tabled α]

/-- No two rows have the same id or the same key. -/
structure DistinctRows (α : Type) [Tabled α] (s : Sheet) : Prop where
  ids : (s.rows.map idCell).Nodup
  keys : (s.rows.map (keyCell α)).Nodup

theorem keyCells_nodup_iff (rows : List Row) (h : (rows.map idCell).Nodup) :
    (rows.map (keyCell α)).Nodup ↔
      ∀ q ∈ rows, ∀ r ∈ rows, keyCell α q = keyCell α r → idCell q = idCell r := by
  rw [List.nodup_map_iff_inj_on (List.Nodup.of_map _ h)]
  constructor
  · intro hk q hq r hr he
    rw [hk q hq r hr he]
  · intro hk q hq r hr he
    exact List.inj_on_of_nodup_map h hq hr (hk q hq r hr he)

/-! ## Writing a row -/

theorem place_perm (e : Entry) (entries : List Entry) :
    (Entry.place e entries).Perm (e :: entries) := by
  induction entries with
  | nil => exact List.Perm.refl _
  | cons x xs ih =>
    unfold Entry.place
    split
    · exact List.Perm.refl _
    · exact (ih.cons x).trans (List.Perm.swap e x xs)

theorem append_perm (s : Sheet) (row : Row) : (s.append row).rows.Perm (row :: s.rows) :=
  (place_perm ⟨s.nextNumber, row⟩ s.entries).map Entry.row

/-- A write that is not refused puts the record in the place of the row with its id, or adds it. -/
theorem write_rows (s t : Sheet) (item : α) (h : write s item = some t) :
    t.keyUnique = s.keyUnique ∧
      ((s.rows.any (hasId (Keyed.id item)) = true ∧
          t.rows = s.rows.map fun r => if hasId (Keyed.id item) r then toRow item else r) ∨
        s.rows.any (hasId (Keyed.id item)) = false ∧ t.rows.Perm (toRow item :: s.rows)) := by
  unfold write at h
  split at h
  · cases h
  · split at h
    · rename_i hany
      cases h
      refine ⟨rfl, Or.inl ⟨hany, ?_⟩⟩
      simp only [Sheet.rows, List.map_map]
      apply List.map_congr_left
      intro e _
      simp only [Function.comp_apply, overwrite]
      split <;> rfl
    · rename_i hany
      cases h
      exact ⟨rfl,Or.inr ⟨eq_false_of_ne_true hany,append_perm s (toRow item)⟩⟩

/-- The row of the record and all rows with other ids, in some order. -/
theorem mem_write (s t : Sheet) (item : α) (h : write s item = some t) (r : Row) :
    r ∈ t.rows ↔ r = toRow item ∨ (r ∈ s.rows ∧ hasId (Keyed.id item) r = false) := by
  obtain ⟨-, ⟨hany, hrows⟩ | ⟨hany, hrows⟩⟩ := write_rows s t item h
  · rw [hrows, List.mem_map]
    obtain ⟨q, hq, hid⟩ := List.any_eq_true.mp hany
    constructor
    · rintro ⟨q, hq, rfl⟩
      by_cases hid : hasId (Keyed.id item) q = true
      · exact Or.inl (if_pos hid)
      · rw [if_neg hid]
        exact Or.inr ⟨hq,eq_false_of_ne_true hid⟩
    · rintro (rfl | ⟨hr, hid⟩)
      · exact ⟨q,hq,if_pos hid⟩
      · exact ⟨r,hr,by rw [hid]; rfl⟩
  · rw [hrows.mem_iff, List.mem_cons]
    have hother : r ∈ s.rows → hasId (Keyed.id item) r = false := fun hr =>
      eq_false_of_ne_true (List.any_eq_false.mp hany r hr)
    exact or_congr_right ⟨fun hr => ⟨hr,hother hr⟩,And.left⟩

variable [Faithful α]

theorem write_ids (s t : Sheet) (item : α) (h : write s item = some t)
    (hs : (s.rows.map idCell).Nodup) : (t.rows.map idCell).Nodup := by
  obtain ⟨-, ⟨hany, hrows⟩ | ⟨hany, hrows⟩⟩ := write_rows s t item h
  · have hsame : t.rows.map idCell = s.rows.map idCell := by
      rw [hrows, List.map_map]
      apply List.map_congr_left
      intro r _
      rw [Function.comp_apply]
      split
      · rename_i hid
        rw [Faithful.idCell_toRow, of_decide_eq_true hid]
      · rfl
    rw [hsame]
    exact hs
  · rw [(hrows.map idCell).nodup_iff, List.map_cons, List.nodup_cons]
    refine ⟨?_, hs⟩
    rw [Faithful.idCell_toRow, List.mem_map]
    rintro ⟨r, hr, hid⟩
    exact List.any_eq_false.mp hany r hr (decide_eq_true hid)

omit [Faithful α] in
/-- Under the rule for keys, a key that is written is not the key of any other row. -/
theorem write_free (s t : Sheet) (item : α) (hk : s.keyUnique = true) (h : write s item = some t)
    (r : Row) (hr : r ∈ s.rows) (hkey : keyCell α r = some (.text (Keyed.key item))) :
    hasId (Keyed.id item) r = true := by
  by_contra hid
  have hany : (s.rows.any fun r =>
      !hasId (Keyed.id item) r && hasKey α (Keyed.key item) r) = true := by
    refine List.any_eq_true.mpr ⟨r, hr, ?_⟩
    simp [hasKey, eq_false_of_ne_true hid, hkey]
  rw [write, hk, hany] at h
  cases h

/-- Ids and keys are distinct, and the table keeps them so. -/
structure Ruled (α : Type) [Tabled α] (s : Sheet) : Prop where
  keyed : s.keyUnique = true
  distinct : DistinctRows α s

theorem write_ruled (s t : Sheet) (item : α) (hs : Ruled α s) (h : write s item = some t) :
    Ruled α t := by
  have hids := write_ids s t item h hs.distinct.ids
  refine ⟨(write_rows s t item h).1.trans hs.keyed, hids, (keyCells_nodup_iff t.rows hids).mpr ?_⟩
  have hold := (keyCells_nodup_iff s.rows hs.distinct.ids).mp hs.distinct.keys
  have hfree := write_free s t item hs.keyed h
  intro q hq r hr he
  rw [mem_write s t item h] at hq hr
  rcases hq with rfl | ⟨hq, hqid⟩
  · rcases hr with rfl | ⟨hr, hrid⟩
    · rfl
    · rw [Faithful.keyCell_toRow] at he
      rw [hfree r hr he.symm] at hrid
      cases hrid
  · rcases hr with rfl | ⟨hr, -⟩
    · rw [Faithful.keyCell_toRow] at he
      rw [hfree q hq he] at hqid
      cases hqid
    · exact hold q hq r hr he

/-! ## Calls -/

theorem writeAll_ruled (items : List α) (s t : Sheet) (hs : Ruled α s)
    (h : writeAll items s = .ok t) : Ruled α t := by
  induction items generalizing s with
  | nil =>
    cases h
    exact hs
  | cons item rest ih =>
    unfold writeAll at h
    cases hw : write s item with
    | none =>
      rw [hw] at h
      cases h
    | some w =>
      rw [hw] at h
      exact ih w (write_ruled s w item hs hw) h

theorem put_ruled (s : Sheet) (item : α) (hs : Ruled α s) : Ruled α (put s item).2 := by
  unfold put
  cases hw : write s item with
  | none => exact hs
  | some t => exact write_ruled s t item hs hw

theorem add_ruled (s : Sheet) (item : α) (ensureUnique : Bool) (hs : Ruled α s) :
    Ruled α (add s item ensureUnique).2 := by
  unfold add
  split
  · exact put_ruled s item hs
  · split
    · exact hs
    · split
      · exact hs
      · exact hs

theorem putAll_ruled (s : Sheet) (items : List α) (hs : Ruled α s) :
    Ruled α (putAll s items).2 := by
  unfold putAll
  cases hw : writeAll items s with
  | error e => exact hs
  | ok t => exact writeAll_ruled items s t hs hw

omit [Faithful α] in
theorem delete_ruled (s : Sheet) (id : String) (hs : Ruled α s) : Ruled α (delete α s id).2 := by
  unfold delete
  split
  · have hsub : List.Sublist ((s.entries.filter fun e => !hasId id e.row).map Entry.row) s.rows :=
      List.filter_sublist.map Entry.row
    exact ⟨hs.keyed,(hsub.map idCell).nodup hs.distinct.ids,
      (hsub.map (keyCell α)).nodup hs.distinct.keys⟩
  · exact hs

theorem run_ruled (s : Sheet) (c : Call α) (hs : Ruled α s) : Ruled α (run s c).2 := by
  cases c with
  | getAll => exact hs
  | get id => exact hs
  | add item ensureUnique => exact add_ruled s item ensureUnique hs
  | put item => exact put_ruled s item hs
  | putAll items => exact putAll_ruled s items hs
  | delete id => exact delete_ruled s id hs

/-- The sheet after a run of calls. -/
def after (s : Sheet) (calls : List (Call α)) : Sheet := calls.foldl (fun s c => (run s c).2) s

theorem after_ruled (s : Sheet) (calls : List (Call α)) (hs : Ruled α s) :
    Ruled α (after s calls) := by
  induction calls generalizing s with
  | nil => exact hs
  | cons c calls ih => exact ih _ (run_ruled s c hs)

/-! ## Without the rule -/

omit [Faithful α] in
theorem put_loose (s : Sheet) (item : α) (hk : s.keyUnique = false) :
    ∃ t, (put s item).2 = t ∧ write s item = some t ∧ t.keyUnique = false := by
  have hw : ∃ t, write s item = some t := by
    rw [write, hk, Bool.false_and, if_neg Bool.false_ne_true]
    split
    · exact ⟨_,rfl⟩
    · exact ⟨_,rfl⟩
  obtain ⟨t, ht⟩ := hw
  refine ⟨t, ?_, ht, (write_rows s t item ht).1.trans hk⟩
  rw [put, ht]

/-- Two records of one key and different ids end up next to each other. -/
theorem puts_share_key (s : Sheet) (hk : s.keyUnique = false) (a b : α)
    (hid : Keyed.id a ≠ Keyed.id b) (hkey : Keyed.key a = Keyed.key b) :
    ¬ DistinctRows α (after s [.put a, .put b]) := by
  obtain ⟨t, ht, hwa, hkt⟩ := put_loose s a hk
  obtain ⟨u, hu, hwb, -⟩ := put_loose t b hkt
  have hrun : after s [.put a, .put b] = u := by
    change (put (put s a).2 b).2 = u
    rw [ht, hu]
  rw [hrun]
  intro hd
  have ha : toRow a ∈ u.rows := by
    refine (mem_write t u b hwb _).mpr (Or.inr ⟨(mem_write s t a hwa _).mpr (Or.inl rfl), ?_⟩)
    rw [hasId_toRow]
    exact decide_eq_false hid
  have hb : toRow b ∈ u.rows := (mem_write t u b hwb _).mpr (Or.inl rfl)
  have hsame := (keyCells_nodup_iff u.rows hd.ids).mp hd.keys _ ha _ hb
    (by rw [Faithful.keyCell_toRow, Faithful.keyCell_toRow, hkey])
  rw [Faithful.idCell_toRow, Faithful.idCell_toRow] at hsame
  exact hid (Cell.text.inj (Option.some.inj hsame))

/-! ## Tables of files -/

def ruleFor (column : String) (u : UniqueIndex) : Bool := u.columns = [(column, "binary")]

def keyName (α : Type) [Tabled α] : String :=
  columnName (Tabled.columns α) (Tabled.keyColumn α)

/-- The sheet that the rows of a table make. Only tables are covered that keep ids distinct, keys
perhaps, and nothing else, and that refuse what breaks these rules. -/
def sheetOf? (α : Type) [Tabled α] (t : Schema.Table) (entries : List Entry) : Option Sheet :=
  if t.hasRowNumbers && t.columns.all (fun c => c.collation = "binary") &&
      t.unique.any (ruleFor "id") &&
      t.unique.all fun u => u.onConflict = none && (ruleFor "id" u || ruleFor (keyName α) u) then
    some ⟨t.unique.any (ruleFor (keyName α)), false, entries⟩
  else none

omit [Faithful α] in
/-- The rules of the sheet are those of the table, whatever rows there are. -/
theorem sheetOf_eq_some (t : Schema.Table) (entries : List Entry) (s : Sheet)
    (h : sheetOf? α t entries = some s) :
    s = ⟨t.unique.any (ruleFor (keyName α)), false, entries⟩ ∧
      t.unique.any (ruleFor "id") = true ∧
      ∀ other, sheetOf? α t other = some { s with entries := other } := by
  unfold sheetOf? at h ⊢
  split at h
  · rename_i hrules
    cases h
    refine ⟨rfl,?_,fun _ => if_pos hrules⟩
    simp only [Bool.and_eq_true] at hrules
    exact hrules.1.2
  · cases h

end Table

/-! ## Opening the store -/

theorem storeSchemas_numbered : Numbered storeSchemas := by
  intro i s hs
  match i, hs with
  | 0, hs =>
    cases hs
    rfl
  | 1, hs =>
    cases hs
    rfl

/-- A table as a database reports it after it was created. -/
def reported (t : TableSpec) : Schema.Table where
  name := t.name
  columns := t.columns.map fun c =>
    ⟨c.name, c.type.name, c.notNull, c.default.map strip, if c.primaryKey then 1 else 0, "binary",
      false⟩
  indices := t.indices.map Prod.fst
  unique := (t.columns.filter fun c => c.primaryKey || c.unique).map fun c =>
    ⟨[(c.name, "binary")], c.primaryKey, none⟩
  rowKey := none
  hasRowNumbers := true

def storeFile : DatabaseFile :=
  .database ⟨baseVersion + 1, [reported accountTable, reported machineTable]⟩

theorem blind_script (texts : List String)
    (h : ∀ text ∈ texts, ∀ path ifThere,
      Sql.Statement.ofText? text ≠ some (.dropIndex path ifThere)) : Blind (script texts) := by
  induction texts with
  | nil => exact blind_pure ()
  | cons text rest ih =>
    exact blind_bind _ _ (blind_execute text (h text (by simp))) fun _ _ _ _ =>
      ih fun t ht => h t (by simp [ht])

def dropsIndex : Option Sql.Statement → Bool
  | some (.dropIndex _ _) => true
  | _ => false

theorem blind_machineTable : Blind machineTable.create := by
  have hkeeps : (machineTable.texts.any fun text => dropsIndex (Sql.Statement.ofText? text)) =
      false := by decide +kernel
  rw [create_script]
  apply blind_script
  intro text ht path ifThere hs
  have hdrops := List.any_eq_false.mp hkeeps text ht
  rw [hs] at hdrops
  exact hdrops rfl

theorem blind_store : Blind (upgrade storeSchemas) := by
  apply blind_upgrade
  · intro s hs m hm
    simp only [storeSchemas, List.mem_cons, List.not_mem_nil, or_false] at hs
    rcases hs with rfl | rfl
    · cases hm
    · change some machineTable.create = some m at hm
      rw [← Option.some.inj hm]
      exact blind_machineTable
  · decide

/-- A store that opens does so under any other rules as well. -/
theorem openAt_other_rules (path : String) (d d' e : Database) (hd : d.SameButRules d')
    (h : (DatabaseFile.database d).openAt path storeSchemas = (.ok (), .database e)) :
    ∃ e', (DatabaseFile.database d').openAt path storeSchemas = (.ok (), .database e') ∧
      e.SameButRules e' := by
  obtain ⟨hr, he⟩ := blind_store d d' hd
  rw [openAt_database storeSchemas _ rfl] at h ⊢
  obtain ⟨hok, hfile⟩ := Prod.mk.inj h
  cases hfile
  exact ⟨_,by rw [hr, hok],he⟩

def described? : Option Sql.Statement → Option String
  | some (.describeTable name) => some name
  | _ => none

theorem asks_account :
    Sql.Statement.ofText? ("PRAGMA table_info(" ++ accountTable.name ++ ");") =
      some (.describeTable "user_account") := by
  have h : described? (Sql.Statement.ofText? ("PRAGMA table_info(" ++ accountTable.name ++ ");")) =
      some "user_account" := by decide +kernel
  unfold described? at h
  split at h
  · rename_i name hs
    rw [hs, Option.some.inj h]
  · cases h

theorem opened_table (path : String) (d e : Database)
    (h : (DatabaseFile.database d).openAt path storeSchemas = (.ok (), .database e)) :
    ∃ t, e.table? "user_account" = some t := by
  obtain ⟨c, hc, s, hs, -, hval⟩ := settled_of_openAt storeSchemas storeSchemas_numbered (by decide)
    path (.database d) (by rw [h])
  rw [h] at hc
  cases hc
  cases hs
  cases ht : e.table? "user_account" with
  | some t => exact ⟨t,rfl⟩
  | none =>
    -- a table that is not there is reported without columns, and eight are expected
    have hcolumns : e.describe ("PRAGMA table_info(" ++ accountTable.name ++ ");") = some [] := by
      rw [Database.describe, asks_account]
      simp only [Database.columnsOf, ht]
      rw [show Database.isCatalog "user_account" = false by decide +kernel]
      rfl
    have hfails : accountTable.validate e = .error (.columnCount "user_account" 0 8) := by
      unfold TableSpec.validate
      rw [hcolumns]
      rfl
    change validateTables [accountTable, machineTable] e = .ok () at hval
    rw [validateTables, hfails] at hval
    cases hval

namespace Table

/-- Whether a database that opens keeps accounts distinct is up to the rule for usernames, of which
the opening takes no notice. -/
theorem opened_distinct_iff (path : String) (d e : Database)
    (h : (DatabaseFile.database d).openAt path storeSchemas = (.ok (), .database e)) :
    (∀ d', d.SameButRules d' → ∃ e', e.SameButRules e' ∧
      (DatabaseFile.database d').openAt path storeSchemas = (.ok (), .database e')) ∧
    ∃ t, e.table? (Tabled.table Account) = some t ∧
      ∀ entries s, sheetOf? Account t entries = some s → DistinctRows Account s →
        ((∀ calls : List (Call Account), DistinctRows Account (after s calls)) ↔
          t.unique.any (ruleFor "username") = true) := by
  constructor
  · intro d' hd
    obtain ⟨e', ho, he⟩ := openAt_other_rules path d d' e hd h
    exact ⟨e',he,ho⟩
  · obtain ⟨t, ht⟩ := opened_table path d e h
    refine ⟨t, ht, ?_⟩
    intro entries s hs hd
    have hk : s.keyUnique = t.unique.any (ruleFor "username") :=
      congrArg Sheet.keyUnique (sheetOf_eq_some t entries s hs).1
    constructor
    · intro hall
      by_contra hloose
      have hfree : s.keyUnique = false := hk.trans (eq_false_of_ne_true hloose)
      exact puts_share_key s hfree (⟨"USER:1", "alice", "", "", "", "", .user⟩ : Account)
        ⟨"USER:2", "alice", "", "", "", "", .user⟩ (by decide) rfl (hall _)
    · intro hrule calls
      exact (after_ruled s calls ⟨hk.trans hrule,hd⟩).distinct

/-- The tables as the program creates them have the rule. -/
theorem storeFile_distinct :
    storeFile.openAt "central.db" storeSchemas = (.ok (), storeFile) ∧
      ∀ calls : List (Call Account), DistinctRows Account (after ⟨true, false, []⟩ calls) := by
  have hopen : storeFile.openAt "central.db" storeSchemas = (.ok (), storeFile) := by
    decide +kernel
  obtain ⟨-, t, ht, hiff⟩ := opened_distinct_iff "central.db"
    ⟨baseVersion + 1, [reported accountTable, reported machineTable]⟩ _ hopen
  refine ⟨hopen, ?_⟩
  obtain rfl : reported accountTable = t := by
    have hfound : Database.table?
        ⟨baseVersion + 1, [reported accountTable, reported machineTable]⟩ "user_account" =
          some (reported accountTable) := by decide +kernel
    exact Option.some.inj (hfound.symm.trans ht)
  exact (hiff [] ⟨true, false, []⟩ (by decide +kernel) ⟨List.nodup_nil,List.nodup_nil⟩).mpr
    (by decide +kernel)

/-- The table of accounts without its rule for usernames. -/
def looseTable : Schema.Table :=
  { reported accountTable with unique := [⟨[("id", "binary")], true, none⟩] }

theorem opened_shares_username :
    (DatabaseFile.database ⟨baseVersion + 1, [looseTable, reported machineTable]⟩).openAt
        "central.db" storeSchemas =
      (.ok (), .database ⟨baseVersion + 1, [looseTable, reported machineTable]⟩) ∧
    sheetOf? Account looseTable [] = some ⟨false, false, []⟩ ∧
    DistinctRows Account ⟨false, false, []⟩ ∧
    ¬ DistinctRows Account (after ⟨false, false, []⟩
      [Call.put (⟨"USER:1", "alice", "Alice", "A", "h", "s", .user⟩ : Account),
        .put ⟨"USER:2", "alice", "Alice", "B", "h", "s", .user⟩]) := by
  refine ⟨by decide +kernel, by decide +kernel, ⟨List.nodup_nil, List.nodup_nil⟩, ?_⟩
  intro h
  exact absurd h.keys (by decide)

end Table
end VmFleet.Store
