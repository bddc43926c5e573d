import VmFleet.Proofs.Store.Ruled

/-!
# Tables whose file is opened again

The rows of a table outlast the connection to its file, and so do its rules: whenever the file is
opened, the table is taken up under the rules that the file then gives it. A run on a table in a file
that the program made shows the same as the run in memory, with the file closed and opened again at any
point. Of tables from elsewhere those do that have the rule for keys.
-/

set_option autoImplicit false

namespace VmFleet.Store

open Schema

/-- What may be done to a repository. -/
inductive Deed (α : Type) where
  | call (c : Call α)
  /-- The file is closed and opened again. -/
  | reopen

/-- What shows of a deed: its answer, and all records afterwards. -/
inductive Sight (α : Type) where
  | answered (c : Call α) (answer : c.Answer) (records : Except StoreError (List α))
  | reopened (records : Except StoreError (List α))

def Sight.records {α : Type} : Sight α → Except StoreError (List α)
  | .answered _ _ records => records
  | .reopened records => records

/-- A table in the file of a database. -/
structure Kept where
  file : DatabaseFile
  sheet : Table.Sheet
  deriving DecidableEq, Repr

/-- Opens the file and takes up the table with its rows, all of which the table has numbered itself.
There is none if the file does not open, or if its table has other rules than those of a sheet. -/
def Kept.load? (α : Type) [Tabled α] (path : String) (f : DatabaseFile) (rows : List Entry) :
    Option Kept :=
  match f.openAt path storeSchemas with
  | (.ok (), .database d) => do
    let t ← d.table? (Tabled.table α)
    let s ← Table.sheetOf? α t rows
    return ⟨.database d, { s with isCounted := true }⟩
  | _ => none

/-- What a run on the table shows; none if the table is not there again after the file was closed. -/
def Kept.sights {α : Type} [Tabled α] (path : String) : Kept → List (Deed α) →
    Option (List (Sight α))
  | _, [] => some []
  | k, .call c :: deeds =>
    let r := Table.run k.sheet c
    (sights path { k with sheet := r.2 } deeds).map
      (.answered c r.1 (Table.run r.2 .getAll).1 :: ·)
  | k, .reopen :: deeds =>
    (Kept.load? α path k.file k.sheet.entries).bind fun k =>
      (sights path k deeds).map (.reopened (Table.run k.sheet .getAll).1 :: ·)

/-- Records in memory have no file, so that opening it again does nothing. -/
def Memory.sights {α : Type} [Keyed α] : List α → List (Deed α) → List (Sight α)
  | _, [] => []
  | items, .call c :: deeds =>
    let r := Memory.run items c
    .answered c r.1 (Memory.run r.2 .getAll).1 :: sights r.2 deeds
  | items, .reopen :: deeds => .reopened (Memory.run items .getAll).1 :: sights items deeds

/-! ## Taking up a table -/

section

variable {α : Type} [Tabled α] {path : String} {f : DatabaseFile} {rows : List Entry} {k : Kept}

theorem load_eq_some (h : Kept.load? α path f rows = some k) :
    ∃ d t s, f.openAt path storeSchemas = (.ok (), .database d) ∧
      d.table? (Tabled.table α) = some t ∧ Table.sheetOf? α t rows = some s ∧
      k = ⟨.database d, { s with isCounted := true }⟩ := by
  unfold Kept.load? at h
  split at h
  · rename_i d hopen
    obtain ⟨t, ht, h⟩ := Option.bind_eq_some_iff.mp h
    obtain ⟨s, hs, h⟩ := Option.bind_eq_some_iff.mp h
    exact ⟨d,t,s,hopen,ht,hs,(Option.some.inj h).symm⟩
  · cases h

theorem load_of_open (d : Database) (t : Schema.Table) (s : Table.Sheet)
    (hopen : f.openAt path storeSchemas = (.ok (), .database d))
    (ht : d.table? (Tabled.table α) = some t) (hs : Table.sheetOf? α t rows = some s) :
    Kept.load? α path f rows = some ⟨.database d, { s with isCounted := true }⟩ := by
  simp [Kept.load?, hopen, ht, hs]

/-- A file that a table was taken up from gives it the same rules again. -/
theorem load_again (h : Kept.load? α path f rows = some k) (other : List Entry) :
    Kept.load? α path k.file other = some { k with sheet := { k.sheet with entries := other } } := by
  obtain ⟨d, t, s, hopen, ht, hs, rfl⟩ := load_eq_some h
  have hagain := openAt_again storeSchemas storeSchemas_numbered (by decide) path f (by rw [hopen])
  rw [hopen] at hagain
  exact load_of_open d t _ hagain ht ((Table.sheetOf_eq_some t rows s hs).2.2 other)

theorem load_sheet (h : Kept.load? α path f rows = some k) :
    k.sheet = ⟨k.sheet.keyUnique, true, rows⟩ := by
  obtain ⟨d, t, s, -, -, hs, rfl⟩ := load_eq_some h
  rw [(Table.sheetOf_eq_some t rows s hs).1]

/-! ## Runs under the rule for keys -/

variable [Faithful α]

theorem sights_represented (file : DatabaseFile)
    (hfile : ∀ rows, Kept.load? α path file rows = some ⟨file, ⟨true, true, rows⟩⟩)
    (deeds : List (Deed α)) (hd : ∀ c, .call c ∈ deeds → Table.Alike c) (s : Table.Sheet)
    (items : List α) (hs : Table.Represents s items) :
    Kept.sights path ⟨file, s⟩ deeds = some (Memory.sights items deeds) := by
  induction deeds generalizing s items with
  | nil => rfl
  | cons d deeds ih =>
    have hrest : ∀ c, .call c ∈ deeds → Table.Alike c := fun c hc => hd c (List.mem_cons_of_mem _ hc)
    cases d with
    | call c =>
      obtain ⟨hanswer, hr⟩ := Table.run_represented s items hs c (hd c List.mem_cons_self)
      obtain ⟨hall, -⟩ := Table.run_represented _ _ hr .getAll trivial
      simp only [Kept.sights, Memory.sights]
      rw [ih hrest _ _ hr, hanswer, hall, Option.map_some]
    | reopen =>
      obtain ⟨hall, -⟩ := Table.run_represented _ _ hs .getAll trivial
      have hsheet : (⟨true, true, s.entries⟩ : Table.Sheet) = s := by
        change _ = (⟨s.keyUnique, s.isCounted, s.entries⟩ : Table.Sheet)
        rw [hs.keyed, hs.counted]
      simp only [Kept.sights, Memory.sights]
      rw [hfile, Option.bind_some, hsheet, ih hrest s items hs, hall, Option.map_some]

/-- An empty table that has the rule for keys agrees with an empty memory. -/
theorem loaded_agrees (h : Kept.load? α path f [] = some k) (hkey : k.sheet.keyUnique = true)
    (deeds : List (Deed α)) (hd : ∀ c, .call c ∈ deeds → Table.Alike c) :
    k.sights path deeds = some (Memory.sights [] deeds) := by
  have hsheet := load_sheet h
  rw [hkey] at hsheet
  have hfile : ∀ rows, Kept.load? α path k.file rows = some ⟨k.file, ⟨true, true, rows⟩⟩ := by
    intro rows
    rw [load_again h rows, hsheet]
  rw [show k = ⟨k.file, .empty⟩ from congrArg (Kept.mk k.file) hsheet]
  exact sights_represented k.file hfile deeds hd .empty [] Table.represents_empty

end

/-- The key of a machine is its id, for which every table has a rule. -/
theorem machines_agree (path : String) (f : DatabaseFile) (k : Kept)
    (h : Kept.load? Machine path f [] = some k) (deeds : List (Deed Machine)) :
    k.sights path deeds = some (Memory.sights [] deeds) := by
  have hkey : k.sheet.keyUnique = true := by
    obtain ⟨d, t, s, -, -, hs, rfl⟩ := load_eq_some h
    obtain ⟨hsheet, hid, -⟩ := Table.sheetOf_eq_some t [] s hs
    rw [hsheet]
    exact hid
  exact loaded_agrees h hkey deeds fun c _ => Table.alike_of_key_eq_id (fun _ => rfl) c

/-- Without the rule for usernames a table takes two accounts of one username, of which memory refuses
the second. -/
theorem accounts_agree_iff (path : String) (f : DatabaseFile) (k : Kept)
    (h : Kept.load? Account path f [] = some k) :
    (∀ deeds : List (Deed Account), (∀ new, Deed.call (.putAll new) ∉ deeds) →
      k.sights path deeds = some (Memory.sights [] deeds)) ↔ k.sheet.keyUnique = true := by
  constructor
  · intro hall
    by_contra hloose
    have hsheet := load_sheet h
    rw [eq_false_of_ne_true hloose] at hsheet
    let first : Account := ⟨"USER:1", "alice", "", "", "", "", .user⟩
    let second : Account := ⟨"USER:2", "alice", "", "", "", "", .user⟩
    have hsame := hall [.call (.put first), .call (.put second)] (by simp)
    rw [show k = ⟨k.file, ⟨false, true, []⟩⟩ from congrArg (Kept.mk k.file) hsheet] at hsame
    have htable : Kept.sights path ⟨k.file, ⟨false, true, []⟩⟩
        [.call (.put first), .call (.put second)] = some [.answered (.put first) (.ok first) (.ok [first]),
          .answered (.put second) (.ok second) (.ok [first, second])] := rfl
    rw [htable] at hsame
    have hrecords := congrArg (List.map Sight.records) (Option.some.inj hsame)
    exact absurd hrecords (by decide)
  · intro hkey deeds hd
    refine loaded_agrees h hkey deeds fun c hc => Table.alike_of_ne_putAll c ?_
    rintro new rfl
    exact hd new hc

/-! ## Files that the program made -/

/-- The files that the program makes where there was none, in this version or in one before it, and
whatever it makes of them when it opens them again. -/
inductive Made : DatabaseFile → Prop
  | missing : Made .missing
  | opened (path : String) (count : Nat) (f : DatabaseFile) (h : Made f) :
      Made (f.openAt path (storeSchemas.take count)).2

/-- The file of the first version, which had no machines yet. -/
def accountFile : DatabaseFile := .database ⟨baseVersion, [reported accountTable]⟩

theorem account_created :
    accountTable.create.on .empty = (.ok (), ⟨0, [reported accountTable]⟩) := by decide +kernel

theorem machine_created : machineTable.create.on ⟨0, [reported accountTable]⟩ =
    (.ok (), ⟨0, [reported accountTable, reported machineTable]⟩) := by decide +kernel

theorem numbered_take {schemas : List VersionedSchema} (h : Numbered schemas) (count : Nat) :
    Numbered (schemas.take count) := by
  intro i s hs
  rw [List.getElem?_take] at hs
  split at hs
  · exact h i s hs
  · cases hs

theorem missing_first (path : String) :
    DatabaseFile.missing.openAt path (storeSchemas.take 1) = (.ok (), accountFile) := by
  have htables : (createTables [accountTable]).on .empty = (.ok (), ⟨0, [reported accountTable]⟩) :=
    createTables_on _ _ _ _ account_created
  exact openAt_created _ ⟨0, [accountTable], none⟩ (numbered_take storeSchemas_numbered 1) rfl path _
    (create_on ⟨0, [accountTable], none⟩ _ _ htables) ⟨_,rfl,rfl,by decide +kernel⟩

theorem missing_latest (path : String) :
    DatabaseFile.missing.openAt path storeSchemas = (.ok (), storeFile) := by
  have htables : (createTables [accountTable, machineTable]).on .empty =
      (.ok (), ⟨0, [reported accountTable, reported machineTable]⟩) := by
    rw [createTables_on _ _ _ _ account_created, createTables_on _ _ _ _ machine_created]
    rfl
  exact openAt_created _ ⟨1, [accountTable, machineTable], some machineTable.create⟩
    storeSchemas_numbered rfl path _ (create_on ⟨1, _, some machineTable.create⟩ _ _ htables)
    ⟨_,rfl,rfl,by decide +kernel⟩

/-- The first version leaves its own file alone, and the file of a later one as too new. -/
theorem openAt_first (path : String) :
    (accountFile.openAt path (storeSchemas.take 1)).2 = accountFile ∧
      (storeFile.openAt path (storeSchemas.take 1)).2 = storeFile := by
  have hagain := openAt_again (storeSchemas.take 1) (numbered_take storeSchemas_numbered 1)
    (by decide) path .missing
    (by rw [missing_first])
  rw [missing_first] at hagain
  exact ⟨congrArg Prod.snd hagain,rfl⟩

theorem openAt_latest (path : String) :
    accountFile.openAt path storeSchemas = (.ok (), storeFile) ∧
      storeFile.openAt path storeSchemas = (.ok (), storeFile) := by
  have hfirst : accountFile.openAt "" storeSchemas = (.ok (), storeFile) := by decide +kernel
  have hagain := openAt_again storeSchemas storeSchemas_numbered (by decide) path .missing
    (by rw [missing_latest])
  rw [missing_latest] at hagain
  exact ⟨hfirst,hagain⟩

theorem made_cases (f : DatabaseFile) (h : Made f) :
    f = .missing ∨ f = accountFile ∨ f = storeFile := by
  induction h with
  | missing => exact Or.inl rfl
  | opened path count f _ ih =>
    match count with
    | 0 => exact ih
    | 1 =>
      obtain ⟨hfirst, hlatest⟩ := openAt_first path
      rcases ih with rfl | rfl | rfl
      · exact Or.inr (Or.inl (congrArg Prod.snd (missing_first path)))
      · exact Or.inr (Or.inl hfirst)
      · exact Or.inr (Or.inr hlatest)
    | count + 2 =>
      obtain ⟨hfirst, hlatest⟩ := openAt_latest path
      rw [List.take_of_length_le (show storeSchemas.length ≤ count + 2 from Nat.le_add_left 2 count)]
      rcases ih with rfl | rfl | rfl
      · exact Or.inr (Or.inr (congrArg Prod.snd (missing_latest path)))
      · exact Or.inr (Or.inr (congrArg Prod.snd hfirst))
      · exact Or.inr (Or.inr (congrArg Prod.snd hlatest))

theorem made_opens (path : String) (f : DatabaseFile) (h : Made f) :
    f.openAt path storeSchemas = (.ok (), storeFile) := by
  obtain ⟨hfirst, hlatest⟩ := openAt_latest path
  rcases made_cases f h with rfl | rfl | rfl
  · exact missing_latest path
  · exact hfirst
  · exact hlatest

/-- Both tables of a file that the program made have their rules for ids and keys. -/
theorem made_loads (path : String) (f : DatabaseFile) (h : Made f) :
    Kept.load? Machine path f [] = some ⟨storeFile, .empty⟩ ∧
      Kept.load? Account path f [] = some ⟨storeFile, .empty⟩ := by
  have hopen := made_opens path f h
  constructor
  · exact load_of_open _ (reported machineTable) ⟨true, false, []⟩ hopen (by decide +kernel)
      (by decide +kernel)
  · exact load_of_open _ (reported accountTable) ⟨true, false, []⟩ hopen (by decide +kernel)
      (by decide +kernel)

/-- Any file that the program made opens, and in every run its empty tables show the same as an empty
memory: for machines whatever is done, for accounts as long as no batch is written. -/
theorem memory_table_agree (path : String) (f : DatabaseFile) (hf : Made f) :
    (∃ k, Kept.load? Machine path f [] = some k ∧ ∀ deeds : List (Deed Machine),
      k.sights path deeds = some (Memory.sights [] deeds)) ∧
    ∃ k, Kept.load? Account path f [] = some k ∧
      ∀ deeds : List (Deed Account), (∀ new, Deed.call (.putAll new) ∉ deeds) →
        k.sights path deeds = some (Memory.sights [] deeds) := by
  obtain ⟨hmachines, haccounts⟩ := made_loads path f hf
  exact ⟨⟨_,hmachines,machines_agree path f _ hmachines⟩,
    _,haccounts,(accounts_agree_iff path f _ haccounts).mpr rfl⟩

/-- Where there was no file yet: a batch that names one machine twice, and an account that another
takes the username of. -/
theorem agree_on_repeated_keys :
    Made .missing ∧
      (∃ k, Kept.load? Machine "central.db" .missing [] = some k ∧
        let deeds : List (Deed Machine) :=
          [.call (.putAll [⟨"VM:1", .aws, .down, "USER:1"⟩, ⟨"VM:1", .gcp, .up, "USER:2"⟩]),
            .reopen, .call (.delete "VM:1"), .call (.get "VM:1")]
        k.sights "central.db" deeds = some (Memory.sights [] deeds)) ∧
      ∃ k, Kept.load? Account "central.db" .missing [] = some k ∧
        let deeds : List (Deed Account) :=
          [.call (.add ⟨"USER:1", "alice", "", "", "", "", .user⟩ true), .reopen,
            .call (.put ⟨"USER:2", "alice", "", "", "", "", .admin⟩), .call (.delete "USER:1"),
            .call (.put ⟨"USER:2", "alice", "", "", "", "", .admin⟩)]
        k.sights "central.db" deeds = some (Memory.sights [] deeds) := by
  obtain ⟨⟨k, hk, hmachines⟩, l, hl, haccounts⟩ := memory_table_agree "central.db" .missing .missing
  exact ⟨.missing,⟨k,hk,hmachines _⟩,l,hl,haccounts _ (by simp)⟩

end VmFleet.Store
