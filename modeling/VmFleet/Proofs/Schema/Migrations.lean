import VmFleet.Proofs.Schema.Settled

/-!
# Which migrations run

A database that one of the schemas recognizes is brought forward by the migrations of the schemas
after that one, in their order, and only then gets the last version and is checked once more.
All other databases are refused as they are.
-/

set_option autoImplicit false

namespace VmFleet.Schema

/-! ## Running migrations -/

def migrationsOf (schemas : List VersionedSchema) : List (Nat × Action Unit) :=
  schemas.filterMap fun s => s.migration.map fun m => (s.version, m)

/-- The migrations of the schemas after a version. -/
def pending (schemas : List VersionedSchema) (version : Nat) : List (Nat × Action Unit) :=
  migrationsOf (schemas.drop (version + 1))

/-- Each migration of the list ran once, one after the other, and all of them succeeded. -/
inductive Ran : List (Nat × Action Unit) → Database → Database → Prop where
  | none (d : Database) : Ran [] d d
  | next (i : Nat) (m : Action Unit) (rest : List (Nat × Action Unit)) (d d' e : Database) :
    m.on d = (.ok (), d') → Ran rest d' e → Ran ((i, m) :: rest) d e

/-- The migrations of the list ran one after the other up to one that failed. -/
inductive Broke : List (Nat × Action Unit) → Database → SchemaError → Database → Prop where
  | here (i : Nat) (m : Action Unit) (rest : List (Nat × Action Unit)) (d : Database)
    (err : SchemaError) (e : Database) : m.on d = (.error err, e) → Broke ((i, m) :: rest) d err e
  | later (i : Nat) (m : Action Unit) (rest : List (Nat × Action Unit)) (d d' : Database)
    (err : SchemaError) (e : Database) :
    m.on d = (.ok (), d') → Broke rest d' err e → Broke ((i, m) :: rest) d err e

theorem migrationsOf_cons (s : VersionedSchema) (rest : List VersionedSchema) :
    migrationsOf (s :: rest) =
      match s.migration with
      | some m => (s.version, m) :: migrationsOf rest
      | none => migrationsOf rest := by
  unfold migrationsOf
  cases h : s.migration <;> simp [h]

/-- The version that migrating over the schemas ends at. -/
def reach (current : Nat) (schemas : List VersionedSchema) : Nat :=
  (schemas.getLast?.map VersionedSchema.version).getD current

theorem reach_cons (current : Nat) (s : VersionedSchema) (rest : List VersionedSchema) :
    reach current (s :: rest) = reach s.version rest := by
  cases rest with
  | nil => rfl
  | cons t rest => simp [reach, List.getLast?_eq_some_getLast]

/-- Migrating runs the migrations of the schemas and nothing else. -/
theorem migrate_runs (current : Nat) (schemas : List VersionedSchema) (d : Database) :
    (∃ e, Ran (migrationsOf schemas) d e ∧
      (migrate current schemas).on d = (.ok (reach current schemas), e)) ∨
    ∃ err e, Broke (migrationsOf schemas) d err e ∧
      (migrate current schemas).on d = (.error err, e) := by
  induction schemas generalizing current d with
  | nil => exact Or.inl ⟨d,.none d,rfl⟩
  | cons s rest ih =>
    rw [migrationsOf_cons, reach_cons]
    unfold migrate
    cases s.migration with
    | none => exact ih s.version d
    | some m =>
      dsimp only
      rw [on_bind]
      rcases hm : m.on d with ⟨r, d'⟩
      cases r with
      | error err => exact Or.inr ⟨err,d',.here _ _ _ _ _ _ hm,rfl⟩
      | ok u =>
        rcases ih s.version d' with ⟨e, hran, hon⟩ | ⟨err, e, hbroke, hon⟩
        · exact Or.inl ⟨e,.next _ _ _ _ _ _ hm hran,hon⟩
        · exact Or.inr ⟨err,e,.later _ _ _ _ _ _ _ hm hbroke,hon⟩

/-! ## The pending migrations -/

theorem mem_migrationsOf (schemas : List VersionedSchema) (i : Nat) (m : Action Unit) :
    (i, m) ∈ migrationsOf schemas ↔ ∃ s ∈ schemas, s.version = i ∧ s.migration = some m := by
  simp only [migrationsOf, List.mem_filterMap, Option.map_eq_some_iff, Prod.mk.injEq]
  grind

theorem mem_pending (schemas : List VersionedSchema) (hn : Numbered schemas) (v i : Nat)
    (m : Action Unit) :
    (i, m) ∈ pending schemas v ↔ v < i ∧ ∃ s, schemas[i]? = some s ∧ s.migration = some m := by
  rw [pending, mem_migrationsOf]
  constructor
  · rintro ⟨s, hs, rfl, hm⟩
    obtain ⟨k, hk⟩ := List.mem_iff_getElem?.mp hs
    rw [List.getElem?_drop] at hk
    have hv := hn _ s hk
    exact ⟨by omega,s,by rw [hv]; exact hk,hm⟩
  · rintro ⟨hlt, s, hs, hm⟩
    refine ⟨s, List.mem_iff_getElem?.mpr ⟨i - (v + 1), ?_⟩, hn i s hs, hm⟩
    rw [List.getElem?_drop, ← hs]
    congr 1
    omega

theorem numbered_ascending (schemas : List VersionedSchema) (hn : Numbered schemas) :
    schemas.Pairwise fun s t => s.version < t.version := by
  rw [List.pairwise_iff_getElem]
  intro i j hi hj hij
  rw [hn i _ (List.getElem?_eq_getElem hi), hn j _ (List.getElem?_eq_getElem hj)]
  exact hij

theorem pending_ascending (schemas : List VersionedSchema) (hn : Numbered schemas) (v : Nat) :
    (pending schemas v).Pairwise fun a b => a.1 < b.1 := by
  have hdrop := (numbered_ascending schemas hn).drop (i := v + 1)
  refine List.Pairwise.filterMap _ ?_ hdrop
  intro s t hst a ha b hb
  obtain ⟨m, -, rfl⟩ := Option.map_eq_some_iff.mp ha
  obtain ⟨m', -, rfl⟩ := Option.map_eq_some_iff.mp hb
  exact hst

theorem pending_last (schemas : List VersionedSchema) (v : Nat) (h : schemas.length ≤ v + 1) :
    pending schemas v = [] := by
  rw [pending, List.drop_eq_nil_of_le h]
  rfl

/-! ## What an upgrade can do -/

/-- The database has the version of one of the schemas, and that schema accepts it. -/
structure Recognized (schemas : List VersionedSchema) (d : Database) (v : Nat) : Prop where
  stored : d.userVersion = baseVersion + v
  accepted : ∃ s, schemas[v]? = some s ∧ validateTables s.tables d = .ok ()

theorem recognized_lt (schemas : List VersionedSchema) (d : Database) (v : Nat)
    (h : Recognized schemas d v) : v < schemas.length := by
  obtain ⟨s, hs, -⟩ := h.accepted
  exact (List.getElem?_eq_some_iff.mp hs).1

/-- The database after the last version was written into it. -/
def stamp (s : VersionedSchema) (d : Database) : Database :=
  d.setVersion (baseVersion + s.version : Nat)

/-- The ways that an upgrade to the last schema can end. -/
inductive Upgraded (schemas : List VersionedSchema) (latest : VersionedSchema) (d : Database) :
    Except SchemaError Unit → Database → Prop where
  | tooOld : d.userVersion < baseVersion →
    Upgraded schemas latest d (.error (.tooOld (d.userVersion - baseVersion))) d
  | tooNew (v : Nat) : d.userVersion = baseVersion + v → schemas.length ≤ v →
    Upgraded schemas latest d (.error (.tooNew v)) d
  | unlike (v : Nat) (s : VersionedSchema) (err : SchemaError) :
    d.userVersion = baseVersion + v → schemas[v]? = some s →
    validateTables s.tables d = .error err → Upgraded schemas latest d (.error err) d
  | current : Recognized schemas d latest.version → Upgraded schemas latest d (.ok ()) d
  | broken (v : Nat) (err : SchemaError) (e : Database) : Recognized schemas d v →
    Broke (pending schemas v) d err e → Upgraded schemas latest d (.error err) e
  | unwritable (v : Nat) (e : Database) : Recognized schemas d v → v < latest.version →
    Ran (pending schemas v) d e → 0x10000000000000000 ≤ baseVersion + latest.version →
    Upgraded schemas latest d (.error (.versionOverflow latest.version)) e
  | rejected (v : Nat) (err : SchemaError) (e : Database) : Recognized schemas d v →
    v < latest.version → Ran (pending schemas v) d e →
    baseVersion + latest.version < 0x10000000000000000 →
    validateTables latest.tables (stamp latest e) = .error err →
    Upgraded schemas latest d (.error err) (stamp latest e)
  | upgraded (v : Nat) (e : Database) : Recognized schemas d v → v < latest.version →
    Ran (pending schemas v) d e → validateTables latest.tables (stamp latest e) = .ok () →
    Upgraded schemas latest d (.ok ()) (stamp latest e)

theorem storedVersion_cases (count : Nat) (d : Database) :
    (d.userVersion < baseVersion ∧
      (storedVersion count).on d = (.error (.tooOld (d.userVersion - baseVersion)), d)) ∨
    ∃ v : Nat, d.userVersion = baseVersion + v ∧
      ((count ≤ v ∧ (storedVersion count).on d = (.error (.tooNew v), d)) ∨
        (v < count ∧ (storedVersion count).on d = (.ok v, d))) := by
  by_cases hlow : d.userVersion < baseVersion
  · refine Or.inl ⟨hlow, ?_⟩
    unfold storedVersion
    rw [on_bind, on_get]
    dsimp only
    rw [if_pos (by omega)]
    rfl
  · have hv : d.userVersion = baseVersion + (d.userVersion - baseVersion).toNat := by omega
    refine Or.inr ⟨(d.userVersion - baseVersion).toNat, hv, ?_⟩
    by_cases hhigh : count ≤ (d.userVersion - baseVersion).toNat
    · refine Or.inl ⟨hhigh, ?_⟩
      unfold storedVersion
      rw [on_bind, on_get]
      dsimp only
      rw [if_neg (by omega), if_pos hhigh]
      rfl
    · exact Or.inr ⟨by omega,storedVersion_on count _ d hv (by omega)⟩

theorem schemaAt_on (schemas : List VersionedSchema) (v : Nat) (s : VersionedSchema) (d : Database)
    (h : schemas[v]? = some s) : (schemaAt schemas v).on d = (.ok s, d) := by
  rw [schemaAt, h]
  rfl

theorem setUserVersion_on (s : VersionedSchema) (d : Database) :
    (setUserVersion s.version).on d =
      if baseVersion + s.version < 0x10000000000000000 then (.ok (), stamp s d)
      else (.error (.versionOverflow s.version), d) := by
  by_cases h : baseVersion + s.version < 0x10000000000000000
  · rw [setUserVersion, if_pos h, if_pos h]
    exact statement_on _ d _ rfl
  · rw [setUserVersion, if_neg h, if_neg h]
    rfl

theorem last_at (schemas : List VersionedSchema) (hn : Numbered schemas) (latest : VersionedSchema)
    (hl : schemas.getLast? = some latest) : schemas[latest.version]? = some latest := by
  have hlen := last_version schemas hn latest hl
  rw [← hl, List.getLast?_eq_getElem?, ← hlen]
  rfl

theorem reach_drop (schemas : List VersionedSchema) (hn : Numbered schemas)
    (latest : VersionedSchema) (hl : schemas.getLast? = some latest) (v : Nat)
    (hv : v < schemas.length) : reach v (schemas.drop (v + 1)) = latest.version := by
  have hlen := last_version schemas hn latest hl
  rw [reach, List.getLast?_drop, hl]
  by_cases hmore : schemas.length ≤ v + 1
  · rw [if_pos hmore]
    change v = latest.version
    omega
  · rw [if_neg hmore]
    rfl

theorem upgrade_cases (schemas : List VersionedSchema) (hn : Numbered schemas)
    (latest : VersionedSchema) (hl : schemas.getLast? = some latest) (d e : Database)
    (r : Except SchemaError Unit) (h : (upgrade schemas).on d = (r, e)) :
    Upgraded schemas latest d r e := by
  have hlen := last_version schemas hn latest hl
  have hlast := last_at schemas hn latest hl
  unfold upgrade at h
  rw [on_bind] at h
  rcases storedVersion_cases schemas.length d with ⟨hlow, hs⟩ | ⟨v, hv, ⟨hhigh, hs⟩ | ⟨hlt, hs⟩⟩
  · rw [hs] at h
    obtain ⟨rfl, rfl⟩ := Prod.mk.inj h
    exact .tooOld hlow
  · rw [hs] at h
    obtain ⟨rfl, rfl⟩ := Prod.mk.inj h
    exact .tooNew v hv hhigh
  · have hat : schemas[v]? = some schemas[v] := List.getElem?_eq_getElem hlt
    rw [hs] at h
    dsimp only at h
    rw [on_bind, schemaAt_on schemas v _ d hat] at h
    dsimp only at h
    rw [on_bind, validate_on] at h
    cases hval : validateTables schemas[v].tables d with
    | error err =>
      rw [hval] at h
      obtain ⟨rfl, rfl⟩ := Prod.mk.inj h
      exact .unlike v _ err hv hat hval
    | ok u =>
      have hrec : Recognized schemas d v := ⟨hv,_,hat,hval⟩
      rw [hval] at h
      dsimp only at h
      rw [on_bind] at h
      rcases migrate_runs v (schemas.drop (v + 1)) d with ⟨e', hran, hm⟩ | ⟨err, e', hbroke, hm⟩
      · rw [hm, reach_drop schemas hn latest hl v hlt] at h
        dsimp only at h
        by_cases hsame : latest.version = v
        · rw [if_pos hsame] at h
          obtain ⟨rfl, rfl⟩ := Prod.mk.inj h
          change Ran (pending schemas v) d e' at hran
          rw [pending_last schemas v (by omega)] at hran
          cases hran
          exact .current (by rw [hsame]; exact hrec)
        · rw [if_neg hsame, on_bind, setUserVersion_on] at h
          by_cases hword : baseVersion + latest.version < 0x10000000000000000
          · rw [if_pos hword] at h
            dsimp only at h
            rw [on_bind, schemaAt_on schemas _ _ _ hlast] at h
            dsimp only at h
            rw [validate_on] at h
            obtain ⟨hr, rfl⟩ := Prod.mk.inj h
            cases r with
            | ok u => exact .upgraded v e' hrec (by omega) hran hr
            | error err => exact .rejected v err e' hrec (by omega) hran hword hr
          · rw [if_neg hword] at h
            obtain ⟨rfl, rfl⟩ := Prod.mk.inj h
            exact .unwritable v e' hrec (by omega) hran (by omega)
      · rw [hm] at h
        obtain ⟨rfl, rfl⟩ := Prod.mk.inj h
        exact .broken v err e' hrec hbroke

/-! ## Opening -/

theorem stamp_version (s : VersionedSchema) (d : Database) :
    (stamp s d).userVersion =
      if baseVersion + s.version < 0x80000000 then (baseVersion + s.version : Int) else 0 := by
  simp only [stamp, Database.setVersion]
  by_cases h : baseVersion + s.version < 0x80000000
  · rw [if_pos h, if_pos (by omega)]
    push_cast
    rfl
  · rw [if_neg h, if_neg (by omega)]

theorem stamp_zero (s : VersionedSchema) (d : Database)
    (h : (stamp s d).userVersion ≠ baseVersion + s.version) :
    0x80000000 ≤ baseVersion + s.version ∧ (stamp s d).userVersion = 0 := by
  rw [stamp_version] at h ⊢
  by_cases hfit : baseVersion + s.version < 0x80000000
  · rw [if_pos hfit] at h
    exact absurd rfl h
  · exact ⟨by omega,if_neg hfit⟩

theorem create_stamps (s : VersionedSchema) (d e : Database) (h : s.create.on d = (.ok (), e)) :
    ∃ d', e = stamp s d' := by
  unfold VersionedSchema.create at h
  obtain ⟨_, d', -, hset⟩ := on_bind_ok _ _ _ _ _ h
  rw [setUserVersion_on] at hset
  by_cases hword : baseVersion + s.version < 0x10000000000000000
  · rw [if_pos hword] at hset
    exact ⟨d',(Prod.mk.inj hset).2.symm⟩
  · rw [if_neg hword] at hset
    cases hset

theorem openAt_database (schemas : List VersionedSchema) (latest : VersionedSchema)
    (hl : schemas.getLast? = some latest) (path : String) (d : Database) :
    (DatabaseFile.database d).openAt path schemas =
      (((upgrade schemas).on d).1, .database ((upgrade schemas).on d).2) := by
  simp only [DatabaseFile.openAt, hl, DatabaseFile.run]

theorem openAt_missing (schemas : List VersionedSchema) (latest : VersionedSchema)
    (hl : schemas.getLast? = some latest) (path : String) :
    DatabaseFile.missing.openAt path schemas =
      (((do latest.create; upgrade schemas : Action Unit).on .empty).1,
        .database ((do latest.create; upgrade schemas : Action Unit).on .empty).2) := by
  simp only [DatabaseFile.openAt, hl, DatabaseFile.run]

theorem createTables_on (t : TableSpec) (ts : List TableSpec) (d e : Database)
    (h : t.create.on d = (.ok (), e)) : (createTables (t :: ts)).on d = (createTables ts).on e := by
  rw [createTables, on_bind, h]

theorem create_on (s : VersionedSchema) (d e : Database)
    (h : (createTables s.tables).on d = (.ok (), e)) :
    s.create.on d = (setUserVersion s.version).on e := by
  rw [VersionedSchema.create, on_bind, h]

theorem openAt_created (schemas : List VersionedSchema) (latest : VersionedSchema)
    (hn : Numbered schemas) (hl : schemas.getLast? = some latest) (path : String) (d : Database)
    (hc : latest.create.on .empty = (.ok (), d)) (hs : Settled schemas d) :
    DatabaseFile.missing.openAt path schemas = (.ok (), .database d) := by
  rw [openAt_missing schemas latest hl, on_bind, hc]
  dsimp only
  rw [upgrade_settled schemas hn d hs]

/-- A database that was just created needs no migration. -/
theorem created_upgrade (schemas : List VersionedSchema) (hn : Numbered schemas)
    (latest : VersionedSchema) (hl : schemas.getLast? = some latest) (e : Database)
    (h : (do latest.create; upgrade schemas : Action Unit).on .empty = (.ok (), e)) :
    latest.create.on .empty = (.ok (), e) ∧ Recognized schemas e latest.version := by
  obtain ⟨_, d, hc, hu⟩ := on_bind_ok _ _ _ _ _ h
  obtain ⟨d', rfl⟩ := create_stamps latest _ _ hc
  have hv := stamp_version latest d'
  cases upgrade_cases schemas hn latest hl _ _ _ hu with
  | current hrec => exact ⟨hc,hrec⟩
  | upgraded v e' hrec hlt hran hval =>
    have hs := hrec.stored
    rw [hv] at hs
    by_cases hfit : baseVersion + latest.version < 0x80000000
    · rw [if_pos hfit] at hs
      omega
    · rw [if_neg hfit] at hs
      unfold baseVersion at hs
      omega

theorem recognized_last (schemas : List VersionedSchema) (hn : Numbered schemas)
    (latest : VersionedSchema) (hl : schemas.getLast? = some latest) (d : Database)
    (h : Recognized schemas d latest.version) : validateTables latest.tables d = .ok () := by
  obtain ⟨s, hs, hval⟩ := h.accepted
  rw [last_at schemas hn latest hl] at hs
  cases hs
  exact hval

theorem settled_openAt (schemas : List VersionedSchema) (hn : Numbered schemas) (path : String)
    (d : Database) (h : Settled schemas d) :
    (DatabaseFile.database d).openAt path schemas = (.ok (), .database d) := by
  obtain ⟨s, hs, -, -⟩ := id h
  rw [openAt_database schemas s hs, upgrade_settled schemas hn d h]

/-- A file that could be opened was missing, or it was up to date, or its pending migrations ran. -/
theorem openAt_done (schemas : List VersionedSchema) (hn : Numbered schemas)
    (latest : VersionedSchema) (hl : schemas.getLast? = some latest) (path : String)
    (f g : DatabaseFile) (h : f.openAt path schemas = (.ok (), g)) :
    ∃ e, g = .database e ∧
      ((f = .missing ∧ latest.create.on .empty = (.ok (), e) ∧
          Recognized schemas e latest.version) ∨
        (f = .database e ∧ Recognized schemas e latest.version) ∨
        ∃ d v d', f = .database d ∧ Recognized schemas d v ∧ v < latest.version ∧
          Ran (pending schemas v) d d' ∧ e = stamp latest d' ∧
          validateTables latest.tables e = .ok ()) := by
  cases f with
  | missing =>
    rw [openAt_missing schemas latest hl] at h
    obtain ⟨hr, rfl⟩ := Prod.mk.inj h
    obtain ⟨hc, hrec⟩ := created_upgrade schemas hn latest hl _ (Prod.ext hr rfl)
    exact ⟨_,rfl,Or.inl ⟨rfl,hc,hrec⟩⟩
  | directory => simp [DatabaseFile.openAt, hl] at h
  | garbage => simp [DatabaseFile.openAt, hl] at h
  | database d =>
    rcases hon : (upgrade schemas).on d with ⟨r, e⟩
    rw [openAt_database schemas latest hl, hon] at h
    obtain ⟨rfl, rfl⟩ := Prod.mk.inj h
    refine ⟨e, rfl, Or.inr ?_⟩
    cases upgrade_cases schemas hn latest hl d e _ hon with
    | current hrec => exact Or.inl ⟨rfl,hrec⟩
    | upgraded v d' hrec hlt hran hval => exact Or.inr ⟨d,v,d',rfl,hrec,hlt,hran,rfl,hval⟩

theorem openAt_foreign (schemas : List VersionedSchema) (hn : Numbered schemas)
    (latest : VersionedSchema) (hl : schemas.getLast? = some latest) (path : String) (d : Database)
    (h : ∀ v, ¬ Recognized schemas d v) :
    ∃ err, (DatabaseFile.database d).openAt path schemas = (.error err, .database d) := by
  rcases hon : (upgrade schemas).on d with ⟨r, e⟩
  rw [openAt_database schemas latest hl, hon]
  cases upgrade_cases schemas hn latest hl d e r hon with
  | tooOld => exact ⟨_,rfl⟩
  | tooNew => exact ⟨_,rfl⟩
  | unlike => exact ⟨_,rfl⟩
  | current hrec => exact absurd hrec (h _)
  | broken v err e hrec => exact absurd hrec (h v)
  | unwritable v e hrec => exact absurd hrec (h v)
  | rejected v err e hrec => exact absurd hrec (h v)
  | upgraded v e hrec => exact absurd hrec (h v)

theorem openAt_unlike (schemas : List VersionedSchema) (latest : VersionedSchema)
    (hl : schemas.getLast? = some latest) (path : String) (d : Database) (v : Nat)
    (s : VersionedSchema) (err : SchemaError) (hv : d.userVersion = baseVersion + v)
    (hs : schemas[v]? = some s) (hval : validateTables s.tables d = .error err) :
    (DatabaseFile.database d).openAt path schemas = (.error err, .database d) := by
  have hlt : v < schemas.length := (List.getElem?_eq_some_iff.mp hs).1
  have hon : (upgrade schemas).on d = (.error err, d) := by
    unfold upgrade
    rw [on_bind, storedVersion_on schemas.length v d hv hlt]
    dsimp only
    rw [on_bind, schemaAt_on schemas v s d hs]
    dsimp only
    rw [on_bind, validate_on, hval]
  rw [openAt_database schemas latest hl, hon]

/-- What a successful opening did, which files are refused as they are, and what the pending
migrations are. The number stored in a file has 32 bits; a version beyond them is stored as zero. -/
theorem openAt_migrates (schemas : List VersionedSchema) (hn : Numbered schemas)
    (latest : VersionedSchema) (hl : schemas.getLast? = some latest) (path : String)
    (f : DatabaseFile) :
    (∀ g, f.openAt path schemas = (.ok (), g) →
      ∃ e, g = .database e ∧ validateTables latest.tables e = .ok () ∧
        ((f = .missing ∧ latest.create.on .empty = (.ok (), e)) ∨
          ∃ d v, f = .database d ∧ Recognized schemas d v ∧
            ((v = latest.version ∧ e = d) ∨
              ∃ d', v < latest.version ∧ Ran (pending schemas v) d d' ∧ e = stamp latest d')) ∧
        ((e.userVersion = baseVersion + latest.version ∧ g.openAt path schemas = (.ok (), g)) ∨
          (0x80000000 ≤ baseVersion + latest.version ∧ e.userVersion = 0))) ∧
    (∀ d, f = .database d →
      d.userVersion < baseVersion ∨ baseVersion + schemas.length ≤ d.userVersion →
      ∃ err, f.openAt path schemas = (.error err, f)) ∧
    (∀ d v s err, f = .database d → d.userVersion = baseVersion + (v : Nat) →
      schemas[v]? = some s → validateTables s.tables d = .error err →
      f.openAt path schemas = (.error err, f)) ∧
    ∀ v, (pending schemas v).Pairwise (fun a b => a.1 < b.1) ∧
      ∀ i m, (i, m) ∈ pending schemas v ↔
        v < i ∧ ∃ s, schemas[i]? = some s ∧ s.migration = some m := by
  refine ⟨?_, ?_, ?_, fun v => ⟨pending_ascending schemas hn v,mem_pending schemas hn v⟩⟩
  · intro g h
    have hagain (e : Database) (hval : validateTables latest.tables e = .ok ())
        (hv : e.userVersion = baseVersion + latest.version) :=
      settled_openAt schemas hn path e ⟨latest,hl,hv,hval⟩
    obtain ⟨e, rfl, ⟨hf, hc, hrec⟩ | ⟨hf, hrec⟩ | ⟨d, v, d', hf, hrec, hlt, hran, rfl, hval⟩⟩ :=
      openAt_done schemas hn latest hl path f g h
    · have hval := recognized_last schemas hn latest hl e hrec
      exact ⟨e,rfl,hval,Or.inl ⟨hf,hc⟩,Or.inl ⟨hrec.stored,hagain e hval hrec.stored⟩⟩
    · have hval := recognized_last schemas hn latest hl e hrec
      exact ⟨e,rfl,hval,Or.inr ⟨e,_,hf,hrec,Or.inl ⟨rfl,rfl⟩⟩,
        Or.inl ⟨hrec.stored,hagain e hval hrec.stored⟩⟩
    · refine ⟨_, rfl, hval, Or.inr ⟨d, v, hf, hrec, Or.inr ⟨d', hlt, hran, rfl⟩⟩, ?_⟩
      by_cases hv : (stamp latest d').userVersion = baseVersion + latest.version
      · exact Or.inl ⟨hv,hagain _ hval hv⟩
      · exact Or.inr (stamp_zero latest d' hv)
  · rintro d rfl hout
    apply openAt_foreign schemas hn latest hl path d
    intro v hrec
    have hv := hrec.stored
    have hlt := recognized_lt schemas d v hrec
    omega
  · rintro d v s err rfl hv hs hval
    exact openAt_unlike schemas latest hl path d v s err hv hs hval

def shelfTable (name : String) : TableSpec := ⟨name, [key "id", required "label"], []⟩

/-- Four versions, of which the second and the last one add a table. -/
def shelfSchemas : List VersionedSchema :=
  [⟨0, [], none⟩, ⟨1, [shelfTable "lower"], some (shelfTable "lower").create⟩,
    ⟨2, [shelfTable "lower"], none⟩,
    ⟨3, [shelfTable "lower", shelfTable "upper"], some (shelfTable "upper").create⟩]

theorem shelfSchemas_numbered : Numbered shelfSchemas := by
  intro i s h
  match i with
  | 0 | 1 | 2 | 3 => cases h; rfl
  | i + 4 => simp [shelfSchemas] at h

def shelf (name : String) : Table :=
  ⟨name, [⟨"id", "TEXT", true, none, 1, "binary", false⟩,
    ⟨"label", "TEXT", true, none, 0, "binary", false⟩], [], [⟨[("id", "binary")], true, none⟩], none,
    true⟩

def shelves (version : Int) (names : List String) : DatabaseFile :=
  .database ⟨version, names.map shelf⟩

/-- In a file at the second version only the last migration is pending. -/
theorem openAt_migrates_shelves :
    (shelves 77001 ["lower"]).openAt "shelf.db" shelfSchemas =
        (.ok (), shelves 77003 ["lower", "upper"]) ∧
      (pending shelfSchemas 1).map Prod.fst = [3] ∧
      (shelves 77003 ["lower", "upper"]).openAt "shelf.db" shelfSchemas =
        (.ok (), shelves 77003 ["lower", "upper"]) := by
  refine ⟨by decide +kernel, rfl, ?_⟩
  obtain ⟨e, -, -, -, ⟨-, hagain⟩ | ⟨hlarge, -⟩⟩ :=
    (openAt_migrates shelfSchemas shelfSchemas_numbered _ rfl "shelf.db" (shelves 77001 ["lower"])).1
      (shelves 77003 ["lower", "upper"]) (by decide +kernel)
  · exact hagain
  · exact absurd hlarge (by decide)

end VmFleet.Schema
