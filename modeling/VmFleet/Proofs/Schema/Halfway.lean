import VmFleet.Proofs.Schema.Migrations

/-!
# What a failed opening leaves behind

Statements take effect one by one and nothing is undone. A database that no schema recognizes is
left alone; in one that was recognized, all that ran before the failure stays.
-/

set_option autoImplicit false

namespace VmFleet.Schema

/-! ## Statements one by one -/

def runTexts (d : Database) (texts : List String) : Option Database := texts.foldlM Database.run d

def script : List String → Action Unit
  | [] => pure ()
  | text :: rest => do
    execute text
    script rest

/-- A script that fails has run the statements before the one that was refused. -/
theorem script_fails (texts : List String) (d e : Database) (err : SchemaError)
    (h : (script texts).on d = (.error err, e)) :
    ∃ before text after, texts = before ++ text :: after ∧ runTexts d before = some e ∧
      e.run text = none := by
  induction texts generalizing d with
  | nil => cases h
  | cons text rest ih =>
    unfold script execute at h
    rw [on_bind] at h
    cases hrun : d.run text with
    | none =>
      rw [statement_fails (fun d => d.run text) d hrun] at h
      obtain ⟨-, rfl⟩ := Prod.mk.inj h
      exact ⟨[],text,rest,rfl,rfl,hrun⟩
    | some d' =>
      rw [statement_on (fun d => d.run text) d d' hrun] at h
      obtain ⟨before, refused, after, rfl, hbefore, hnone⟩ := ih d' h
      refine ⟨text :: before, refused, after, rfl, ?_, hnone⟩
      rw [runTexts, List.foldlM_cons, hrun]
      exact hbefore

def TableSpec.texts (t : TableSpec) : List String :=
  t.decl.text :: t.indices.map fun i => indexText t.name i.1 i.2

theorem createIndices_script (table : String) (indices : List (String × String)) :
    createIndices table indices = script (indices.map fun i => indexText table i.1 i.2) := by
  induction indices with
  | nil => rfl
  | cons i rest ih =>
    rw [createIndices, ih]
    rfl

theorem create_script (t : TableSpec) : t.create = script t.texts := by
  change (do execute t.decl.text; createIndices t.name t.indices : Action Unit) = _
  rw [createIndices_script]
  rfl

/-! ## Failing halfway -/

/-- The migrations before the one that failed have run. -/
theorem broke_split (ms : List (Nat × Action Unit)) (d e : Database) (err : SchemaError)
    (h : Broke ms d err e) :
    ∃ before i m after d', ms = before ++ (i, m) :: after ∧ Ran before d d' ∧
      m.on d' = (.error err, e) := by
  induction h with
  | here i m rest d err e hm => exact ⟨[],i,m,rest,d,rfl,.none d,hm⟩
  | later i m rest d d' err e hm _ ih =>
    obtain ⟨before, j, n, after, d'', rfl, hran, hn⟩ := ih
    exact ⟨(i, m) :: before,j,n,after,d'',rfl,.next i m before d d' d'' hm hran,hn⟩

theorem upgrade_fails (schemas : List VersionedSchema) (hn : Numbered schemas)
    (latest : VersionedSchema) (hl : schemas.getLast? = some latest) (d e : Database)
    (err : SchemaError) (h : (upgrade schemas).on d = (.error err, e)) :
    (e = d ∧ ∀ v, ¬ Recognized schemas d v) ∨
      ∃ v, Recognized schemas d v ∧
        (Broke (pending schemas v) d err e ∨
          ∃ d', v < latest.version ∧ Ran (pending schemas v) d d' ∧
            ((e = stamp latest d' ∧ validateTables latest.tables e = .error err) ∨
              (e = d' ∧ err = .versionOverflow latest.version ∧
                0x10000000000000000 ≤ baseVersion + latest.version))) := by
  cases upgrade_cases schemas hn latest hl d e _ h with
  | tooOld hlow =>
    refine Or.inl ⟨rfl, fun v hrec => ?_⟩
    have hv := hrec.stored
    omega
  | tooNew v hv hhigh =>
    refine Or.inl ⟨rfl, fun w hrec => ?_⟩
    have hw := hrec.stored
    have hlt := recognized_lt schemas d w hrec
    omega
  | unlike v s err hv hs hval =>
    refine Or.inl ⟨rfl, fun w hrec => ?_⟩
    have hw := hrec.stored
    obtain ⟨t, ht, hok⟩ := hrec.accepted
    rw [show w = v by omega, hs] at ht
    cases ht
    rw [hval] at hok
    cases hok
  | broken v err e hrec hbroke => exact Or.inr ⟨v,hrec,Or.inl hbroke⟩
  | unwritable v e hrec hlt hran hlarge =>
    exact Or.inr ⟨v,hrec,Or.inr ⟨e,hlt,hran,Or.inr ⟨rfl,rfl,hlarge⟩⟩⟩
  | rejected v err d' hrec hlt hran _ hval =>
    exact Or.inr ⟨v,hrec,Or.inr ⟨d',hlt,hran,Or.inl ⟨rfl,hval⟩⟩⟩

/-- What an opening that failed made of a file that was there. -/
theorem openAt_stops (schemas : List VersionedSchema) (hn : Numbered schemas) (path : String)
    (f g : DatabaseFile) (hf : f ≠ .missing) (err : SchemaError)
    (h : f.openAt path schemas = (.error err, g)) :
    (g = f ∧ ∀ d v, f = .database d → ¬ Recognized schemas d v) ∨
      ∃ latest d v e, schemas.getLast? = some latest ∧ f = .database d ∧ Recognized schemas d v ∧
        g = .database e ∧
        ((∃ before i m after d', pending schemas v = before ++ (i, m) :: after ∧
            Ran before d d' ∧ m.on d' = (.error err, e) ∧
            ∀ t : TableSpec, m = t.create → ∃ done text rest, t.texts = done ++ text :: rest ∧
              runTexts d' done = some e ∧ e.run text = none) ∨
          ∃ d', v < latest.version ∧ Ran (pending schemas v) d d' ∧
            ((e = stamp latest d' ∧ validateTables latest.tables e = .error err) ∨
              (e = d' ∧ err = .versionOverflow latest.version ∧
                0x10000000000000000 ≤ baseVersion + latest.version))) := by
  cases hl : schemas.getLast? with
  | none =>
    -- without any schema the file is not even looked at
    simp only [DatabaseFile.openAt, hl, Prod.mk.injEq] at h
    refine Or.inl ⟨h.2.symm, fun d v _ hrec => ?_⟩
    have hlt := recognized_lt schemas d v hrec
    simp [List.getLast?_eq_none_iff.mp hl] at hlt
  | some latest =>
    cases f with
    | missing => exact absurd rfl hf
    | directory =>
      simp only [DatabaseFile.openAt, hl, Prod.mk.injEq] at h
      exact Or.inl ⟨h.2.symm,fun d v hd => by cases hd⟩
    | garbage =>
      simp only [DatabaseFile.openAt, hl, Prod.mk.injEq] at h
      exact Or.inl ⟨h.2.symm,fun d v hd => by cases hd⟩
    | database d =>
      rcases hon : (upgrade schemas).on d with ⟨r, e⟩
      rw [openAt_database schemas latest hl, hon] at h
      obtain ⟨rfl, rfl⟩ := Prod.mk.inj h
      rcases upgrade_fails schemas hn latest hl d e err hon with
        ⟨rfl, hunknown⟩ | ⟨v, hrec, hbroke | hrest⟩
      · refine Or.inl ⟨rfl, fun c v hc => ?_⟩
        cases hc
        exact hunknown v
      · obtain ⟨before, i, m, after, d', hsplit, hran, hm⟩ := broke_split _ d e err hbroke
        refine Or.inr ⟨latest, d, v, e, rfl, rfl, hrec, rfl,
          Or.inl ⟨before, i, m, after, d', hsplit, hran, hm, ?_⟩⟩
        rintro t rfl
        rw [create_script] at hm
        exact script_fails t.texts d' e err hm
      · exact Or.inr ⟨latest,d,v,e,rfl,rfl,hrec,rfl,Or.inr hrest⟩

def boxTable : TableSpec := ⟨"box", [key "id", required "label"], [("idx_label", "label")]⟩

def boxSchemas : List VersionedSchema := [⟨0, [], none⟩, ⟨1, [boxTable], some boxTable.create⟩]

theorem boxSchemas_numbered : Numbered boxSchemas := by
  intro i s h
  match i with
  | 0 | 1 => cases h; rfl
  | i + 2 => simp [boxSchemas] at h

/-- A database whose own table has an index of the name that the migration needs. -/
def labelled : Database := ⟨77000, [(shelf "lower").withIndex "idx_label"]⟩

/-- The same after the migration has created its table and failed to create the index. -/
def halfBoxed : Database := ⟨77000, [(shelf "lower").withIndex "idx_label", shelf "box"]⟩

theorem openAt_stops_labelled :
    (DatabaseFile.database labelled).openAt "box.db" boxSchemas =
        (.error (.engine ""), .database halfBoxed) ∧ ∃ v, Recognized boxSchemas labelled v := by
  refine ⟨by decide +kernel, ?_⟩
  rcases openAt_stops boxSchemas boxSchemas_numbered "box.db" (.database labelled)
    (.database halfBoxed) (by simp) (.engine "") (by decide +kernel) with
    ⟨hsame, -⟩ | ⟨latest, d, v, e, -, hd, hrec, -⟩
  · exact absurd hsame (by decide +kernel)
  · cases hd
    exact ⟨v,hrec⟩

/-- The one database keeps a new table without its index, the other one a new version. -/
theorem openAt_keeps_traces :
    (Numbered boxSchemas ∧
      (DatabaseFile.database labelled).openAt "box.db" boxSchemas =
        (.error (.engine ""), .database halfBoxed) ∧
      DatabaseFile.database halfBoxed ≠ .database labelled) ∧
    (Numbered [⟨0, [], none⟩, ⟨1, [shelfTable "lower"], none⟩] ∧
      (DatabaseFile.database ⟨77000, []⟩).openAt "shelf.db"
          [⟨0, [], none⟩, ⟨1, [shelfTable "lower"], none⟩] =
        (.error (.columnCount "lower" 0 2), .database ⟨77001, []⟩) ∧
      DatabaseFile.database ⟨77001, []⟩ ≠ .database ⟨77000, []⟩) := by
  refine ⟨⟨boxSchemas_numbered, by decide +kernel, by decide +kernel⟩, ?_, by decide +kernel,
    by decide⟩
  intro i s h
  match i with
  | 0 | 1 => cases h; rfl
  | i + 2 => simp at h

end VmFleet.Schema
