import Mathlib.Data.List.Basic
import VmFleet.Schema.File

/-!
# Databases that need nothing more

A database is settled when it has the version of the last schema and that schema accepts it.
Whatever was opened is settled, and opening a settled database leaves it alone.
-/

set_option autoImplicit false

namespace VmFleet.Schema

variable {α β : Type}

theorem on_bind (a : Action α) (f : α → Action β) (d : Database) :
    (a >>= f).on d =
      match a.on d with
      | (.ok x, d') => (f x).on d'
      | (.error e, d') => (.error e, d') := by
  change ((a.run >>= ExceptT.bindCont f : StateM Database _).run d) = _
  simp only [StateT.run_bind]
  unfold Action.on
  rcases (a.run).run d with ⟨r, d'⟩
  cases r <;> rfl

theorem on_pure (x : α) (d : Database) : (pure x : Action α).on d = (.ok x, d) := rfl

theorem on_get (d : Database) : (get : Action Database).on d = (.ok d, d) := rfl

theorem statement_on (change : Database → Option Database) (d e : Database) (h : change d = some e) :
    (statement change).on d = (.ok (), e) := by
  unfold statement
  rw [on_bind, on_get]
  dsimp only
  rw [h]
  rfl

theorem statement_fails (change : Database → Option Database) (d : Database)
    (h : change d = none) : (statement change).on d = (.error (.engine ""), d) := by
  unfold statement
  rw [on_bind, on_get]
  dsimp only
  rw [h]
  rfl

/-- When a sequence of two actions succeeds, each of them does. -/
theorem on_bind_ok (a : Action α) (f : α → Action β) (d e : Database) (y : β)
    (h : (a >>= f).on d = (.ok y, e)) :
    ∃ x d', a.on d = (.ok x, d') ∧ (f x).on d' = (.ok y, e) := by
  rw [on_bind] at h
  rcases ha : a.on d with ⟨r, d'⟩
  rw [ha] at h
  cases r with
  | ok x => exact ⟨x,d',rfl,h⟩
  | error e => cases h

theorem validate_on (s : VersionedSchema) (d : Database) :
    s.validate.on d = (validateTables s.tables d, d) := by
  unfold VersionedSchema.validate
  rw [on_bind, on_get]
  dsimp only
  cases validateTables s.tables d <;> rfl

theorem schemaAt_ok (schemas : List VersionedSchema) (version : Nat) (d e : Database)
    (s : VersionedSchema) (h : (schemaAt schemas version).on d = (.ok s, e)) :
    schemas[version]? = some s ∧ e = d := by
  unfold schemaAt at h
  cases hs : schemas[version]? with
  | none =>
    rw [hs] at h
    cases h
  | some t =>
    rw [hs] at h
    cases h
    exact ⟨rfl,rfl⟩

theorem storedVersion_ok (count version : Nat) (d e : Database)
    (h : (storedVersion count).on d = (.ok version, e)) :
    d.userVersion = baseVersion + version ∧ version < count ∧ e = d := by
  unfold storedVersion at h
  rw [on_bind, on_get] at h
  dsimp only at h
  by_cases hlow : d.userVersion - baseVersion < 0
  · rw [if_pos hlow] at h
    cases h
  · by_cases hhigh : count ≤ (d.userVersion - baseVersion).toNat
    · rw [if_neg hlow, if_pos hhigh] at h
      cases h
    · rw [if_neg hlow, if_neg hhigh] at h
      cases h
      exact ⟨by omega,by omega,rfl⟩

theorem storedVersion_on (count version : Nat) (d : Database)
    (hv : d.userVersion = baseVersion + version) (hc : version < count) :
    (storedVersion count).on d = (.ok version, d) := by
  unfold storedVersion
  rw [on_bind, on_get]
  dsimp only
  have hn : (d.userVersion - baseVersion).toNat = version := by omega
  rw [if_neg (by omega), if_neg (by omega), hn]
  rfl

theorem setUserVersion_ok (version : Nat) (d e : Database) (hb : baseVersion + version < 0x80000000)
    (h : (setUserVersion version).on d = (.ok (), e)) :
    e.userVersion = baseVersion + version := by
  have hword : baseVersion + version < 0x10000000000000000 := by omega
  rw [setUserVersion, if_pos hword, statement_on (fun d => some (d.setVersion _)) d _ rfl] at h
  obtain ⟨-, rfl⟩ := Prod.mk.inj h
  simp only [Database.setVersion]
  rw [if_pos (by omega)]
  push_cast
  rfl

theorem migrate_cons_ok (current reached : Nat) (s : VersionedSchema) (rest : List VersionedSchema)
    (d e : Database) (h : (migrate current (s :: rest)).on d = (.ok reached, e)) :
    ∃ d', (migrate s.version rest).on d' = (.ok reached, e) := by
  unfold migrate at h
  dsimp only at h
  cases hm : s.migration with
  | none =>
    rw [hm] at h
    exact ⟨d,h⟩
  | some m =>
    rw [hm] at h
    obtain ⟨_, d', -, hrest⟩ := on_bind_ok _ _ _ _ _ h
    exact ⟨d',hrest⟩

/-- Migrating reaches the version of the last schema, and without any schema it does nothing. -/
theorem migrate_ok (current reached : Nat) (rest : List VersionedSchema) (d e : Database)
    (h : (migrate current rest).on d = (.ok reached, e)) :
    (rest = [] → reached = current ∧ e = d) ∧
      ∀ s, rest.getLast? = some s → reached = s.version := by
  induction rest generalizing current d with
  | nil =>
    cases h
    exact ⟨fun _ => ⟨rfl,rfl⟩,by simp⟩
  | cons s rest ih =>
    refine ⟨by simp, ?_⟩
    obtain ⟨d', h⟩ := migrate_cons_ok _ _ _ _ _ _ h
    obtain ⟨hnil, hlast⟩ := ih s.version d' h
    intro t ht
    cases rest with
    | nil =>
      cases ht
      exact (hnil rfl).1
    | cons u rest => exact hlast t (by simpa using ht)

/-! ## Upgrading -/

/-- Every schema stands at the position of its version. -/
def Numbered (schemas : List VersionedSchema) : Prop :=
  ∀ (i : Nat) (s : VersionedSchema), schemas[i]? = some s → s.version = i

def Settled (schemas : List VersionedSchema) (d : Database) : Prop :=
  ∃ s, schemas.getLast? = some s ∧ d.userVersion = baseVersion + s.version ∧
    validateTables s.tables d = .ok ()

theorem last_version (schemas : List VersionedSchema) (hn : Numbered schemas) (s : VersionedSchema)
    (h : schemas.getLast? = some s) : s.version + 1 = schemas.length := by
  rw [List.getLast?_eq_getElem?] at h
  have hv := hn _ s h
  have hlt : schemas.length - 1 < schemas.length := (List.getElem?_eq_some_iff.mp h).1
  omega

/-- Everything that a successful upgrade has done. -/
theorem upgrade_ok (schemas : List VersionedSchema) (d e : Database)
    (h : (upgrade schemas).on d = (.ok (), e)) :
    ∃ (version : Nat) (s : VersionedSchema) (reached : Nat) (d' : Database),
      d.userVersion = baseVersion + version ∧ schemas[version]? = some s ∧
      validateTables s.tables d = .ok () ∧
      (migrate version (schemas.drop (version + 1))).on d = (.ok reached, d') ∧
      ((reached = version ∧ e = d') ∨
        (reached ≠ version ∧ ∃ u, (setUserVersion reached).on d' = (.ok (), e) ∧
          schemas[reached]? = some u ∧ validateTables u.tables e = .ok ())) := by
  unfold upgrade at h
  obtain ⟨version, d1, hv, h1⟩ := on_bind_ok _ _ _ _ _ h
  obtain ⟨hstored, -, rfl⟩ := storedVersion_ok _ _ _ _ hv
  obtain ⟨s, d2, hat, h2⟩ := on_bind_ok _ _ _ _ _ h1
  obtain ⟨hs, rfl⟩ := schemaAt_ok _ _ _ _ _ hat
  obtain ⟨_, d3, hval, h3⟩ := on_bind_ok _ _ _ _ _ h2
  rw [validate_on] at hval
  obtain ⟨haccept, rfl⟩ := Prod.mk.inj hval
  obtain ⟨reached, d4, hm, h4⟩ := on_bind_ok _ _ _ _ _ h3
  refine ⟨version, s, reached, d4, hstored, hs, haccept, hm, ?_⟩
  by_cases hr : reached = version
  · rw [if_pos hr] at h4
    cases h4
    exact Or.inl ⟨hr,rfl⟩
  · rw [if_neg hr] at h4
    obtain ⟨_, d5, hset, h5⟩ := on_bind_ok _ _ _ _ _ h4
    obtain ⟨u, d6, hat', h6⟩ := on_bind_ok _ _ _ _ _ h5
    obtain ⟨hu, rfl⟩ := schemaAt_ok _ _ _ _ _ hat'
    rw [validate_on] at h6
    obtain ⟨hval', rfl⟩ := Prod.mk.inj h6
    exact Or.inr ⟨hr,u,hset,hu,hval'⟩

theorem settled_of_upgrade (schemas : List VersionedSchema) (hn : Numbered schemas)
    (hb : baseVersion + schemas.length ≤ 0x80000000) (d e : Database)
    (h : (upgrade schemas).on d = (.ok (), e)) : Settled schemas e := by
  obtain ⟨version, s, reached, d', hstored, hs, hval, hm, hend⟩ := upgrade_ok schemas d e h
  obtain ⟨hnil, hlast⟩ := migrate_ok _ _ _ _ _ hm
  have hsv := hn version s hs
  have hlt : version < schemas.length := (List.getElem?_eq_some_iff.mp hs).1
  rcases Nat.lt_or_ge (version + 1) schemas.length with hmore | hdone
  · -- some schema comes after the stored one, so the last one was reached
    obtain ⟨t, ht⟩ : ∃ t, schemas.getLast? = some t :=
      ⟨_,List.getLast?_eq_some_getLast (List.ne_nil_of_length_pos (by omega))⟩
    have htv := last_version schemas hn t ht
    have hr : reached = t.version := by
      apply hlast
      rw [List.getLast?_drop, if_neg (by omega)]
      exact ht
    rcases hend with ⟨hsame, -⟩ | ⟨-, u, hset, hu, hval'⟩
    · omega
    · have huv := hn reached u hu
      refine ⟨u, ?_, ?_, hval'⟩
      · rw [List.getLast?_eq_getElem?, ← hu]
        congr 1
        omega
      · rw [setUserVersion_ok _ _ _ (by omega) hset, huv]
  · obtain ⟨rfl, rfl⟩ := hnil (List.drop_eq_nil_of_le hdone)
    rcases hend with ⟨-, rfl⟩ | ⟨hne, -⟩
    · refine ⟨s, ?_, by rw [hstored, hsv], hval⟩
      rw [List.getLast?_eq_getElem?, ← hs]
      congr 1
      omega
    · exact absurd rfl hne

theorem upgrade_settled (schemas : List VersionedSchema) (hn : Numbered schemas) (d : Database)
    (h : Settled schemas d) : (upgrade schemas).on d = (.ok (), d) := by
  obtain ⟨s, hs, hv, hval⟩ := h
  have hlen := last_version schemas hn s hs
  have hat : schemas[s.version]? = some s := by
    rw [← hs, List.getLast?_eq_getElem?]
    congr 1
    omega
  unfold upgrade
  rw [on_bind, storedVersion_on schemas.length s.version d hv (by omega)]
  dsimp only
  rw [on_bind, schemaAt, hat]
  dsimp only [on_pure]
  rw [on_bind, validate_on, hval]
  dsimp only
  rw [hlen, List.drop_length, on_bind]
  dsimp only [migrate, on_pure]
  rw [if_pos rfl]
  rfl

/-! ## Opening -/

theorem settled_of_openAt (schemas : List VersionedSchema) (hn : Numbered schemas)
    (hb : baseVersion + schemas.length ≤ 0x80000000) (path : String) (f : DatabaseFile)
    (h : (f.openAt path schemas).1 = .ok ()) :
    ∃ d, (f.openAt path schemas).2 = .database d ∧ Settled schemas d := by
  unfold DatabaseFile.openAt at h ⊢
  cases hs : schemas.getLast? with
  | none =>
    rw [hs] at h
    cases h
  | some latest =>
    rw [hs] at h
    cases f with
    | missing =>
      have hrun : (do latest.create; upgrade schemas : Action Unit).on .empty =
          (.ok (), ((do latest.create; upgrade schemas : Action Unit).on .empty).2) :=
        Prod.ext h rfl
      obtain ⟨_, d, -, hup⟩ := on_bind_ok _ _ _ _ _ hrun
      exact ⟨_,rfl,settled_of_upgrade schemas hn hb _ _ hup⟩
    | directory => cases h
    | garbage => cases h
    | database d =>
      exact ⟨_,rfl,settled_of_upgrade schemas hn hb d _ (Prod.ext h rfl)⟩

/-- A file that was opened opens again, and stays as it is. -/
theorem openAt_again (schemas : List VersionedSchema) (hn : Numbered schemas)
    (hb : baseVersion + schemas.length ≤ 0x80000000) (path : String) (f : DatabaseFile)
    (h : (f.openAt path schemas).1 = .ok ()) :
    (f.openAt path schemas).2.openAt path schemas = (.ok (), (f.openAt path schemas).2) := by
  obtain ⟨d, hd, hset⟩ := settled_of_openAt schemas hn hb path f h
  rw [hd]
  obtain ⟨s, hs, -, -⟩ := id hset
  simp only [DatabaseFile.openAt, hs, DatabaseFile.run, upgrade_settled schemas hn d hset]

end VmFleet.Schema
