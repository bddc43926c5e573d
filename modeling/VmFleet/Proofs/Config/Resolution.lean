import VmFleet.Config.Watcher
import VmFleet.Proofs.Results

/-!
# Which settings are admitted

Each setting is what the file says, else what the command line says, else a default. Taken together
they are admitted exactly when there is a place for the records and none of five of them is of no use;
nothing is changed about settings that are admitted.
-/

set_option autoImplicit false

namespace VmFleet.Config

/-! ## Where each setting comes from -/

/-- What the file, if there is one, says in this part, if it has that. -/
def said {σ α : Type} (file : Option FileSettings) (part : FileSettings → Option σ)
    (field : σ → Option α) : Option α :=
  (file.bind part).bind field

/-- What the file says of the job that keeps machines up to date. -/
def saidOfJob {α : Type} (file : Option FileSettings) (field : JobSection → Option α) : Option α :=
  (said file FileSettings.jobs JobsSection.vmUpdateStatus).bind field

def keepsInMemory (flags : Flags) (file : Option FileSettings) : Bool :=
  (said file FileSettings.central CentralSection.inMemory).getD flags.inMemory

def databasePath (flags : Flags) (file : Option FileSettings) : Option String :=
  (said file FileSettings.central CentralSection.dbPath).or flags.dbPath

/-- All settings, whether they are of use or not. -/
def merged (flags : Flags) (file : Option FileSettings) : Settings where
  runtime := {
    healthCheckMillis := (said file FileSettings.runtime RuntimeSection.healthCheckMillis).getD
      RuntimeSettings.default.healthCheckMillis
    scanMillis := ((said file FileSettings.runtime RuntimeSection.scanMillis).or flags.scanMillis).getD
      RuntimeSettings.default.scanMillis }
  central := {
    dbPath := if keepsInMemory flags file then none else databasePath flags file
    adminUsername := (said file FileSettings.central CentralSection.adminUsername).getD
      CentralSettings.default.adminUsername
    adminPassword := (said file FileSettings.central CentralSection.adminPassword).getD
      CentralSettings.default.adminPassword }
  worker := {
    disabled := (said file FileSettings.worker WorkerSection.disabled).getD
      WorkerSettings.default.disabled
    poolSize := (said file FileSettings.worker WorkerSection.poolSize).getD
      WorkerSettings.default.poolSize
    latencyMillis := (said file FileSettings.worker WorkerSection.latencyMillis).getD
      WorkerSettings.default.latencyMillis
    requestTimeoutMillis := (said file FileSettings.worker WorkerSection.requestTimeoutMillis).getD
      WorkerSettings.default.requestTimeoutMillis }
  jobs := { vmUpdateStatus := {
    disabled := (saidOfJob file JobSection.disabled).getD JobSettings.default.disabled
    periodMillis := (saidOfJob file JobSection.periodMillis).getD JobSettings.default.periodMillis } }

/-- The records are kept in memory, or in a database under a path that is not that of a directory. -/
def HasDatabase (isDirectory : String → Bool) (flags : Flags) (file : Option FileSettings) : Prop :=
  keepsInMemory flags file = true ∨
    ∃ path, databasePath flags file = some path ∧ isDirectory path = false

/-- What has to be of use in any settings. -/
structure Settings.Sound (s : Settings) : Prop where
  scan : s.runtime.scanMillis ≠ 0
  administrator : Text.isBlank s.central.adminUsername = false
  pool : 1 ≤ s.worker.poolSize ∧ s.worker.poolSize ≤ 1024
  timeout : s.worker.requestTimeoutMillis ≠ 0
  job : s.jobs.vmUpdateStatus.disabled = true ∨ s.jobs.vmUpdateStatus.periodMillis ≠ 0

/-- What is said nowhere else is of use. -/
theorem default_sound : Settings.default.Sound := by
  constructor <;> decide +kernel

/-! ## One part after another -/

/-- What follows upon a requirement is returned exactly when that is met. -/
theorem require_bind_iff {β : Type} (condition : Bool) (cause : Invalid) (next : Except Invalid β)
    (b : β) : (require condition cause >>= fun _ => next) = .ok b ↔ condition = true ∧ next = .ok b := by
  rw [then_eq_ok_iff, require_eq_ok_iff condition cause]

section

variable (isDirectory : String → Bool) (flags : Flags) (file : Option FileSettings)

/-! A part that the file leaves out says nothing, as does a file that is left out. -/

theorem resolveRuntime_iff (s : RuntimeSettings) :
    resolveRuntime flags ((file.getD .empty).runtime.getD .empty) = .ok s ↔
      (merged flags file).runtime.scanMillis ≠ 0 ∧ (merged flags file).runtime = s := by
  have hmerged : resolveRuntime flags ((file.getD .empty).runtime.getD .empty) = (do
      require ((merged flags file).runtime.scanMillis ≠ 0) .scanPeriodZero
      .ok (merged flags file).runtime) := by
    rcases file with _ | ⟨_ | _, _, _, _⟩ <;> rfl
  rw [hmerged, require_bind_iff, decide_eq_true_eq, Except.ok.injEq]

/-- Without a directory at its path the database is that of the settings. -/
theorem resolveDatabase_iff (dbPath : Option String) :
    resolveDatabase isDirectory flags ((file.getD .empty).central.getD .empty) = .ok dbPath ↔
      HasDatabase isDirectory flags file ∧ (merged flags file).central.dbPath = dbPath := by
  have hkeeps : ((file.getD .empty).central.getD .empty).inMemory.getD flags.inMemory =
      keepsInMemory flags file := by
    rcases file with _ | ⟨_, _ | _, _, _⟩ <;> rfl
  have hplace : ((file.getD .empty).central.getD .empty).dbPath.or flags.dbPath =
      databasePath flags file := by
    rcases file with _ | ⟨_, _ | _, _, _⟩ <;> rfl
  rw [resolveDatabase, hkeeps, hplace, HasDatabase]
  dsimp only [merged]
  cases hmemory : keepsInMemory flags file with
  | true => simp
  | false =>
    cases hpath : databasePath flags file with
    | none => simp
    | some path =>
      cases hdirectory : isDirectory path with
      | true => simp [hdirectory]
      | false => simp [hdirectory]

theorem resolveCentral_iff (s : CentralSettings) :
    resolveCentral isDirectory flags ((file.getD .empty).central.getD .empty) = .ok s ↔
      HasDatabase isDirectory flags file ∧
        Text.isBlank (merged flags file).central.adminUsername = false ∧
        (merged flags file).central = s := by
  have hmerged : resolveCentral isDirectory flags ((file.getD .empty).central.getD .empty) = (do
      let dbPath ← resolveDatabase isDirectory flags ((file.getD .empty).central.getD .empty)
      require (!Text.isBlank (merged flags file).central.adminUsername) .blankAdmin
      .ok { (merged flags file).central with dbPath }) := by
    rcases file with _ | ⟨_, _ | _, _, _⟩ <;> rfl
  rw [hmerged, bind_eq_ok_iff]
  simp only [resolveDatabase_iff, require_bind_iff, Bool.not_eq_true', Except.ok.injEq]
  constructor
  · rintro ⟨_, ⟨hdatabase, rfl⟩, hname, rfl⟩
    exact ⟨hdatabase,hname,rfl⟩
  · rintro ⟨hdatabase, hname, rfl⟩
    exact ⟨_,⟨hdatabase,rfl⟩,hname,rfl⟩

theorem resolveWorker_iff (s : WorkerSettings) :
    resolveWorker ((file.getD .empty).worker.getD .empty) = .ok s ↔
      (1 ≤ (merged flags file).worker.poolSize ∧ (merged flags file).worker.poolSize ≤ 1024) ∧
        (merged flags file).worker.requestTimeoutMillis ≠ 0 ∧ (merged flags file).worker = s := by
  have hmerged : resolveWorker ((file.getD .empty).worker.getD .empty) = (do
      require (1 ≤ (merged flags file).worker.poolSize &&
        (merged flags file).worker.poolSize ≤ maxPoolSize) .poolSize
      require ((merged flags file).worker.requestTimeoutMillis ≠ 0) .requestTimeoutZero
      .ok (merged flags file).worker) := by
    rcases file with _ | ⟨_, _, _ | _, _⟩ <;> rfl
  rw [hmerged, require_bind_iff, require_bind_iff, Bool.and_eq_true, decide_eq_true_eq,
    decide_eq_true_eq, decide_eq_true_eq, Except.ok.injEq, maxPoolSize]

theorem resolveJobs_iff (s : JobsSettings) :
    resolveJobs ((file.getD .empty).jobs.getD .empty) = .ok s ↔
      ((merged flags file).jobs.vmUpdateStatus.disabled = true ∨
        (merged flags file).jobs.vmUpdateStatus.periodMillis ≠ 0) ∧ (merged flags file).jobs = s := by
  have hmerged : resolveJobs ((file.getD .empty).jobs.getD .empty) = (do
      require ((merged flags file).jobs.vmUpdateStatus.disabled ||
        (merged flags file).jobs.vmUpdateStatus.periodMillis ≠ 0) .jobPeriodZero
      .ok (merged flags file).jobs) := by
    rcases file with _ | ⟨_, _, _, _ | ⟨_ | _⟩⟩ <;> rfl
  rw [hmerged, require_bind_iff, Bool.or_eq_true, decide_eq_true_eq, Except.ok.injEq]

/-! ## All of them -/

/-- Settings are admitted when they are of use, and then as they stand. -/
theorem resolve_iff (s : Settings) :
    resolve isDirectory flags (file.getD .empty) = .ok s ↔
      (HasDatabase isDirectory flags file ∧ (merged flags file).Sound) ∧ merged flags file = s := by
  unfold resolve
  simp only [bind_eq_ok_iff, resolveRuntime_iff, resolveCentral_iff, resolveWorker_iff flags,
    resolveJobs_iff flags, Except.ok.injEq]
  constructor
  · rintro ⟨_, ⟨hscan, rfl⟩, _, ⟨hdatabase, hname, rfl⟩, _, ⟨hpool, htimeout, rfl⟩, _, ⟨hjob, rfl⟩, rfl⟩
    exact ⟨⟨hdatabase,hscan,hname,hpool,htimeout,hjob⟩,rfl⟩
  · rintro ⟨⟨hdatabase, hscan, hname, hpool, htimeout, hjob⟩, rfl⟩
    exact ⟨_,⟨hscan,rfl⟩,_,⟨hdatabase,hname,rfl⟩,_,⟨hpool,htimeout,rfl⟩,_,⟨hjob,rfl⟩,rfl⟩

/-- Where there is a place for the records, it is the memory when no database is named. -/
theorem dbPath_eq_none_iff (h : HasDatabase isDirectory flags file) :
    (merged flags file).central.dbPath = none ↔ keepsInMemory flags file = true := by
  dsimp only [merged]
  rcases h with hmemory | ⟨path, hpath, -⟩
  · simp [hmemory]
  · simp [hpath]

end

/-- Settings that are read when everything starts, or when the watcher reloads. -/
inductive Admitted : Settings → Prop
  | loaded (disk : Disk) (flags : Flags) (path : Option String) (s : Settings)
      (h : load disk flags path = .ok s) : Admitted s
  | reloaded (w w' : Watcher) (disk : Disk) (n n' : Notifier) (parts : List Part)
      (h : w.reload disk n = .ok (parts, w', n')) : Admitted w'.current

theorem ok_of_mapError {ε ε' α : Type} (x : Except ε α) (f : ε → ε') (a : α)
    (h : x.mapError f = .ok a) : x = .ok a := by
  cases x with
  | error e => cases h
  | ok b =>
    cases h
    rfl

/-- What is loaded has been resolved, from a file or from none. -/
theorem load_resolved (disk : Disk) (flags : Flags) (path : Option String) (s : Settings)
    (h : load disk flags path = .ok s) :
    ∃ file, resolve disk.isDirectory flags (Option.getD file .empty) = .ok s := by
  cases path with
  | none => exact ⟨none,ok_of_mapError _ _ s h⟩
  | some path =>
    obtain ⟨file, -, hfile⟩ := (bind_eq_ok_iff _ _ _).mp h
    exact ⟨some file,ok_of_mapError _ _ s hfile⟩

theorem Admitted.sound {s : Settings} (h : Admitted s) : s.Sound := by
  have hloaded : ∃ disk flags path, load disk flags path = .ok s := by
    cases h with
    | loaded disk flags path _ h => exact ⟨disk,flags,path,h⟩
    | reloaded w w' disk n n' parts h => exact ⟨disk,w.flags,_,w.current_of_reload disk n _ h⟩
  obtain ⟨disk, flags, path, hload⟩ := hloaded
  obtain ⟨file, hresolved⟩ := load_resolved disk flags path s hload
  obtain ⟨⟨-, hsound⟩, rfl⟩ := (resolve_iff _ _ _ s).mp hresolved
  exact hsound

end VmFleet.Config
