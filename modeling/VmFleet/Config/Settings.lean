import VmFleet.Config.File
import VmFleet.Text.Blank
import VmFleet.Text.FilePath
import VmFleet.Text.Quoted

/-!
# Resolved settings

Each setting is the file's value if there is one, else the command line's, else a default. Resolving
them checks that every period, limit and path can be used, in a fixed order, and reports the first
that cannot.
-/

set_option autoImplicit false

namespace VmFleet.Config

structure Flags where
  dbPath : Option String
  inMemory : Bool
  scanMillis : Option Nat
  deriving DecidableEq, Repr

structure RuntimeSettings where
  /-- Zero turns the health check off. -/
  healthCheckMillis : Nat
  scanMillis : Nat
  deriving DecidableEq, Repr

structure CentralSettings where
  /-- Without a path the records are kept in memory. -/
  dbPath : Option String
  adminUsername : String
  adminPassword : String
  deriving DecidableEq, Repr

/-- The same settings, however the path is written. -/
def CentralSettings.Same (a b : CentralSettings) : Prop :=
  a.dbPath.map Text.FilePath.parts = b.dbPath.map Text.FilePath.parts ∧
    a.adminUsername = b.adminUsername ∧ a.adminPassword = b.adminPassword

instance (a b : CentralSettings) : Decidable (a.Same b) := inferInstanceAs (Decidable (_ ∧ _))

structure WorkerSettings where
  disabled : Bool
  /-- How many machines are provisioned at once. -/
  poolSize : Nat
  latencyMillis : Nat
  /-- The longest that a request may wait for its reply. -/
  requestTimeoutMillis : Nat
  deriving DecidableEq, Repr

structure JobSettings where
  disabled : Bool
  periodMillis : Nat
  deriving DecidableEq, Repr

structure JobsSettings where
  vmUpdateStatus : JobSettings
  deriving DecidableEq, Repr

structure Settings where
  runtime : RuntimeSettings
  central : CentralSettings
  worker : WorkerSettings
  jobs : JobsSettings
  deriving DecidableEq, Repr

def RuntimeSettings.default : RuntimeSettings := ⟨30000, 5000⟩

def CentralSettings.default : CentralSettings := ⟨none, "admin", "vmcentral"⟩

def WorkerSettings.default : WorkerSettings := ⟨false, 4, 3000, 10000⟩

def JobSettings.default : JobSettings := ⟨false, 10000⟩

def JobsSettings.default : JobsSettings := ⟨.default⟩

def Settings.default : Settings := ⟨.default, .default, .default, .default⟩

def maxPoolSize : Nat := 1024

inductive Invalid where
  | scanPeriodZero
  | noDatabase
  | databaseIsDirectory (path : String)
  | blankAdmin
  | poolSize
  | requestTimeoutZero
  | jobPeriodZero
  deriving DecidableEq, Repr

def Invalid.message : Invalid → String
  | .scanPeriodZero => "config_scan_period_ms must be greater than 0"
  | .noDatabase => "db_path must be specified via --db-path or in config file, or use --in-memory"
  | .databaseIsDirectory path => s!"db_path is a directory: {Text.Quoted.quotePath path}"
  | .blankAdmin => "admin_username must not be empty"
  | .poolSize => s!"cloud_worker.pool_size must be between 1 and {maxPoolSize}"
  | .requestTimeoutZero => "cloud_worker.request_timeout_ms must be greater than 0"
  | .jobPeriodZero => "jobs.vm_update_status.period_millis must be greater than 0"

inductive ReadFailure where
  | missing
  | directory
  deriving DecidableEq, Repr

def ReadFailure.message : ReadFailure → String
  | .missing => "No such file or directory (os error 2)"
  | .directory => "Is a directory (os error 21)"

inductive ConfigError where
  | unreadable (path : String) (failure : ReadFailure)
  | malformed (path : String)
  | invalid (cause : Invalid)
  deriving DecidableEq, Repr

def ConfigError.message : ConfigError → String
  | .unreadable path failure =>
    s!"Failed to read config file {Text.Quoted.quotePath path}: {failure.message}"
  | .malformed path => s!"Failed to parse config file {Text.Quoted.quotePath path}"
  | .invalid cause => s!"Invalid configuration: {cause.message}"

def require (condition : Bool) (cause : Invalid) : Except Invalid Unit :=
  if condition then .ok () else .error cause

theorem require_eq_ok_iff (condition : Bool) (cause : Invalid) :
    require condition cause = .ok () ↔ condition = true := by
  unfold require
  split <;> simp_all

def resolveRuntime (flags : Flags) (file : RuntimeSection) : Except Invalid RuntimeSettings := do
  let s : RuntimeSettings :=
    ⟨file.healthCheckMillis.getD RuntimeSettings.default.healthCheckMillis,
     (file.scanMillis.or flags.scanMillis).getD RuntimeSettings.default.scanMillis⟩
  require (s.scanMillis ≠ 0) .scanPeriodZero
  .ok s

/-- The path of the database, or none when the records are kept in memory. -/
def resolveDatabase (isDirectory : String → Bool) (flags : Flags) (file : CentralSection) :
    Except Invalid (Option String) :=
  if file.inMemory.getD flags.inMemory then .ok none
  else match file.dbPath.or flags.dbPath with
    | none => .error .noDatabase
    | some path =>
      if isDirectory path then .error (.databaseIsDirectory path) else .ok (some path)

def resolveCentral (isDirectory : String → Bool) (flags : Flags) (file : CentralSection) :
    Except Invalid CentralSettings := do
  let dbPath ← resolveDatabase isDirectory flags file
  let s : CentralSettings :=
    ⟨dbPath, file.adminUsername.getD CentralSettings.default.adminUsername,
     file.adminPassword.getD CentralSettings.default.adminPassword⟩
  require (!Text.isBlank s.adminUsername) .blankAdmin
  .ok s

def resolveWorker (file : WorkerSection) : Except Invalid WorkerSettings := do
  let d := WorkerSettings.default
  let s : WorkerSettings :=
    ⟨file.disabled.getD d.disabled, file.poolSize.getD d.poolSize,
     file.latencyMillis.getD d.latencyMillis,
     file.requestTimeoutMillis.getD d.requestTimeoutMillis⟩
  require (1 ≤ s.poolSize && s.poolSize ≤ maxPoolSize) .poolSize
  require (s.requestTimeoutMillis ≠ 0) .requestTimeoutZero
  .ok s

def resolveJobs (file : JobsSection) : Except Invalid JobsSettings := do
  let job := file.vmUpdateStatus.getD .empty
  let s : JobSettings :=
    ⟨job.disabled.getD JobSettings.default.disabled,
     job.periodMillis.getD JobSettings.default.periodMillis⟩
  require (s.disabled || s.periodMillis ≠ 0) .jobPeriodZero
  .ok ⟨s⟩

/-- The settings of a file, or of none, under the command line's flags. -/
def resolve (isDirectory : String → Bool) (flags : Flags) (file : FileSettings) :
    Except Invalid Settings := do
  let runtime ← resolveRuntime flags (file.runtime.getD .empty)
  let central ← resolveCentral isDirectory flags (file.central.getD .empty)
  let worker ← resolveWorker (file.worker.getD .empty)
  let jobs ← resolveJobs (file.jobs.getD .empty)
  .ok ⟨runtime, central, worker, jobs⟩

structure Disk where
  isDirectory : String → Bool
  read : String → Except ReadFailure String

def loadFile (disk : Disk) (path : String) : Except ConfigError FileSettings :=
  match disk.read path with
  | .error failure => .error (.unreadable path failure)
  | .ok text =>
    match FileSettings.parse text with
    | none => .error (.malformed path)
    | some file => .ok file

/-- Reads the file, if one is named, and resolves its settings. -/
def load (disk : Disk) (flags : Flags) (path : Option String) : Except ConfigError Settings := do
  let file ← match path with
    | none => .ok FileSettings.empty
    | some path => loadFile disk path
  (resolve disk.isDirectory flags file).mapError .invalid

end VmFleet.Config
