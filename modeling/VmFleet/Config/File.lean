import VmFleet.Toml.Document

/-!
# Settings as a file gives them

Every setting may be left out of the file. A setting of the wrong type makes the whole file
unusable, while sections and settings of other names are passed over.
-/

set_option autoImplicit false

namespace VmFleet.Config

open Toml

structure RuntimeSection where
  healthCheckMillis : Option Nat
  scanMillis : Option Nat
  deriving DecidableEq, Repr

structure CentralSection where
  dbPath : Option String
  inMemory : Option Bool
  adminUsername : Option String
  adminPassword : Option String
  deriving DecidableEq, Repr

structure WorkerSection where
  disabled : Option Bool
  poolSize : Option Nat
  latencyMillis : Option Nat
  requestTimeoutMillis : Option Nat
  deriving DecidableEq, Repr

structure JobSection where
  disabled : Option Bool
  periodMillis : Option Nat
  deriving DecidableEq, Repr

structure JobsSection where
  vmUpdateStatus : Option JobSection
  deriving DecidableEq, Repr

structure FileSettings where
  runtime : Option RuntimeSection
  central : Option CentralSection
  worker : Option WorkerSection
  jobs : Option JobsSection
  deriving DecidableEq, Repr

def RuntimeSection.empty : RuntimeSection := ⟨none, none⟩

def CentralSection.empty : CentralSection := ⟨none, none, none, none⟩

def WorkerSection.empty : WorkerSection := ⟨none, none, none, none⟩

def JobSection.empty : JobSection := ⟨none, none⟩

def JobsSection.empty : JobsSection := ⟨none⟩

def FileSettings.empty : FileSettings := ⟨none, none, none, none⟩

def RuntimeSection.ofValue? (v : Value) : Option RuntimeSection := do
  let es ← v.fields ["health_check_period_ms", "config_scan_period_ms"]
  let healthCheckMillis ← field? es "health_check_period_ms" Value.nat?
  let scanMillis ← field? es "config_scan_period_ms" Value.nat?
  some ⟨healthCheckMillis, scanMillis⟩

def CentralSection.ofValue? (v : Value) : Option CentralSection := do
  let es ← v.fields ["db_path", "in_memory", "admin_username", "admin_password"]
  let dbPath ← field? es "db_path" Value.text?
  let inMemory ← field? es "in_memory" Value.bool?
  let adminUsername ← field? es "admin_username" Value.text?
  let adminPassword ← field? es "admin_password" Value.text?
  some ⟨dbPath, inMemory, adminUsername, adminPassword⟩

def WorkerSection.ofValue? (v : Value) : Option WorkerSection := do
  let es ← v.fields ["disabled", "pool_size", "provisioning_latency_ms", "request_timeout_ms"]
  let disabled ← field? es "disabled" Value.bool?
  let poolSize ← field? es "pool_size" Value.nat?
  let latencyMillis ← field? es "provisioning_latency_ms" Value.nat?
  let requestTimeoutMillis ← field? es "request_timeout_ms" Value.nat?
  some ⟨disabled, poolSize, latencyMillis, requestTimeoutMillis⟩

def JobSection.ofValue? (v : Value) : Option JobSection := do
  let es ← v.fields ["disabled", "period_millis"]
  let disabled ← field? es "disabled" Value.bool?
  let periodMillis ← field? es "period_millis" Value.nat?
  some ⟨disabled, periodMillis⟩

def JobsSection.ofValue? (v : Value) : Option JobsSection := do
  let es ← v.fields ["vm_update_status"]
  let vmUpdateStatus ← field? es "vm_update_status" JobSection.ofValue?
  some ⟨vmUpdateStatus⟩

def FileSettings.ofValue? (v : Value) : Option FileSettings := do
  let es ← v.fields ["runtime", "central", "cloud_worker", "jobs"]
  let runtime ← field? es "runtime" RuntimeSection.ofValue?
  let central ← field? es "central" CentralSection.ofValue?
  let worker ← field? es "cloud_worker" WorkerSection.ofValue?
  let jobs ← field? es "jobs" JobsSection.ofValue?
  some ⟨runtime, central, worker, jobs⟩

def FileSettings.parse (text : String) : Option FileSettings :=
  (Toml.parse text).bind FileSettings.ofValue?

end VmFleet.Config
