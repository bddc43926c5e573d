import VmFleet.Central.Startup

/-!
# The command line

Loads the settings, starts the central side, and lets it follow the clock until the process ends.
-/

set_option autoImplicit false

namespace VmFleet.Main

open Config Central

structure Arguments where
  config : Option String
  flags : Flags

def Arguments.parse : Arguments → List String → Option Arguments
  | a, [] => some a
  | a, "--in-memory" :: rest => parse { a with flags := { a.flags with inMemory := true } } rest
  | a, "--config" :: path :: rest => parse { a with config := some path } rest
  | a, "--db-path" :: path :: rest =>
    parse { a with flags := { a.flags with dbPath := some path } } rest
  | a, "--config-scan-period-ms" :: n :: rest =>
    match n.toNat? with
    | some n => parse { a with flags := { a.flags with scanMillis := some n } } rest
    | none => none
  | _, _ => none

def usage : String :=
  "Usage: vm-fleet [--config PATH] [--db-path PATH] [--in-memory] [--config-scan-period-ms N]"

/-- What can be seen of one path now: whether it is a directory, and its text. -/
def lookAt (path : String) : IO (Bool × Except ReadFailure String) := do
  try
    let text ← IO.FS.readFile path
    return (false, .ok text)
  catch
    | .noFileOrDirectory _ _ _ => return (false, .error .missing)
    | _ => return (true, .error .directory)

def look (paths : List String) : IO Disk := do
  let seen ← paths.mapM fun path => return (path, ← lookAt path)
  return {
    isDirectory path := ((seen.lookup path).map Prod.fst).getD false
    read path := ((seen.lookup path).map Prod.snd).getD (.error .missing) }

def paths (a : Arguments) (disk : Disk) : List String :=
  let named := match (a.config.map disk.read).bind Except.toOption |>.bind FileSettings.parse with
    | some file => (file.central.bind CentralSection.dbPath).toList
    | none => []
  a.config.toList ++ a.flags.dbPath.toList ++ named

def stepMillis : Nat := 100

partial def follow (a : Arguments) (settings : Settings) (w : World) : IO Unit := do
  IO.sleep stepMillis.toUInt32
  let disk ← look (paths a w.disk)
  follow a settings ({ w with disk }.pass settings.runtime.healthCheckMillis stepMillis)

def run (a : Arguments) : IO UInt32 := do
  let disk ← look (paths a (← look a.config.toList))
  match load disk a.flags a.config with
  | .error e =>
    IO.eprintln s!"Error: Failed to load configuration: {e.message}"
    return 1
  | .ok settings =>
    let backend : Store.Backend := if settings.central.dbPath.isSome then .table else .memory
    let world := World.new (Store.Repository.seeded backend []).2
      (Store.Repository.seeded backend []).2 settings.worker.requestTimeoutMillis disk
    match world.start a.flags a.config settings with
    | .error e =>
      IO.eprintln s!"Error: Failed to bootstrap admin account: {e.message}"
      return 1
    | .ok world =>
      IO.println "Ready"
      follow a settings world
      return 0

end VmFleet.Main

def main (args : List String) : IO UInt32 :=
  match VmFleet.Main.Arguments.parse ⟨none, none, false, none⟩ args with
  | none => do
    IO.eprintln VmFleet.Main.usage
    return 2
  | some a => VmFleet.Main.run a
