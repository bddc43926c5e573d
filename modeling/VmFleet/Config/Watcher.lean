import VmFleet.Config.Notifier

/-!
# Watching the configuration file

A watcher holds the settings in force. Each reload reads the file again; a file that cannot be read,
parsed or resolved changes nothing, any other takes effect and is announced.
-/

set_option autoImplicit false

namespace VmFleet.Config

structure Watcher where
  path : String
  flags : Flags
  current : Settings
  deriving DecidableEq, Repr

/-- Loads the file and publishes what differs from the settings in force. -/
def Watcher.reload (w : Watcher) (disk : Disk) (n : Notifier) :
    Except ConfigError (List Part × Watcher × Notifier) :=
  match load disk w.flags (some w.path) with
  | .error e => .error e
  | .ok next =>
    let r := n.publish (some w.current) next
    .ok (r.1, { w with current := next }, r.2)

def Watcher.refresh (w : Watcher) (disk : Disk) (n : Notifier) : Watcher × Notifier :=
  match w.reload disk n with
  | .error _ => (w, n)
  | .ok r => r.2

theorem Watcher.current_of_reload (w : Watcher) (disk : Disk) (n : Notifier)
    (r : List Part × Watcher × Notifier) (h : w.reload disk n = .ok r) :
    load disk w.flags (some w.path) = .ok r.2.1.current := by
  unfold Watcher.reload at h
  split at h
  · simp at h
  · next hl => cases h; exact hl

end VmFleet.Config
