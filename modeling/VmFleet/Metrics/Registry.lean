import VmFleet.Text.Shortest

/-!
# Counters and durations

A registry counts what was recorded: requests and tasks by outcome, and the ticks of jobs by outcome
and by duration. It is written as text, family by family and series by series in the order of their
names.
-/

set_option autoImplicit false

namespace VmFleet.Metrics

inductive Event where
  | request (channel outcome : String)
  | task (operation outcome : String)
  | tick (job outcome : String) (millis : Nat)
  deriving DecidableEq, Repr

/-- How often each pair of labels was counted, in the order of the labels. -/
abbrev Counts : Type := List ((String × String) × Nat)

namespace Counts

def comesBefore (a b : String × String) : Bool := a.1 < b.1 || a.1 == b.1 && a.2 < b.2

def bump (key : String × String) : Counts → Counts
  | [] => [(key, 1)]
  | entry :: rest =>
    if key = entry.1 then (key, entry.2 + 1) :: rest
    else if comesBefore key entry.1 then (key, 1) :: entry :: rest
    else entry :: bump key rest

end Counts

/-- The durations observed under each label, in the order of the labels, each list oldest first. -/
abbrev Durations : Type := List (String × List Nat)

def Durations.observe (label : String) (millis : Nat) : Durations → Durations
  | [] => [(label, [millis])]
  | entry :: rest =>
    if label = entry.1 then (label, entry.2 ++ [millis]) :: rest
    else if label < entry.1 then (label, [millis]) :: entry :: rest
    else entry :: observe label millis rest

structure Registry where
  requests : Counts
  tasks : Counts
  ticks : Counts
  tickDurations : Durations

def Registry.empty : Registry := ⟨[], [], [], []⟩

def Registry.record (r : Registry) : Event → Registry
  | .request channel outcome => { r with requests := r.requests.bump (channel, outcome) }
  | .task operation outcome => { r with tasks := r.tasks.bump (operation, outcome) }
  | .tick job outcome millis =>
    { r with
      ticks := r.ticks.bump (job, outcome)
      tickDurations := r.tickDurations.observe job millis }

def escapeLabelChar : Char → List Char
  | '\\' => ['\\', '\\']
  | '"' => ['\\', '"']
  | '\n' => ['\\', 'n']
  | c => [c]

def label (name value : String) : String :=
  name ++ "=\"" ++ String.ofList (value.toList.flatMap escapeLabelChar) ++ "\""

def line (name : String) (labels : List String) (value : String) : String :=
  name ++ "\x7b" ++ ",".intercalate labels ++ "\x7d " ++ value

/-- The lines of one family; a family without series has none. -/
def family (name help kind : String) (series : List String) : List String :=
  if series.isEmpty then []
  else ["# HELP " ++ name ++ " " ++ help, "# TYPE " ++ name ++ " " ++ kind] ++ series

def counterFamily (name help first : String) (counts : Counts) : List String :=
  family name help "counter" (counts.map fun entry =>
    line name [label first entry.1.1, label "outcome" entry.1.2] (toString entry.2))

/-- The upper bounds of the buckets in milliseconds, with the text of each in seconds. -/
def buckets : List (Nat × String) :=
  [(1, "0.001"), (10, "0.01"), (50, "0.05"), (100, "0.1"), (500, "0.5"), (1000, "1"), (5000, "5")]

/-- A duration in seconds: the whole seconds, and the rest in nanoseconds over a billion. -/
def inSeconds (millis : Nat) : Float :=
  Float.ofNat (millis / 1000) + Float.ofNat (millis % 1000 * 1000000) / 1e9

def totalSeconds (samples : List Nat) : Float :=
  samples.foldl (fun sum millis => sum + inSeconds millis) 0

def histogramLines (name first : String) (entry : String × List Nat) : List String :=
  let own := label first entry.1
  let count := toString entry.2.length
  (buckets.map fun b =>
    line (name ++ "_bucket") [own, label "le" b.2]
      (toString (entry.2.countP fun ms => ms ≤ b.1))) ++
  [line (name ++ "_bucket") [own, label "le" "+Inf"] count,
   line (name ++ "_sum") [own] (Text.Shortest.sumText (totalSeconds entry.2)),
   line (name ++ "_count") [own] count]

def Registry.render (r : Registry) : List String :=
  counterFamily "vm_central_delegation_requests_total" "Delegation requests by channel and outcome"
    "channel" r.requests ++
  family "vm_central_job_tick_duration_seconds" "Background job tick duration in seconds"
    "histogram"
    (r.tickDurations.flatMap (histogramLines "vm_central_job_tick_duration_seconds" "job_id")) ++
  counterFamily "vm_central_job_ticks_total" "Background job ticks by outcome" "job_id" r.ticks ++
  counterFamily "vm_central_task_executions_total" "Task executions by operation and outcome"
    "operation" r.tasks

end VmFleet.Metrics
