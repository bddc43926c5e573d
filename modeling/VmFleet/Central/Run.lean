import VmFleet.Central.Step

/-!
# Running the central side

Activities that can go on do so one after the other, in the order in which they became able to. Time
stands still meanwhile; it moves only while somebody in the foreground waits, and then straight to
the next moment at which something is due. At such a moment the foreground goes on first.
-/

set_option autoImplicit false

namespace VmFleet.Central

namespace World

/-- Activities that waited and can go on now join the others that can. -/
def wake (w : World) : World :=
  { w with
    ready := w.ready ++ w.blocked.filter w.canStep
    blocked := w.blocked.filter fun a => !w.canStep a }

/-- The first activity that can go on takes a step; one that can still go on stays first. -/
def turn (w : World) : Option World :=
  match w.ready with
  | [] => none
  | a :: rest =>
    match { w with ready := rest }.step a with
    | (.again a, w) => some { w with ready := a :: w.ready }.wake
    | (.wait a, w) => some { w with blocked := w.blocked ++ [a] }.wake
    | (.over, w) => some w.wake

end World

/-- Somebody in the foreground: what they do when they can, and when they have what they want. -/
structure Foreground (σ : Type) where
  canAct : World → σ → Bool
  act : World → σ → World × σ
  isMet : World → σ → Bool
  due : σ → Option Nat

variable {σ : Type}

def earlier : Option Nat → Option Nat → Option Nat
  | some a, some b => some (min a b)
  | a, none => a
  | none, b => b

def nextDue (g : Foreground σ) (w : World) (s : σ) : Option Nat :=
  w.blocked.foldl (fun d a => earlier d (w.dueOf a)) (g.due s)

/-- Goes on until the foreground has what it wants and nothing else can go on without time passing,
in at most so many steps. `isFresh` tells that time has just moved. -/
def pursue (g : Foreground σ) : Nat → Bool → World → σ → World × σ
  | 0, _, w, s => (w, s)
  | steps + 1, isFresh, w, s =>
    if !g.isMet w s && g.canAct w s && (isFresh || w.ready.isEmpty) then
      let (w, s) := g.act w s
      pursue g steps false w.wake s
    else
      match w.turn with
      | some w => pursue g steps false w s
      | none =>
        if g.isMet w s then (w, s)
        else
          match nextDue g w s with
          | none => (w, s)
          | some time => pursue g steps true { w with now := max w.now time }.wake s

/-- More steps than any run in practice takes. -/
def patience : Nat := 10000000

def complete (g : Foreground σ) (w : World) (s : σ) : World × σ := pursue g patience false w.wake s

/-- Waits for nothing but that the activities have done what they can without time passing. -/
def quiet : Foreground Unit where
  canAct _ _ := false
  act w s := (w, s)
  isMet _ _ := true
  due _ := none

def World.settle (w : World) : World := (complete quiet w ()).1

inductive Front (α : Type) where
  | running (t : Thread α)
  | over (a : α)

namespace Front

variable {α : Type}

def act (w : World) : Front α → World × Front α
  | .over a => (w, .over a)
  | .running t =>
    match proceed false t.rest t.wait w with
    | (.over a, w) => (w, .over a)
    | (.wait t, w) => (w, .running t)

def isOver : Front α → Bool
  | .over _ => true
  | .running _ => false

def canAct (w : World) : Front α → Bool
  | .over _ => false
  | .running t => t.canProceed w

def due : Front α → Option Nat
  | .over _ => none
  | .running t => t.due

def result? : Front α → Option α
  | .over a => some a
  | .running _ => none

end Front

def foreground (α : Type) : Foreground (Front α) where
  canAct w f := f.canAct w
  act w f := f.act w
  isMet _ f := f.isOver
  due f := f.due

def World.perform {α : Type} (w : World) (p : Program α) : Option α × World :=
  let (w, f) := complete (foreground α) w (.running (.of p))
  (f.result?, w)

def waitFor (holds : World → Bool) : Foreground Unit where
  canAct _ _ := false
  act w s := (w, s)
  isMet w _ := holds w
  due _ := none

def World.await (w : World) (holds : World → Bool) : World := (complete (waitFor holds) w ()).1

def inquiryActivities (first : Nat) : List (Program Json) → List Activity
  | [] => []
  | p :: ps => .inquiry first (.of p) :: inquiryActivities (first + 1) ps

/-- Runs programs side by side, starting at the same moment and in order, until all are over. Each
result comes with the time that it took. -/
def World.inquire (w : World) (ps : List (Program Json)) : List (Option (Json × Nat)) × World :=
  let start := w.now
  let w := ({ w with inquiries := ps.map fun _ => none }.spawnAll (inquiryActivities 0 ps)).await
    fun w => w.inquiries.all Option.isSome
  (w.inquiries.map fun r => r.map fun r => (r.1, r.2 - start), w)

end VmFleet.Central
