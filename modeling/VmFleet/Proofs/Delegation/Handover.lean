import Mathlib.Data.List.Induction
import Mathlib.Logic.Function.Basic
import VmFleet.Delegation.Worker
import VmFleet.Jobs.Board

/-!
# Workers that follow each other

Any number of workers may share one exchange. Each of them registers its two channels one after the
other, serves them, and unregisters them one after the other when it goes; steps of different workers
may follow each other in any order. What a worker unregisters it only knows by name, so it also takes
a channel away from another worker that has registered it meanwhile.
-/

set_option autoImplicit false

namespace VmFleet.Delegation

/-- What a worker does for others, each on a channel of its own. -/
inductive Service where
  | create
  | health
  deriving DecidableEq, Repr

def Service.channel : Service → String
  | .create => resourceCreate
  | .health => workerHealthcheck

theorem Service.channel_injective : Function.Injective channel := by
  intro s t h
  cases s <;> cases t <;> first | rfl | exact absurd h (by decide)

/-- What a worker may turn to next. -/
inductive Cue where
  | stop
  | mailbox (s : Service)

/-- Of all that has come to it, a worker may turn to anything first. -/
def Worker.heed (w : Worker) (x : Exchange) : Cue → Worker.Move × Exchange
  | .stop => if w.isStopping then (.leave, w.leave x) else (.wait, x)
  | .mailbox .create =>
    match x.take w.createBox with
    | (.request r, x) => (.dispatch { w with errands := w.errands ++ [⟨r, .taken⟩] }, x)
    | (.closed, x) => (.leave, w.leave x)
    | (.nothing, x) => (.wait, x)
  | .mailbox .health =>
    match x.take w.healthBox with
    | (.request r, x) => (.answer, x.reply r.ticket (.ok (.str pong)))
    | (.closed, x) => (.leave, w.leave x)
    | (.nothing, x) => (.wait, x)

/-- A worker, by how far it is. -/
inductive Post where
  /-- It has registered the first of its channels. -/
  | opening (createBox poolSize latencyMillis : Nat) (fault : Option String) (isStopping : Bool)
  | serving (w : Worker)
  /-- It has unregistered the first of its channels. -/
  | leaving (w : Worker)
  | gone (w : Worker)

namespace Post

/-- The mailbox of a service, from its registration until the worker goes off it. -/
def box? : Post → Service → Option Nat
  | .opening box _ _ _ _, .create => some box
  | .opening _ _ _ _ _, .health => none
  | .serving w, .create => some w.createBox
  | .serving w, .health => some w.healthBox
  | .leaving _, .create => none
  | .leaving w, .health => some w.healthBox
  | .gone _, _ => none

def worker? : Post → Option Worker
  | .opening _ _ _ _ _ => none
  | .serving w => some w
  | .leaving w => some w
  | .gone w => some w

def onWorker (f : Worker → Worker) : Post → Post
  | .opening box poolSize latency fault isStopping => .opening box poolSize latency fault isStopping
  | .serving w => .serving (f w)
  | .leaving w => .leaving (f w)
  | .gone w => .gone (f w)

def stop : Post → Post
  | .opening box poolSize latency fault _ => .opening box poolSize latency fault true
  | p => p.onWorker fun w => { w with isStopping := true }

end Post

structure Hall where
  exchange : Exchange
  posts : List Post
  /-- Who registered the channel of a service last. -/
  latest : Service → Option Nat

namespace Hall

inductive Move where
  | start (poolSize latencyMillis : Nat) (fault : Option String)
  /-- A worker that has started registers its second channel. -/
  | listen (number : Nat)
  | stop (number : Nat)
  /-- A worker serves a request, or begins to go and unregisters its first channel. -/
  | act (number : Nat) (cue : Cue)
  /-- A worker that goes unregisters its second channel and is off. -/
  | depart (number : Nat)
  | errand (number errand now : Nat)
  | reconfigure (number : Nat) (change : Config.Change Config.WorkerSettings)
  | send (channel : String) (payload : Json)
  | enter (p : Exchange.Pending)
  | finish (p : Exchange.Pending)

def new : Hall := ⟨.empty, [], fun _ => none⟩

def step? (h : Hall) : Move → Option Hall
  | .start poolSize latency fault =>
    let (box, x) := h.exchange.register resourceCreate
    some ⟨x, h.posts ++ [.opening box poolSize latency fault false],
      Function.update h.latest .create (some h.posts.length)⟩
  | .listen n =>
    match h.posts[n]? with
    | some (.opening createBox poolSize latency fault isStopping) =>
      let (box, x) := h.exchange.register workerHealthcheck
      some ⟨x,
        h.posts.set n (.serving
          ⟨createBox, box, poolSize, latency, fault, isStopping, [], [], []⟩),
        Function.update h.latest .health (some n)⟩
    | _ => none
  | .stop n => some { h with posts := h.posts.modify n Post.stop }
  | .act n cue =>
    match h.posts[n]? with
    | some (.serving w) =>
      match w.heed h.exchange cue with
      | (.dispatch next, x) =>
        some { h with exchange := x, posts := h.posts.set n (.serving next) }
      | (.answer, x) => some { h with exchange := x }
      | (.wait, _) => none
      | (.leave, _) =>
        some { h with
          exchange := h.exchange.unregister resourceCreate
          posts := h.posts.set n (.leaving w) }
    | _ => none
  | .depart n =>
    match h.posts[n]? with
    | some (.leaving w) =>
      some { h with
        exchange := ((h.exchange.unregister workerHealthcheck).close w.createBox).close w.healthBox
        posts := h.posts.set n (.gone w) }
    | _ => none
  | .errand n errand now => do
    let p ← h.posts[n]?
    let w ← p.worker?
    let (next, x) ← w.advance errand now h.exchange
    return { h with exchange := x, posts := h.posts.set n (p.onWorker fun _ => next) }
  | .reconfigure n change =>
    some { h with posts := h.posts.modify n (Post.onWorker fun w => w.reconfigure change) }
  | .send channel payload => some { h with exchange := (h.exchange.send channel payload).2 }
  | .enter p => some { h with exchange := h.exchange.enter p }
  | .finish p => some { h with exchange := h.exchange.finish p }

def play (h : Hall) (move : Move) : Hall := (h.step? move).getD h

def after (h : Hall) (moves : List Move) : Hall := moves.foldl play h

/-- The mailbox of whoever registered the channel of a service last, unless it is off by now. -/
def holder? (h : Hall) (s : Service) : Option Nat := do
  let n ← h.latest s
  let p ← h.posts[n]?
  p.box? s

def route? (h : Hall) (s : Service) : Option Nat := h.exchange.routes.lookup s.channel

/-- Requests for the service go to the worker that registered it last until that worker goes. -/
def Kept (h : Hall) (s : Service) : Prop := ∀ box, h.holder? s = some box → h.route? s = some box

/-- The worker that goes off a service in this move. -/
def leaver? (h : Hall) (s : Service) (move : Move) : Option Nat :=
  match s, move with
  | .create, .act n cue =>
    match h.posts[n]? with
    | some (.serving w) =>
      match w.heed h.exchange cue with
      | (.leave, _) => some n
      | _ => none
    | _ => none
  | .health, .depart n =>
    match h.posts[n]? with
    | some (.leaving _) => some n
    | _ => none
  | _, _ => none

/-- A worker goes off a service that another has registered after it and still holds. -/
def Robs (h : Hall) (s : Service) (move : Move) : Prop :=
  ∃ n, h.leaver? s move = some n ∧ h.latest s ≠ some n ∧ (h.holder? s).isSome = true

end Hall

/-! ## What leaves the routes alone -/

theorem close_routes (x : Exchange) (number : Nat) : (x.close number).routes = x.routes := by
  have h : ∀ (tickets : List Nat) (y : Exchange), (y.loseAll tickets).routes = y.routes := by
    intro tickets
    induction tickets with
    | nil => exact fun y => rfl
    | cons ticket tickets ih => exact fun y => ih (y.lose ticket)
  exact h _ _

theorem take_routes (x : Exchange) (number : Nat) : (x.take number).2.routes = x.routes := by
  unfold Exchange.take
  split
  · rfl
  · split <;> rfl

theorem send_routes (x : Exchange) (channel : String) (payload : Json) :
    (x.send channel payload).2.routes = x.routes := by
  unfold Exchange.send
  split
  · rfl
  · split <;> rfl

/-- An errand that goes on replies at most. -/
theorem advance_routes (w next : Worker) (errand now : Nat) (x y : Exchange)
    (h : w.advance errand now x = some (next, y)) :
    y.routes = x.routes ∧ next.createBox = w.createBox ∧ next.healthBox = w.healthBox := by
  unfold Worker.advance at h
  split at h
  · cases h
  · split at h
    · split at h
      · cases h
        exact ⟨rfl,rfl,rfl⟩
      · cases h
        unfold Worker.acquire
        split <;> exact ⟨rfl,rfl,rfl⟩
    · split at h
      · split at h
        · cases h
          exact ⟨rfl,rfl,rfl⟩
        · cases h
          exact ⟨rfl,rfl,rfl⟩
      · cases h
    · split at h
      · cases h
        exact ⟨rfl,rfl,rfl⟩
      · cases h
    · cases h

theorem take_eq_self (x y : Exchange) (number : Nat) (t : Exchange.Taking)
    (h : x.take number = (t, y)) (hnone : ∀ r, t ≠ .request r) : y = x := by
  unfold Exchange.take at h
  split at h
  · cases h
    exact absurd rfl (hnone _)
  · split at h <;> cases h <;> rfl

theorem heed_dispatch (w next : Worker) (x y : Exchange) (cue : Cue)
    (h : w.heed x cue = (.dispatch next, y)) :
    y.routes = x.routes ∧ next.createBox = w.createBox ∧ next.healthBox = w.healthBox := by
  unfold Worker.heed at h
  split at h
  · split at h <;> cases h
  · have htake := take_routes x w.createBox
    split at h
    · rename_i r z hz
      cases h
      rw [hz] at htake
      exact ⟨htake,rfl,rfl⟩
    · cases h
    · cases h
  · split at h <;> cases h

theorem heed_answer (w : Worker) (x y : Exchange) (cue : Cue) (h : w.heed x cue = (.answer, y)) :
    y.routes = x.routes := by
  unfold Worker.heed at h
  split at h
  · split at h <;> cases h
  · split at h <;> cases h
  · have htake := take_routes x w.healthBox
    split at h
    · rename_i r z hz
      cases h
      rw [hz] at htake
      exact htake
    · cases h
    · cases h

theorem heed_leave (w : Worker) (x y : Exchange) (cue : Cue) (h : w.heed x cue = (.leave, y)) :
    y = w.leave x := by
  unfold Worker.heed at h
  split at h
  · split at h
    · cases h
      rfl
    · cases h
  · split at h
    · cases h
    · rename_i z hz
      cases h
      rw [take_eq_self x z _ _ hz (fun _ => Exchange.Taking.noConfusion)]
    · cases h
  · split at h
    · cases h
    · rename_i z hz
      cases h
      rw [take_eq_self x z _ _ hz (fun _ => Exchange.Taking.noConfusion)]
    · cases h

/-- A worker that follows the order of `Worker.move` turns to one of its cues. -/
theorem move_eq_heed (w : Worker) (x : Exchange) : ∃ cue, w.move x = w.heed x cue := by
  unfold Worker.move
  split
  · rename_i hstop
    exact ⟨.stop,by simp only [Worker.heed, hstop, if_true]⟩
  · split
    · rename_i r z hz
      exact ⟨.mailbox .create,by simp only [Worker.heed, hz]⟩
    · rename_i z hz
      refine ⟨.mailbox .create,?_⟩
      simp only [Worker.heed, hz]
    · rename_i z hz
      rw [take_eq_self x z _ _ hz (fun _ => Exchange.Taking.noConfusion)]
      exact ⟨.mailbox .health,rfl⟩

namespace Hall

variable {h h' : Hall} {s : Service}

/-! ## One move -/

theorem create_ne_health : Service.create ≠ .health := by decide

theorem route_register (x : Exchange) (s : Service) :
    (x.register s.channel).2.routes.lookup s.channel = some (x.register s.channel).1 :=
  x.lookup_routes_register s.channel

theorem route_register_of_ne (x : Exchange) {s t : Service} (hne : s ≠ t) :
    (x.register t.channel).2.routes.lookup s.channel = x.routes.lookup s.channel :=
  Jobs.lookup_insertEntry_of_ne (fun e => hne (Service.channel_injective e)) _ _

theorem route_unregister (x : Exchange) (s : Service) :
    (x.unregister s.channel).routes.lookup s.channel = none :=
  Jobs.lookup_eraseEntry_self _ _

theorem route_unregister_of_ne (x : Exchange) {s t : Service} (hne : s ≠ t) :
    (x.unregister t.channel).routes.lookup s.channel = x.routes.lookup s.channel :=
  Jobs.lookup_eraseEntry_of_ne (fun e => hne (Service.channel_injective e)) _

def boxAt (posts : List Post) (s : Service) (n : Nat) : Option Nat :=
  (posts[n]?).bind fun p => p.box? s

theorem boxAt_append (posts : List Post) (p : Post) (hp : p.box? s = none) (n : Nat) :
    boxAt (posts ++ [p]) s n = boxAt posts s n := by
  unfold boxAt
  rw [List.getElem?_append]
  split
  · rfl
  · rename_i hn
    rw [List.getElem?_eq_none (Nat.le_of_not_lt hn), List.getElem?_singleton]
    split
    · exact hp
    · rfl

theorem boxAt_set (posts : List Post) (k : Nat) (p q : Post) (hp : posts[k]? = some p)
    (hq : q.box? s = p.box? s) (n : Nat) : boxAt (posts.set k q) s n = boxAt posts s n := by
  unfold boxAt
  rw [List.getElem?_set]
  split
  · rename_i hk
    subst hk
    rw [if_pos (List.getElem?_eq_some_iff.mp hp).1, hp]
    exact hq
  · rfl

theorem boxAt_modify (posts : List Post) (k : Nat) (f : Post → Post)
    (hf : ∀ p, (f p).box? s = p.box? s) (n : Nat) :
    boxAt (posts.modify k f) s n = boxAt posts s n := by
  unfold boxAt
  rw [List.getElem?_modify]
  cases posts[n]? with
  | none => rfl
  | some p => by_cases hk : k = n <;> simp [hk, hf]

theorem box_onWorker (f : Worker → Worker)
    (hf : ∀ w, (f w).createBox = w.createBox ∧ (f w).healthBox = w.healthBox) (p : Post) :
    (p.onWorker f).box? s = p.box? s := by
  cases p <;> cases s <;> simp [Post.onWorker, Post.box?, hf]

theorem box_stop (p : Post) : p.stop.box? s = p.box? s := by
  cases p <;> cases s <;> rfl

/-- Who holds the service, and where requests for it go, is the same. -/
structure Same (s : Service) (h h' : Hall) : Prop where
  holder : h'.holder? s = h.holder? s
  route : h'.route? s = h.route? s

/-- A worker holds the service that has just registered it. -/
def Enrolled (h : Hall) (s : Service) : Prop :=
  ∃ box, h.holder? s = some box ∧ h.route? s = some box

theorem same_of_boxes (hlatest : h'.latest s = h.latest s)
    (hboxes : ∀ n, boxAt h'.posts s n = boxAt h.posts s n)
    (hroutes : h'.exchange.routes.lookup s.channel = h.exchange.routes.lookup s.channel) :
    Same s h h' := by
  refine ⟨?_, hroutes⟩
  unfold holder?
  rw [hlatest]
  cases h.latest s with
  | none => rfl
  | some n => exact hboxes n

theorem start_still (poolSize latency : Nat) (fault : Option String) :
    Same s h (h.play (.start poolSize latency fault)) ∨
      (h.play (.start poolSize latency fault)).Enrolled s := by
  cases s with
  | create =>
    right
    refine ⟨(h.exchange.register resourceCreate).1, ?_, route_register _ .create⟩
    simp [holder?, play, step?, Post.box?]
  | health =>
    left
    refine same_of_boxes ?_ (boxAt_append h.posts _ rfl) (route_register_of_ne _ create_ne_health.symm)
    exact Function.update_of_ne create_ne_health.symm (some h.posts.length) _

theorem listen_still (n : Nat) :
    Same s h (h.play (.listen n)) ∨ (h.play (.listen n)).Enrolled s := by
  simp only [play, step?]
  split
  · rename_i createBox poolSize latency fault isStopping hp
    cases s with
    | create =>
      left
      refine same_of_boxes ?_ (boxAt_set h.posts n _ _ hp rfl) (route_register_of_ne _ create_ne_health)
      exact Function.update_of_ne create_ne_health (some n) _
    | health =>
      right
      refine ⟨(h.exchange.register workerHealthcheck).1, ?_, route_register _ .health⟩
      have hn := (List.getElem?_eq_some_iff.mp hp).1
      simp [holder?, Post.box?, hn]
  · exact Or.inl ⟨rfl,rfl⟩

theorem act_still (n : Nat) (cue : Cue) (hstay : h.leaver? s (.act n cue) = none) :
    Same s h (h.play (.act n cue)) := by
  simp only [play, step?]
  split
  · rename_i w hp
    split
    · rename_i next x hmove
      obtain ⟨hroutes, hcreate, hhealth⟩ := heed_dispatch w next h.exchange x cue hmove
      refine same_of_boxes rfl (boxAt_set h.posts n _ _ hp ?_) (by rw [Option.getD_some, hroutes])
      cases s with
      | create => exact congrArg some hcreate
      | health => exact congrArg some hhealth
    · rename_i x hmove
      have hroutes := heed_answer w h.exchange x cue hmove
      exact same_of_boxes rfl (fun _ => rfl) (by rw [Option.getD_some, hroutes])
    · exact ⟨rfl,rfl⟩
    · rename_i x hmove
      cases s with
      | create => simp [leaver?, hp, hmove] at hstay
      | health =>
        exact same_of_boxes rfl (boxAt_set h.posts n _ _ hp rfl)
          (route_unregister_of_ne _ create_ne_health.symm)
  · exact ⟨rfl,rfl⟩

theorem depart_still (n : Nat) (hstay : h.leaver? s (.depart n) = none) :
    Same s h (h.play (.depart n)) := by
  simp only [play, step?]
  split
  · rename_i w hp
    cases s with
    | create =>
      refine same_of_boxes rfl (boxAt_set h.posts n _ _ hp rfl) ?_
      rw [Option.getD_some, close_routes, close_routes]
      exact route_unregister_of_ne _ create_ne_health
    | health => simp [leaver?, hp] at hstay
  · exact ⟨rfl,rfl⟩

theorem errand_still (n errand now : Nat) : Same s h (h.play (.errand n errand now)) := by
  cases hs : h.step? (.errand n errand now) with
  | none =>
    simp only [play, hs]
    exact ⟨rfl,rfl⟩
  | some h' =>
    simp only [play, hs]
    simp only [step?, Option.bind_eq_bind, Option.bind_eq_some_iff] at hs
    obtain ⟨p, hp, w, hw, ⟨next, x⟩, hadvance, hs⟩ := hs
    cases hs
    obtain ⟨hroutes, hcreate, hhealth⟩ := advance_routes w next errand now h.exchange x hadvance
    refine same_of_boxes rfl (boxAt_set h.posts n p _ hp ?_) (by rw [Option.getD_some, hroutes])
    cases p with
    | opening => cases hw
    | _ =>
      cases hw
      cases s <;> simp [Post.onWorker, Post.box?, hcreate, hhealth]

/-- Unless a worker goes off the service, everything about it is as before or a worker has just
registered it. -/
theorem play_still (move : Move) (hstay : h.leaver? s move = none) :
    Same s h (h.play move) ∨ (h.play move).Enrolled s := by
  cases move with
  | start poolSize latency fault => exact start_still poolSize latency fault
  | listen n => exact listen_still n
  | stop n => exact Or.inl (same_of_boxes rfl (boxAt_modify h.posts n _ box_stop) rfl)
  | act n cue => exact Or.inl (act_still n cue hstay)
  | depart n => exact Or.inl (depart_still n hstay)
  | errand n errand now => exact Or.inl (errand_still n errand now)
  | reconfigure n change =>
    refine Or.inl (same_of_boxes rfl (boxAt_modify h.posts n _ (box_onWorker _ ?_)) rfl)
    intro w
    unfold Worker.reconfigure
    split <;> exact ⟨rfl,rfl⟩
  | send channel payload =>
    refine Or.inl (same_of_boxes rfl (fun _ => rfl) ?_)
    simp only [play, step?, Option.getD_some, send_routes]
  | enter p => exact Or.inl ⟨rfl,rfl⟩
  | finish p => exact Or.inl ⟨rfl,rfl⟩

theorem leaver_cases (move : Move) (n : Nat) (hl : h.leaver? s move = some n) :
    ∃ p q, h.posts[n]? = some p ∧ q.box? s = none ∧ (h.play move).posts = h.posts.set n q ∧
      (h.play move).latest = h.latest ∧ (h.play move).route? s = none := by
  unfold leaver? at hl
  split at hl
  · split at hl
    · rename_i k cue w hp
      split at hl
      · rename_i x hmove
        cases hl
        refine ⟨_, .leaving w, hp, rfl, ?_⟩
        simp only [play, step?, hp, hmove, Option.getD_some]
        exact ⟨trivial,trivial,route_unregister _ .create⟩
      · cases hl
    · cases hl
  · split at hl
    · rename_i k w hp
      cases hl
      refine ⟨_, .gone w, hp, rfl, ?_⟩
      simp only [play, step?, hp, Option.getD_some]
      refine ⟨trivial, trivial, ?_⟩
      rw [route?, close_routes, close_routes]
      exact route_unregister _ .health
    · cases hl
  · cases hl

/-- Whoever goes off a service, requests for it go nowhere then. -/
theorem play_leaver (move : Move) (n : Nat) (hl : h.leaver? s move = some n) :
    (h.play move).route? s = none ∧
      (h.play move).holder? s = if h.latest s = some n then none else h.holder? s := by
  obtain ⟨p, q, hp, hq, hposts, hlatest, hroute⟩ := leaver_cases move n hl
  refine ⟨hroute, ?_⟩
  unfold holder?
  rw [hposts, hlatest]
  cases h.latest s with
  | none => rfl
  | some k =>
    have hn := (List.getElem?_eq_some_iff.mp hp).1
    by_cases hk : n = k
    · subst hk
      simp [hn, hq]
    · simp [hk, Ne.symm hk]

/-! ## Both steps in a row -/

theorem start_listen (h : Hall) (poolSize latency : Nat) (fault : Option String) :
    let started := Worker.start h.exchange poolSize latency fault
    ((h.play (.start poolSize latency fault)).play (.listen h.posts.length)).exchange = started.2 ∧
      ((h.play (.start poolSize latency fault)).play (.listen h.posts.length)).posts =
        h.posts ++ [.serving started.1] := by
  simp [play, step?, Worker.start]

theorem act_depart (h : Hall) (n : Nat) (cue : Cue) (w : Worker) (x : Exchange)
    (hp : h.posts[n]? = some (.serving w)) (hleave : w.heed h.exchange cue = (.leave, x)) :
    ((h.play (.act n cue)).play (.depart n)).exchange = x := by
  have hn := (List.getElem?_eq_some_iff.mp hp).1
  have hact : h.play (.act n cue) = { h with
      exchange := h.exchange.unregister resourceCreate, posts := h.posts.set n (.leaving w) } := by
    simp only [play, step?, hp, hleave, Option.getD_some]
  rw [heed_leave w h.exchange x cue hleave, hact]
  simp [play, step?, hn, Worker.leave]

/-! ## Any moves -/

theorem play_kept (move : Move) (hk : h.Kept s) (hr : ¬ h.Robs s move) : (h.play move).Kept s := by
  intro box hbox
  cases hl : h.leaver? s move with
  | none =>
    rcases play_still move hl with ⟨hholder, hroute⟩ | ⟨b, hholder, hroute⟩
    · rw [hroute]
      exact hk box (hholder.symm.trans hbox)
    · rw [hroute, ← hholder, hbox]
  | some n =>
    obtain ⟨-, hholder⟩ := play_leaver move n hl
    rw [hholder] at hbox
    split at hbox
    · cases hbox
    · rename_i hother
      exact (hr ⟨n,hl,hother,by rw [hbox]; rfl⟩).elim

theorem play_robs (move : Move) (hr : h.Robs s move) : ¬ (h.play move).Kept s := by
  obtain ⟨n, hl, hother, hheld⟩ := hr
  obtain ⟨hroute, hholder⟩ := play_leaver move n hl
  obtain ⟨box, hbox⟩ := Option.isSome_iff_exists.mp hheld
  intro hk
  have hgo := hk box (by rw [hholder, if_neg hother, hbox])
  rw [hroute] at hgo
  cases hgo

theorem after_concat (h : Hall) (moves : List Move) (move : Move) :
    h.after (moves ++ [move]) = (h.after moves).play move := by
  simp [after]

/-- However workers start and stop, requests for a service go to the worker that registered it last
until that worker goes, if and only if no other worker goes off the service meanwhile. -/
theorem kept_iff_never_robbed (s : Service) (moves : List Move) :
    (∀ done rest, moves = done ++ rest → (new.after done).Kept s) ↔
      ∀ done move rest, moves = done ++ move :: rest → ¬ (new.after done).Robs s move := by
  constructor
  · intro hkept done move rest hmoves hrobs
    apply play_robs move hrobs
    rw [← after_concat]
    exact hkept (done ++ [move]) rest (by rw [hmoves, List.append_assoc]; rfl)
  · intro hnever done
    induction done using List.reverseRecOn with
    | nil =>
      intro rest _ box hbox
      cases hbox
    | append_singleton done move ih =>
      intro rest hmoves
      rw [List.append_assoc] at hmoves
      rw [after_concat]
      exact play_kept move (ih _ hmoves) (hnever done move rest hmoves)

/-- The first worker finds its channel registered by the second, goes, and takes both channels away
from the second, which nobody has asked to stop. -/
theorem replaced_worker_robs :
    let h := new.after [.start 1 10 none, .listen 0, .start 1 10 none, .listen 1,
      .act 0 (.mailbox .create)]
    (h.holder? .create = some 2 ∧ h.route? .create = none) ∧
      (h.play (.depart 0)).holder? .health = some 3 ∧ (h.play (.depart 0)).route? .health = none ∧
      ((h.play (.depart 0)).posts.filterMap Post.worker?).map Worker.isStopping = [false, false] := by
  decide

end Hall
end VmFleet.Delegation
