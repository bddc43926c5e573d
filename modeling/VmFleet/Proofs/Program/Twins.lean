import VmFleet.Proofs.Tasks.Succession

/-!
# Programs that cannot tell two sets of records apart

A pact says which effects two programs may ask for and how much the answers to the one may differ from
those to the other. Programs are twins when they ask for the same effects nevertheless and end alike.
On records that uphold the pact, the same turns of twin tasks lead to the same results.
-/

set_option autoImplicit false

namespace VmFleet

structure Pact where
  allows : Effect → Prop
  alike : (e : Effect) → e.Answer → e.Answer → Prop

namespace Program

variable {α β : Type} {k : Pact}

/-- Both programs ask for the same effects, whatever they are answered alike, and end as wanted. -/
inductive Twins (k : Pact) (R : α → α → Prop) : Program α → Program α → Prop
  | done (a b : α) (h : R a b) : Twins k R (.done a) (.done b)
  | perform (e : Effect) (f g : e.Answer → Program α) (he : k.allows e)
      (h : ∀ a b, k.alike e a b → Twins k R (f a) (g b)) : Twins k R (.perform e f) (.perform e g)

theorem twins_bind {R : α → α → Prop} {S : β → β → Prop} {p q : Program α} {f g : α → Program β}
    (h : Twins k R p q) (hfg : ∀ a b, R a b → Twins k S (f a) (g b)) :
    Twins k S (p.bind f) (q.bind g) := by
  induction h with
  | done a b hab => exact hfg a b hab
  | perform e f' g' he _ ih => exact .perform e _ _ he ih

/-- A program is its own twin when no difference between answers makes a difference to it. -/
def Blind (k : Pact) (p : Program α) : Prop := Twins k Eq p p

theorem blind_bind {p : Program α} {f : α → Program β} (h : p.Blind k) (hf : ∀ a, (f a).Blind k) :
    (p.bind f).Blind k := by
  apply twins_bind h
  rintro a b rfl
  exact hf a

theorem blind_forget {p : Program α} (h : p.Blind k) : p.forget.Blind k :=
  blind_bind h fun _ => .done () () rfl

theorem blind_perform (e : Effect) (next : e.Answer → Program α) (he : k.allows e)
    (hsame : ∀ a b, k.alike e a b → a = b)
    (hnext : ∀ a, k.alike e a a → (next a).Blind k) : (Program.perform e next).Blind k := by
  refine .perform e next next he fun a b hab => ?_
  obtain rfl := hsame a b hab
  exact hnext a hab

end Program

namespace Tasks.Attempt

open Security Store

variable {α β : Type} {k : Pact}

theorem blind_bind (a : Attempt α) (f : α → Attempt β) (ha : a.run.Blind k)
    (hf : ∀ x, (f x).run.Blind k) : (a >>= f).run.Blind k := by
  rw [run_bind]
  apply Program.blind_bind ha
  intro r
  cases r with
  | ok x => exact hf x
  | error e => exact .done _ _ rfl

theorem blind_authorize (p : Principal) (o : Operation) (w : Ownership) (f : Unit → Attempt β)
    (hf : isAllowed p o w = true → (f ()).run.Blind k) : (authorize p o w >>= f).run.Blind k := by
  cases h : isAllowed p o w with
  | true =>
    rw [authorize_allowed p o w f h]
    exact hf h
  | false =>
    rw [authorize_denied p o w f h]
    exact .done _ _ rfl

theorem blind_accounts (call : Call Account) (f : call.Result → Attempt β)
    (he : k.allows (.accounts call)) (hsame : ∀ a b, k.alike (.accounts call) a b → a = b)
    (hf : ∀ x, k.alike (.accounts call) (.ok x) (.ok x) → (f x).run.Blind k) :
    (accounts call >>= f).run.Blind k := by
  rw [accounts_bind]
  refine Program.blind_perform _ _ he hsame fun answer halike => ?_
  cases answer with
  | ok x => exact hf x halike
  | error e => exact .done _ _ rfl

theorem blind_machines (call : Call Machine) (f : call.Result → Attempt β)
    (he : k.allows (.machines call)) (hsame : ∀ a b, k.alike (.machines call) a b → a = b)
    (hf : ∀ x, k.alike (.machines call) (.ok x) (.ok x) → (f x).run.Blind k) :
    (machines call >>= f).run.Blind k := by
  rw [machines_bind]
  refine Program.blind_perform _ _ he hsame fun answer halike => ?_
  cases answer with
  | ok x => exact hf x halike
  | error e => exact .done _ _ rfl

end Tasks.Attempt

/-- The records of two runs uphold the pact while they are related so: allowed effects are answered
alike, keep the records related and start the same work in the background, which keeps the pact. -/
def Pact.Upheld (k : Pact) (W : Records → Records → Prop) : Prop :=
  ∀ (s : Supply) (r r' : Records) (e : Effect), W r r' → k.allows e →
    k.alike e (r.respond s e).1 (r'.respond s e).1 ∧
      W (r.respond s e).2.1 (r'.respond s e).2.1 ∧
      (r.respond s e).2.2 = (r'.respond s e).2.2 ∧
      ∀ m ∈ (r.respond s e).2.2, (provisioning m).Blind k

namespace Tasks

open Security

/-- Two runs of one task that have got equally far. -/
inductive Begun.Twins (k : Pact) : Begun → Begun → Prop
  | mk (t : Task) (p q : Program (Except TaskError t.Result)) (h : p.Twins k Eq q) :
      Begun.Twins k ⟨t,p⟩ ⟨t,q⟩

theorem Begun.Twins.isOver {k : Pact} {b c : Begun} (h : b.Twins k c) : b.isOver = c.isOver := by
  cases h with
  | mk t p q h => cases h <;> rfl

/-- The task with what it has returned, if it is over. -/
def Begun.result (b : Begun) : (t : Task) × Option (Except TaskError t.Result) :=
  ⟨b.task,match b.rest with
    | .done result => some result
    | .perform _ _ => none⟩

theorem Begun.Twins.result {k : Pact} {b c : Begun} (h : b.Twins k c) : b.result = c.result := by
  cases h with
  | mk t p q h =>
    cases h with
    | done a b hab => rw [hab]
    | perform => rfl

namespace Floor

/-- The tasks that have begun with what they have returned, the latest first. -/
def results (f : Floor) : List ((t : Task) × Option (Except TaskError t.Result)) :=
  f.tasks.map Begun.result

variable {k : Pact} {W : Records → Records → Prop} {f g : Floor}

structure Alike (k : Pact) (W : Records → Records → Prop) (f g : Floor) : Prop where
  records : W f.records g.records
  tasks : List.Forall₂ (Begun.Twins k) f.tasks g.tasks
  background : List.Forall₂ (Program.Twins k Eq) f.background g.background

theorem twins_isOver {bs cs : List Begun} (h : List.Forall₂ (Begun.Twins k) bs cs) :
    bs.all Begun.isOver = cs.all Begun.isOver := by
  induction h with
  | nil => rfl
  | cons hb _ ih => rw [List.all_cons, List.all_cons, hb.isOver, ih]

theorem twins_results {bs cs : List Begun} (h : List.Forall₂ (Begun.Twins k) bs cs) :
    bs.map Begun.result = cs.map Begun.result := by
  induction h with
  | nil => rfl
  | cons hb _ ih => rw [List.map_cons, List.map_cons, hb.result, ih]

theorem begin_alike (b : Begun) (hb : b.rest.Blind k) (h : f.Alike k W g) :
    (f.begin b).Alike k W (g.begin b) := by
  unfold begin isQuiet
  rw [twins_isOver h.tasks]
  split
  · exact ⟨h.records,.cons (.mk b.task b.rest b.rest hb) h.tasks,h.background⟩
  · exact h

theorem background_alike {ps qs : List (Program Unit)} (h : List.Forall₂ (Program.Twins k Eq) ps qs)
    (started : List Machine) (hstarted : ∀ m ∈ started, (provisioning m).Blind k) :
    List.Forall₂ (Program.Twins k Eq) (ps ++ started.map provisioning)
      (qs ++ started.map provisioning) := by
  apply List.rel_append h
  rw [List.forall₂_map_left_iff, List.forall₂_map_right_iff, List.forall₂_same]
  exact hstarted

theorem go_alike (hk : k.Upheld W) (s : Supply) (h : f.Alike k W g) :
    (f.go s).Alike k W (g.go s) := by
  obtain ⟨r, tasks, background⟩ := f
  obtain ⟨r', tasks', background'⟩ := g
  obtain ⟨hrecords, htasks, hbackground⟩ := h
  cases htasks with
  | nil => exact ⟨hrecords,.nil,hbackground⟩
  | cons hb hrest =>
    cases hb with
    | mk t p q hpq =>
      cases hpq with
      | done a b hab => exact ⟨hrecords,.cons (.mk t _ _ (.done a b hab)) hrest,hbackground⟩
      | perform e next next' he hnext =>
        obtain ⟨halike, hrecords', hstarted, hblind⟩ := hk s r r' e hrecords he
        refine ⟨hrecords',.cons (.mk t _ _ (hnext _ _ halike)) hrest,?_⟩
        change List.Forall₂ _ (background ++ _) (background' ++ _)
        rw [← hstarted]
        exact background_alike hbackground _ hblind

theorem twins_getElem? {ps qs : List (Program Unit)} (h : List.Forall₂ (Program.Twins k Eq) ps qs)
    (n : Nat) : Option.Rel (Program.Twins k Eq) ps[n]? qs[n]? := by
  induction h generalizing n with
  | nil => exact .none
  | cons hp _ ih =>
    cases n with
    | zero => exact .some hp
    | succ n => exact ih n

theorem twins_set {ps qs : List (Program Unit)} (h : List.Forall₂ (Program.Twins k Eq) ps qs) (n : Nat)
    (p q : Program Unit) (hpq : p.Twins k Eq q) :
    List.Forall₂ (Program.Twins k Eq) (ps.set n p) (qs.set n q) := by
  induction h generalizing n with
  | nil => exact .nil
  | cons hp hrest ih =>
    cases n with
    | zero => exact .cons hpq hrest
    | succ n => exact .cons hp (ih n)

theorem provide_alike (hk : k.Upheld W) (n : Nat) (s : Supply) (h : f.Alike k W g) :
    (f.provide n s).Alike k W (g.provide n s) := by
  obtain ⟨r, tasks, background⟩ := f
  obtain ⟨r', tasks', background'⟩ := g
  obtain ⟨hrecords, htasks, hbackground⟩ := h
  have hn := twins_getElem? hbackground n
  unfold provide
  dsimp only
  generalize background[n]? = x, background'[n]? = y at hn
  cases hn with
  | none => exact ⟨hrecords,htasks,hbackground⟩
  | some hpq =>
    cases hpq with
    | done => exact ⟨hrecords,htasks,hbackground⟩
    | perform e next next' he hnext =>
      obtain ⟨halike, hrecords', hstarted, hblind⟩ := hk s r r' e hrecords he
      refine ⟨hrecords',htasks,?_⟩
      change List.Forall₂ _ (_ ++ _) (_ ++ _)
      rw [← hstarted]
      exact background_alike (twins_set hbackground n _ _ (hnext _ _ halike)) _ hblind

/-- What may begin in a turn keeps the pact. -/
def Turn.Blind (k : Pact) : Turn → Prop
  | .trust t p => (t.submitTrusted p).run.Blind k
  | .submit t accountId => (t.submit accountId).run.Blind k
  | _ => True

theorem turn_alike (hk : k.Upheld W) (t : Turn) (ht : t.Blind k) (h : f.Alike k W g) :
    (f.turn t).Alike k W (g.turn t) := by
  cases t with
  | trust t p => exact begin_alike _ ht h
  | submit t accountId => exact begin_alike _ ht h
  | go s => exact go_alike hk s h
  | provide n s => exact provide_alike hk n s h

theorem play_alike (hk : k.Upheld W) (turns : List Turn) (hturns : ∀ t ∈ turns, t.Blind k)
    (h : f.Alike k W g) : (f.play turns).Alike k W (g.play turns) := by
  induction turns generalizing f g with
  | nil => exact h
  | cons t turns ih =>
    obtain ⟨ht, hturns⟩ := List.forall_mem_cons.mp hturns
    exact ih hturns (turn_alike hk t ht h)

/-- Where the pact is upheld, the same turns return the same. -/
theorem play_results (hk : k.Upheld W) (turns : List Turn) (hturns : ∀ t ∈ turns, t.Blind k)
    (h : f.Alike k W g) : (f.play turns).results = (g.play turns).results :=
  twins_results (play_alike hk turns hturns h).tasks

end Floor
end Tasks
end VmFleet
