import VmFleet.Tasks.Submit

/-!
# Terms that programs keep

Terms say which effects a program may ask for and what it may count on in their answers. A program
keeps them when it does so along every run, whatever the answers are within the terms. Surroundings
that grant the terms can then rely on them, also when other programs act in between.
-/

set_option autoImplicit false

namespace VmFleet

structure Terms where
  allows : Effect → Prop
  grants : (e : Effect) → e.Answer → Prop

namespace Program

variable {α β : Type}

/-- Every effect is allowed and every result is as wanted, for all answers that are granted. -/
def Keeps (k : Terms) (Q : α → Prop) : Program α → Prop
  | .done a => Q a
  | .perform e next => k.allows e ∧ ∀ answer, k.grants e answer → (next answer).Keeps k Q

theorem keeps_bind (k : Terms) (Q : β → Prop) (p : Program α) (f : α → Program β) :
    (p.bind f).Keeps k Q ↔ p.Keeps k fun a => (f a).Keeps k Q := by
  induction p with
  | done a => rfl
  | perform e next ih => simp only [bind, Keeps, ih]

/-- All effects are allowed along every run. -/
def Within (k : Terms) (p : Program α) : Prop := p.Keeps k fun _ => True

theorem Keeps.mono {k : Terms} {Q R : α → Prop} {p : Program α} (h : p.Keeps k Q)
    (hq : ∀ a, Q a → R a) : p.Keeps k R := by
  induction p with
  | done a => exact hq a h
  | perform e next ih => exact ⟨h.1,fun answer hg => ih answer (h.2 answer hg)⟩

/-- Terms that allow more and grant more are kept as well. -/
theorem Keeps.ease {k l : Terms} {Q : α → Prop} {p : Program α} (h : p.Keeps k Q)
    (ha : ∀ e, k.allows e → l.allows e) (hg : ∀ e answer, l.grants e answer → k.grants e answer) :
    p.Keeps l Q := by
  induction p with
  | done a => exact h
  | perform e next ih => exact ⟨ha e h.1,fun answer hl => ih answer (h.2 answer (hg e answer hl))⟩

theorem within_bind (k : Terms) (p : Program α) (f : α → Program β) (h : p.Within k)
    (hf : ∀ a, (f a).Within k) : (p.bind f).Within k :=
  (keeps_bind k _ p f).mpr (h.mono fun a _ => hf a)

end Program

/-! ## Attempts -/

namespace Tasks.Attempt

open Security Store

variable {α β : Type} (k : Terms)

theorem run_bind (a : Attempt α) (f : α → Attempt β) :
    (a >>= f).run = a.run.bind fun
      | .ok x => (f x).run
      | .error e => .done (.error e) := by
  change Program.bind (ExceptT.run a) (ExceptT.bindCont f) = _
  congr 1
  funext r
  cases r <;> rfl

theorem accounts_bind (call : Call Account) (f : call.Result → Attempt β) :
    (accounts call >>= f).run = .perform (.accounts call) fun
      | .ok x => (f x).run
      | .error e => .done (.error (.ofStore e)) := by
  refine congrArg (Program.perform (.accounts call)) (funext fun answer => ?_)
  cases answer <;> rfl

theorem machines_bind (call : Call Machine) (f : call.Result → Attempt β) :
    (machines call >>= f).run = .perform (.machines call) fun
      | .ok x => (f x).run
      | .error e => .done (.error (.ofStore e)) := by
  refine congrArg (Program.perform (.machines call)) (funext fun answer => ?_)
  cases answer <;> rfl

theorem keeps_bind (Q : Except TaskError β → Prop) (a : Attempt α) (f : α → Attempt β) :
    (a >>= f).run.Keeps k Q ↔ a.run.Keeps k fun r =>
      (∀ x, r = .ok x → (f x).run.Keeps k Q) ∧ ∀ e, r = .error e → Q (.error e) := by
  rw [run_bind, Program.keeps_bind]
  have hr : ∀ r : Except TaskError α, Program.Keeps k Q (match r with
      | .ok x => (f x).run
      | .error e => .done (.error e)) ↔
      (∀ x, r = .ok x → (f x).run.Keeps k Q) ∧ ∀ e, r = .error e → Q (.error e) := by
    intro r
    cases r <;> simp [Program.Keeps]
  simp only [hr]

theorem authorize_denied (p : Principal) (o : Operation) (w : Ownership) (f : Unit → Attempt β)
    (h : isAllowed p o w = false) :
    (authorize p o w >>= f).run = .done (.error (.unauthorized ⟨p.id, o⟩)) := by
  rw [run_bind, authorize, (Security.authorize_eq_error_iff p o w _).mpr ⟨h, rfl⟩]
  rfl

theorem authorize_allowed (p : Principal) (o : Operation) (w : Ownership) (f : Unit → Attempt β)
    (h : isAllowed p o w = true) : (authorize p o w >>= f).run = (f ()).run := by
  rw [run_bind, authorize, (Security.authorize_eq_ok_iff p o w).mpr h]
  rfl

theorem within_accounts (call : Call Account) (f : call.Result → Attempt β)
    (h : k.allows (.accounts call))
    (hf : ∀ x, k.grants (.accounts call) (.ok x) → (f x).run.Within k) :
    (accounts call >>= f).run.Within k := by
  refine ⟨h, fun answer hg => ?_⟩
  cases answer with
  | ok x => exact hf x hg
  | error e => trivial

theorem within_machines (call : Call Machine) (f : call.Result → Attempt β)
    (h : k.allows (.machines call))
    (hf : ∀ x, k.grants (.machines call) (.ok x) → (f x).run.Within k) :
    (machines call >>= f).run.Within k := by
  refine ⟨h, fun answer hg => ?_⟩
  cases answer with
  | ok x => exact hf x hg
  | error e => trivial

theorem within_bind (a : Attempt α) (f : α → Attempt β) (h : a.run.Within k)
    (hf : ∀ x, (f x).run.Within k) : (a >>= f).run.Within k := by
  rw [run_bind]
  apply Program.within_bind k _ _ h
  intro r
  cases r with
  | ok x => exact hf x
  | error e => trivial

theorem within_ask (e : Effect) (f : e.Answer → Attempt β) (h : k.allows e)
    (hf : ∀ x, k.grants e x → (f x).run.Within k) : (ask e >>= f).run.Within k := ⟨h,hf⟩

/-- What comes after a check only matters when the check lets the principal pass. -/
theorem within_authorize (p : Principal) (o : Operation) (w : Ownership) (f : Unit → Attempt β)
    (hf : isAllowed p o w = true → (f ()).run.Within k) :
    (authorize p o w >>= f).run.Within k := by
  cases h : isAllowed p o w with
  | true =>
    rw [authorize_allowed p o w f h]
    exact hf h
  | false =>
    rw [authorize_denied p o w f h]
    trivial

end Tasks.Attempt
end VmFleet
