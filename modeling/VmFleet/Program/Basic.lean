import VmFleet.Delegation.Error
import VmFleet.Metrics.Registry
import VmFleet.Store.Call

/-!
# Programs and their effects

A program is a computation that asks its surroundings, one effect after the other, and goes on with
each answer. What an effect does is not part of the program: the same program runs against stored
records, in a crowd of others, or against any answers at all.
-/

set_option autoImplicit false

namespace VmFleet

open Store Delegation

inductive Effect where
  | accounts (call : Call Account)
  | machines (call : Call Machine)
  /-- Asks for that many bytes that were never given out before. -/
  | draw (count : Nat)
  | record (event : Metrics.Event)
  /-- Starts provisioning the machine without waiting for it. -/
  | provision (machine : Machine)
  /-- Sends a payload, or the reason why there is none, and waits for the reply. -/
  | delegate (channel : String) (payload : Except String Json)
  | wait (millis : Nat)
  | isCancelled

abbrev Effect.Answer : Effect → Type
  | .accounts call => call.Answer
  | .machines call => call.Answer
  | .draw _ => List UInt8
  | .record _ => Unit
  | .provision _ => Unit
  | .delegate _ _ => Except TransportError Json
  | .wait _ => Unit
  | .isCancelled => Bool

inductive Program (α : Type) where
  | done (a : α)
  | perform (e : Effect) (next : e.Answer → Program α)

namespace Program

variable {α β γ : Type}

def bind : Program α → (α → Program β) → Program β
  | .done a, f => f a
  | .perform e next, f => .perform e fun answer => (next answer).bind f

instance : Monad Program where
  pure := .done
  bind := bind

def ask (e : Effect) : Program e.Answer := .perform e .done

theorem bind_done (p : Program α) : p.bind .done = p := by
  induction p with
  | done a => rfl
  | perform e next ih => simp only [bind, ih]

theorem bind_bind (p : Program α) (f : α → Program β) (g : β → Program γ) :
    (p.bind f).bind g = p.bind fun a => (f a).bind g := by
  induction p with
  | done a => rfl
  | perform e next ih => simp only [bind, ih]

/-- Runs a program against surroundings that answer every effect at once. -/
def run {σ : Type} (answer : σ → (e : Effect) → e.Answer × σ) : Program α → σ → α × σ
  | .done a, s => (a, s)
  | .perform e next, s => (next (answer s e).1).run answer (answer s e).2

theorem run_bind {σ : Type} (answer : σ → (e : Effect) → e.Answer × σ) (p : Program α)
    (f : α → Program β) (s : σ) :
    (p.bind f).run answer s = (f (p.run answer s).1).run answer (p.run answer s).2 := by
  induction p generalizing s with
  | done a => rfl
  | perform e next ih => simp only [bind, run, ih]

end Program
end VmFleet
