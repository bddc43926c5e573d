import VmFleet.Account
import VmFleet.Machine
import VmFleet.Store.Error

/-!
# Repository calls

A repository holds records of one kind. Each record has an id and a key that is unique among the
records; the key may be the id itself. A call is answered by a value whose type the call fixes, or
by an error.
-/

set_option autoImplicit false

namespace VmFleet.Store

class Keyed (α : Type) where
  /-- What a record is called in errors. -/
  kind : String
  id : α → String
  key : α → String

instance : Keyed Account := ⟨"user", Account.id, Account.username⟩

instance : Keyed Machine := ⟨"vm", Machine.id, Machine.id⟩

inductive Call (α : Type) where
  | getAll
  | get (id : String)
  /-- When a record with the id or the key is there already, an insertion that asks for uniqueness
  fails, and any other returns that record. -/
  | add (item : α) (ensureUnique : Bool)
  | put (item : α)
  | putAll (items : List α)
  | delete (id : String)

def Call.Result {α : Type} : Call α → Type
  | .getAll => List α
  | .get _ => α
  | .add _ _ => α
  | .put _ => α
  | .putAll _ => List α
  | .delete _ => Unit

abbrev Call.Answer {α : Type} (c : Call α) : Type := Except StoreError c.Result

def Call.isRead {α : Type} : Call α → Bool
  | .getAll => true
  | .get _ => true
  | _ => false

variable {α : Type} [Keyed α]

def missing (α : Type) [Keyed α] (id : String) : StoreError := .notFound (Keyed.kind α) id

def taken (item : α) : StoreError := .duplicate (Keyed.kind α) (Keyed.key item)

end VmFleet.Store
