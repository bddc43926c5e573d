import VmFleet.Store.Call

/-!
# Records kept in memory

The records stand in the order of their insertion. A record that is put again keeps its place.
-/

set_option autoImplicit false

namespace VmFleet.Store.Memory

variable {α : Type} [Keyed α]

def conflicts (items : List α) (item : α) : Bool :=
  items.any fun e => Keyed.id e ≠ Keyed.id item ∧ Keyed.key e = Keyed.key item

/-- Replaces the first record with the id, or adds the record at the end. -/
def place (item : α) : List α → List α
  | [] => [item]
  | e :: es => if Keyed.id e = Keyed.id item then item :: es else e :: place item es

def get (items : List α) (id : String) : Except StoreError α :=
  match items.find? fun e => Keyed.id e = id with
  | some e => .ok e
  | none => .error (missing α id)

/-- The first record with the id or the key of `item`. -/
def existing? (items : List α) (item : α) : Option α :=
  items.find? fun e => Keyed.id e = Keyed.id item ∨ Keyed.key e = Keyed.key item

def add (items : List α) (item : α) (ensureUnique : Bool) : Except StoreError α × List α :=
  match existing? items item with
  | some e => if ensureUnique then (.error (taken item), items) else (.ok e, items)
  | none => (.ok item, items ++ [item])

def put (items : List α) (item : α) : Except StoreError α × List α :=
  if conflicts items item then (.error (taken item), items) else (.ok item, place item items)

/-- Every record of the batch is checked against the stored ones before any is written. -/
def putAll (items new : List α) : Except StoreError (List α) × List α :=
  match new.find? fun item => conflicts items item with
  | some item => (.error (taken item), items)
  | none => (.ok new, new.foldl (fun acc item => place item acc) items)

def delete (items : List α) (id : String) : Except StoreError Unit × List α :=
  let rest := items.filter fun e => Keyed.id e ≠ id
  if rest.length = items.length then (.error (missing α id), items) else (.ok (), rest)

def run (items : List α) : (c : Call α) → c.Answer × List α
  | .getAll => (.ok items, items)
  | .get id => (get (α := α) items id, items)
  | .add item ensureUnique => add (α := α) items item ensureUnique
  | .put item => put (α := α) items item
  | .putAll new => putAll (α := α) items new
  | .delete id => delete items id

theorem place_of_forall_ne (item : α) (items : List α)
    (h : ∀ e ∈ items, Keyed.id e ≠ Keyed.id item) : place item items = items ++ [item] := by
  induction items with
  | nil => rfl
  | cons e es ih =>
    have he : Keyed.id e ≠ Keyed.id item := h e (by simp)
    have hes : ∀ x ∈ es, Keyed.id x ≠ Keyed.id item := fun x hx => h x (by simp [hx])
    simp [place, he, ih hes]

end VmFleet.Store.Memory
