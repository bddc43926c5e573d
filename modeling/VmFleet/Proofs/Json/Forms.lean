import Mathlib.Data.List.Forall2
import VmFleet.Delegation.Message
import VmFleet.Json.Records
import VmFleet.Proofs.Results

/-!
# Which values decode

A record decodes from an object that has all of its fields, whatever else it has, and from an array of
exactly its fields in order. A choice is spelled as its name or as an object with only that name. What
is encoded decodes again as it was.
-/

set_option autoImplicit false

namespace VmFleet.Json

variable {α : Type}

/-! ## One value -/

theorem text_eq_ok_iff (v : Json) (s : String) : text v = .ok s ↔ v = .str s := by
  cases v <;> simp [text]

/-- The value names a choice: by the name itself, or by an object with it as its only member, whose
value is null. -/
def Spells (v : Json) (name : String) : Prop := v = .str name ∨ v = .obj [(name, .null)]

theorem variant_eq_ok_iff (choices : List (String × α)) (name : String) (a : α) :
    variant choices name = .ok a ↔ choices.lookup name = some a := by
  unfold variant
  cases choices.lookup name <;> simp

theorem choice_eq_ok_iff (choices : List (String × α)) (v : Json) (a : α) :
    choice choices v = .ok a ↔ ∃ name, Spells v name ∧ choices.lookup name = some a := by
  unfold choice Spells
  split
  · rename_i s
    simp [variant_eq_ok_iff]
  · rename_i name value
    rw [bind_eq_ok_iff]
    cases value <;> simp [variant_eq_ok_iff]
  · rename_i ms hmany
    simp only [reduceCtorEq, false_or, obj.injEq, false_iff, not_exists, not_and]
    rintro name rfl
    exact absurd rfl (hmany name .null)
  · rename_i hstr hone hobj
    simp only [reduceCtorEq, false_iff, not_exists, not_and]
    rintro name (rfl | rfl)
    · exact absurd rfl (hstr name)
    · exact absurd rfl (hone name .null)

/-- Where every choice stands under its own name, a value decodes as the choice whose name it spells. -/
theorem choice_eq_ok_iff_spells (choices : List (String × α)) (nameOf : α → String)
    (hnames : ∀ c ∈ choices, c.1 = nameOf c.2) (hall : ∀ a, choices.lookup (nameOf a) = some a)
    (v : Json) (a : α) : choice choices v = .ok a ↔ Spells v (nameOf a) := by
  rw [choice_eq_ok_iff]
  constructor
  · rintro ⟨name, hspells, hname⟩
    obtain ⟨first, rest, rfl, -⟩ := List.lookup_eq_some_iff.mp hname
    rwa [← hnames (name, a) (by simp)]
  · intro h
    exact ⟨nameOf a,h,hall a⟩

/-! ## The fields of a record -/

theorem required_eq_ok_iff (ms : List (String × Json)) (name : String) (d : Decoder α) (a : α) :
    required ms name d = .ok a ↔ ∃ v, ms.lookup name = some v ∧ d v = .ok a := by
  unfold required
  cases ms.lookup name <;> simp

theorem checking_eq_ok_iff (d : Decoder α) (v : Json) :
    checking d v = .ok () ↔ ∃ a, d v = .ok a := by
  unfold checking
  cases d v <;> simp [Except.map]

/-- Members are passed over when their names are unknown, and checked otherwise. -/
theorem checkMembers_eq_ok_iff (r : RecordShape) (ms : List (String × Json)) :
    r.checkMembers ms = .ok () ↔
      ∀ m ∈ ms, ∀ d, r.fields.lookup m.1 = some d → d m.2 = .ok () := by
  induction ms with
  | nil => simp [RecordShape.checkMembers]
  | cons m ms ih =>
    rw [RecordShape.checkMembers, List.forall_mem_cons]
    cases hfield : r.fields.lookup m.1 with
    | none => simp [ih]
    | some d => simp [then_eq_ok_iff, ih]

/-- An array has a value for each field, no more and no fewer, and each passes its check. -/
theorem checkItems_eq_ok_iff (r : RecordShape) (given : Nat) (fields : List (String × Decoder Unit))
    (items : List Json) :
    r.checkItems (fun _ => false) given fields items = .ok () ↔
      List.Forall₂ (fun f v => f.2 v = .ok ()) fields items := by
  induction fields generalizing items with
  | nil => cases items <;> simp [RecordShape.checkItems]
  | cons f fields ih =>
    cases items with
    | nil => simp [RecordShape.checkItems]
    | cons v items => simp [RecordShape.checkItems, then_eq_ok_iff, ih]

theorem lookup_of_mem (ms : List (String × Json)) (h : (ms.map Prod.fst).Nodup) (m : String × Json)
    (hm : m ∈ ms) : ms.lookup m.1 = some m.2 := by
  obtain ⟨first, rest, rfl⟩ := List.append_of_mem hm
  refine List.lookup_eq_some_iff.mpr ⟨first, rest, rfl, ?_⟩
  intro p hp
  rw [List.map_append, List.map_cons, List.nodup_append] at h
  have hne := h.2.2 p.1 (List.mem_map_of_mem hp) m.1 List.mem_cons_self
  simpa using Ne.symm hne

/-- So an object passes when each of its fields is there and is of use, whatever else is there. -/
theorem checkMembers_of_fields (r : RecordShape) (ms : List (String × Json))
    (h : (ms.map Prod.fst).Nodup)
    (hfields : ∀ name d, r.fields.lookup name = some d → ∃ v, ms.lookup name = some v ∧ d v = .ok ()) :
    r.checkMembers ms = .ok () := by
  rw [checkMembers_eq_ok_iff]
  intro m hm d hd
  obtain ⟨v, hv, hok⟩ := hfields m.1 d hd
  rw [lookup_of_mem ms h m hm, Option.some.injEq] at hv
  rwa [hv]

end VmFleet.Json

namespace VmFleet

open Json Delegation

/-! ## Accounts, machines and messages -/

theorem Provider.decode_eq_ok_iff (v : Json) (p : Provider) :
    Provider.decode v = .ok p ↔ Spells v p.name :=
  choice_eq_ok_iff_spells _ Provider.name (by simp) (by rintro (_ | _) <;> rfl) v p

theorem Status.decode_eq_ok_iff (v : Json) (s : Status) :
    Status.decode v = .ok s ↔ Spells v s.name :=
  choice_eq_ok_iff_spells _ Status.name (by simp) (by rintro (_ | _ | _) <;> rfl) v s

/-- The forms that a machine may be written in: an object that has its four fields, or an array of
just these in the order of their declaration. -/
inductive Machine.Written (m : Machine) : Json → Prop
  | object (ms : List (String × Json)) (provider status : Json)
      (hid : ms.lookup "id" = some (.str m.id)) (hprovider : ms.lookup "provider" = some provider)
      (hstatus : ms.lookup "status" = some status)
      (howner : ms.lookup "owner_id" = some (.str m.ownerId)) (hp : Spells provider m.provider.name)
      (hs : Spells status m.status.name) : Written m (.obj ms)
  | array (provider status : Json) (hp : Spells provider m.provider.name)
      (hs : Spells status m.status.name) : Written m (.arr [.str m.id, provider, status, .str m.ownerId])

/-- What is read of the members of a record. -/
def Machine.ofFields (ms : List (String × Json)) : Except DecodeError Machine := do
  let id ← required ms "id" text
  let provider ← required ms "provider" Provider.decode
  let status ← required ms "status" Status.decode
  let ownerId ← required ms "owner_id" text
  .ok ⟨id, provider, status, ownerId⟩

theorem Machine.ofFields_eq_ok_iff (ms : List (String × Json)) (m : Machine) :
    Machine.ofFields ms = .ok m ↔ ∃ provider status, ms.lookup "id" = some (.str m.id) ∧
      ms.lookup "provider" = some provider ∧ ms.lookup "status" = some status ∧
      ms.lookup "owner_id" = some (.str m.ownerId) ∧ Spells provider m.provider.name ∧
      Spells status m.status.name := by
  simp only [Machine.ofFields, bind_eq_ok_iff, required_eq_ok_iff, text_eq_ok_iff,
    Provider.decode_eq_ok_iff, Status.decode_eq_ok_iff, Except.ok.injEq]
  constructor
  · rintro ⟨id, ⟨_, hid, rfl⟩, p, ⟨provider, hprovider, hp⟩, s, ⟨status, hstatus, hs⟩, owner,
      ⟨_, howner, rfl⟩, rfl⟩
    exact ⟨provider,status,hid,hprovider,hstatus,howner,hp,hs⟩
  · rintro ⟨provider, status, hid, hprovider, hstatus, howner, hp, hs⟩
    exact ⟨m.id,⟨_,hid,rfl⟩,m.provider,⟨provider,hprovider,hp⟩,m.status,⟨status,hstatus,hs⟩,m.ownerId,
      ⟨_,howner,rfl⟩,rfl⟩

theorem Machine.decode_eq (v : Json) :
    Machine.decode v = Machine.shape.members (fun _ => false) v >>= Machine.ofFields := rfl

theorem Machine.shape_field (name : String) (d : Decoder Unit)
    (h : Machine.shape.fields.lookup name = some d) :
    name = "id" ∧ d = checking text ∨ name = "provider" ∧ d = checking Provider.decode ∨
      name = "status" ∧ d = checking Status.decode ∨ name = "owner_id" ∧ d = checking text := by
  obtain ⟨first, rest, hsplit, -⟩ := List.lookup_eq_some_iff.mp h
  have hmem : (name, d) ∈ Machine.shape.fields := by simp [hsplit]
  simpa [Machine.shape] using hmem

/-- The names of an object are looked at once for their types and once for their values. -/
theorem Machine.decode_object_iff (ms : List (String × Json)) (h : (ms.map Prod.fst).Nodup)
    (m : Machine) : Machine.decode (.obj ms) = .ok m ↔ Machine.Written m (.obj ms) := by
  have hmembers : Machine.shape.members (fun _ => false) (.obj ms) =
      (Machine.shape.checkMembers ms >>= fun _ => .ok ms) := rfl
  rw [Machine.decode_eq, hmembers, bind_eq_ok_iff]
  constructor
  · rintro ⟨_, hchecked, hread⟩
    obtain ⟨-, hsame⟩ := (then_eq_ok_iff _ _ _).mp hchecked
    cases hsame
    obtain ⟨provider, status, hid, hprovider, hstatus, howner, hp, hs⟩ :=
      (Machine.ofFields_eq_ok_iff ms m).mp hread
    exact .object ms provider status hid hprovider hstatus howner hp hs
  · intro hwritten
    cases hwritten with
    | object _ provider status hid hprovider hstatus howner hp hs =>
      refine ⟨ms, (then_eq_ok_iff _ _ _).mpr ⟨?_, rfl⟩, (Machine.ofFields_eq_ok_iff ms m).mpr
        ⟨provider,status,hid,hprovider,hstatus,howner,hp,hs⟩⟩
      apply checkMembers_of_fields _ ms h
      intro name d hd
      rcases Machine.shape_field name d hd with
        ⟨rfl, rfl⟩ | ⟨rfl, rfl⟩ | ⟨rfl, rfl⟩ | ⟨rfl, rfl⟩
      · exact ⟨_,hid,rfl⟩
      · exact ⟨_,hprovider,(checking_eq_ok_iff _ _).mpr ⟨_,(Provider.decode_eq_ok_iff _ _).mpr hp⟩⟩
      · exact ⟨_,hstatus,(checking_eq_ok_iff _ _).mpr ⟨_,(Status.decode_eq_ok_iff _ _).mpr hs⟩⟩
      · exact ⟨_,howner,rfl⟩

theorem Machine.decode_array_iff (items : List Json) (m : Machine) :
    Machine.decode (.arr items) = .ok m ↔ Machine.Written m (.arr items) := by
  have hmembers : Machine.shape.members (fun _ => false) (.arr items) =
      (Machine.shape.checkItems (fun _ => false) items.length Machine.shape.fields items >>= fun _ =>
        .ok ((Machine.shape.fields.map Prod.fst).zip items)) := rfl
  rw [Machine.decode_eq, hmembers, bind_eq_ok_iff]
  constructor
  · rintro ⟨ms, hchecked, hread⟩
    obtain ⟨hitems, hsame⟩ := (then_eq_ok_iff _ _ _).mp hchecked
    cases hsame
    obtain ⟨provider, status, hid, hprovider, hstatus, howner, hp, hs⟩ :=
      (Machine.ofFields_eq_ok_iff _ m).mp hread
    rw [checkItems_eq_ok_iff] at hitems
    rcases hitems with _ | ⟨-, _ | ⟨-, _ | ⟨-, _ | ⟨-, ⟨⟩⟩⟩⟩⟩
    cases hid
    cases hprovider
    cases hstatus
    cases howner
    exact .array _ _ hp hs
  · intro hwritten
    cases hwritten with
    | array provider status hp hs =>
      refine ⟨_, (then_eq_ok_iff _ _ _).mpr ⟨?_, rfl⟩, (Machine.ofFields_eq_ok_iff _ m).mpr
        ⟨provider,status,rfl,rfl,rfl,rfl,hp,hs⟩⟩
      rw [checkItems_eq_ok_iff]
      exact .cons rfl (.cons ((checking_eq_ok_iff _ _).mpr ⟨_,(Provider.decode_eq_ok_iff _ _).mpr hp⟩)
        (.cons ((checking_eq_ok_iff _ _).mpr ⟨_,(Status.decode_eq_ok_iff _ _).mpr hs⟩) (.cons rfl .nil)))

/-- A value decodes as a machine exactly when it is written in one of the two forms. -/
theorem Machine.decode_eq_ok_iff (v : Json) (h : ∀ ms, v = .obj ms → (ms.map Prod.fst).Nodup)
    (m : Machine) : Machine.decode v = .ok m ↔ Machine.Written m v := by
  cases v with
  | obj ms => exact Machine.decode_object_iff ms (h ms rfl) m
  | arr items => exact Machine.decode_array_iff items m
  | _ =>
    constructor
    · intro h
      cases h
    · intro h
      cases h

theorem Account.decode_encode (a : Account) : Account.decode a.encode = .ok a := by
  obtain ⟨id, username, firstName, lastName, hashedPassword, salt, role⟩ := a
  cases role <;> rfl

/-- The code of a failure is a word of 16 bits. -/
theorem Delegation.Failure.decode_encode (f : Failure) (h : f.code < 65536) :
    Failure.decode f.encode = .ok f := by
  obtain ⟨code, text⟩ := f
  have hword : word16 (.int code) = .ok code := by
    rw [word16, if_pos ⟨Int.natCast_nonneg code,Int.ofNat_lt.mpr h⟩]
    rfl
  simp only [Failure.decode, Failure.encode, bind_eq_ok_iff]
  refine ⟨[("code", .int code), ("message", .str text)], ?_, code, hword, text, rfl, rfl⟩
  refine (then_eq_ok_iff _ _ _).mpr ⟨(checkMembers_eq_ok_iff _ _).mpr ?_, rfl⟩
  intro m hm d hd
  simp only [List.mem_cons, List.not_mem_nil, or_false] at hm
  rcases hm with rfl | rfl
  · cases hd
    exact (checking_eq_ok_iff _ _).mpr ⟨code,hword⟩
  · cases hd
    rfl

end VmFleet
