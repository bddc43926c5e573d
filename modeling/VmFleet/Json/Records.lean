import VmFleet.Account
import VmFleet.Json.Decode
import VmFleet.Machine

/-!
# Accounts and machines as structured values

The written form of the stored records, and the decoders that read it back.
-/

set_option autoImplicit false

namespace VmFleet

open Json

def Security.Role.decode : Decoder Security.Role :=
  choice [(Security.Role.id .admin, .admin), (Security.Role.id .user, .user)]

def Provider.decode : Decoder Provider :=
  choice [(Provider.name .aws, .aws), (Provider.name .gcp, .gcp)]

def Status.decode : Decoder Status :=
  choice [(Status.name .initializing, .initializing), (Status.name .up, .up),
    (Status.name .down, .down)]

def Machine.encode (m : Machine) : Json :=
  .obj [("id", .str m.id), ("owner_id", .str m.ownerId), ("provider", .str m.provider.name),
    ("status", .str m.status.name)]

def Machine.shape : RecordShape :=
  ⟨"VmRecord", [("id", checking text), ("provider", checking Provider.decode),
    ("status", checking Status.decode), ("owner_id", checking text)]⟩

def Machine.decode : Decoder Machine := fun v => do
  let ms ← Machine.shape.members (fun _ => false) v
  let id ← required ms "id" text
  let provider ← required ms "provider" Provider.decode
  let status ← required ms "status" Status.decode
  let ownerId ← required ms "owner_id" text
  .ok ⟨id, provider, status, ownerId⟩

def Account.encode (a : Account) : Json :=
  .obj [("first_name", .str a.firstName), ("hashed_password", .str a.hashedPassword),
    ("id", .str a.id), ("last_name", .str a.lastName), ("role", .str a.role.id),
    ("salt", .str a.salt), ("username", .str a.username)]

def Account.shape : RecordShape :=
  ⟨"UserRecord", [("id", checking text), ("username", checking text),
    ("first_name", checking text), ("last_name", checking text),
    ("hashed_password", checking text), ("salt", checking text),
    ("role", checking Security.Role.decode)]⟩

def Account.decode : Decoder Account := fun v => do
  let ms ← Account.shape.members (fun _ => false) v
  let id ← required ms "id" text
  let username ← required ms "username" text
  let firstName ← required ms "first_name" text
  let lastName ← required ms "last_name" text
  let hashedPassword ← required ms "hashed_password" text
  let salt ← required ms "salt" text
  let role ← required ms "role" Security.Role.decode
  .ok ⟨id, username, firstName, lastName, hashedPassword, salt, role⟩

end VmFleet
