import VmFleet.Password.Hasher
import VmFleet.Tasks.Task
import VmFleet.Text.Base64
import VmFleet.Text.Blank

/-!
# Tasks on accounts

Opening, reading, renaming and closing accounts, and checking a username and a password.
-/

set_option autoImplicit false

namespace VmFleet.Tasks

open Security Store

def idBytes : Nat := 20

def saltLength : Nat := 16

def freshId (kind : String) : Attempt String := do
  let bytes ← Attempt.ask (.draw idBytes)
  return kind ++ Text.Base64.encode .addressSafe bytes

def freshSalt : Attempt String := do
  let bytes ← Attempt.ask (.draw saltLength)
  return Text.Base64.encode .standard bytes

def faulty (e : Password.HashError) : TaskError := .fault e.message

def NewAccount.check (new : NewAccount) : Except TaskError Unit :=
  if Text.isBlank new.username then .error (.invalid "username must not be empty")
  else if new.password.isEmpty then .error (.invalid "password must not be empty")
  else .ok ()

def createUser (p : Principal) (new : NewAccount) (ensureUnique : Bool) : Attempt Account := do
  Attempt.authorize p .createUser .noTarget
  Attempt.ofExcept id new.check
  let salt ← freshSalt
  let hashed ← Attempt.ofExcept faulty (Password.hash new.password salt)
  let id ← freshId "USER:"
  Attempt.accounts (.add ⟨id, new.username, new.firstName, new.lastName, hashed, salt, new.role⟩
    ensureUnique)

def getUser (p : Principal) (id : String) : Attempt Account := do
  Attempt.authorize p .getUser (.of p id)
  Attempt.accounts (.get id)

def getAllUsers (p : Principal) : Attempt (List Account) := do
  Attempt.authorize p .getAllUsers .noTarget
  Attempt.accounts .getAll

/-- The account under its new names; an empty name stands for the old one. -/
def renamed (a : Account) (firstName lastName : String) : Account :=
  { a with
    firstName := if firstName.isEmpty then a.firstName else firstName
    lastName := if lastName.isEmpty then a.lastName else lastName }

def updateUser (p : Principal) (id firstName lastName : String) : Attempt Account := do
  Attempt.authorize p .updateUser (.of p id)
  let current ← Attempt.accounts (.get id)
  Attempt.accounts (.put (renamed current firstName lastName))

def deleteUser (p : Principal) (id : String) : Attempt Unit := do
  Attempt.authorize p .deleteUser (.of p id)
  Attempt.accounts (.delete id)

def verifyCredentials (username password : String) : Attempt String := do
  let all ← Attempt.accounts .getAll
  match all.find? fun a => a.username = username with
  | none => throw (.notFound "user" username)
  | some a =>
    let agrees ← Attempt.ofExcept faulty (Password.verify password a.hashedPassword)
    if agrees then return a.id else throw (.invalid "invalid credentials")

end VmFleet.Tasks
