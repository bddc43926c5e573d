import VmFleet.Json.Decode

/-!
# Delegated messages

A request travels in an envelope that names its channel; a handler answers with a value or with a
failure, a code and a text.
-/

set_option autoImplicit false

namespace VmFleet.Delegation

open Json

structure Envelope where
  channel : String
  payload : Json

def Envelope.encode (e : Envelope) : Json :=
  .obj [("payload", e.payload), ("type", .str e.channel)]

def Envelope.shape : RecordShape :=
  ⟨"Envelope", [("type", checking text), ("payload", checking any)]⟩

/-- A missing payload is null. -/
def Envelope.decode : Decoder Envelope := fun v => do
  let ms ← Envelope.shape.members (fun name => name = "payload") v
  let channel ← required ms "type" text
  .ok ⟨channel, (ms.lookup "payload").getD .null⟩

structure Failure where
  code : Nat
  text : String
  deriving DecidableEq, Repr

def Failure.message (f : Failure) : String := s!"{f.code}: {f.text}"

def Failure.badRequest (text : String) : Failure := ⟨400, text⟩

def Failure.fault (text : String) : Failure := ⟨500, text⟩

def Failure.encode (f : Failure) : Json :=
  .obj [("code", .int f.code), ("message", .str f.text)]

def Failure.shape : RecordShape :=
  ⟨"Failure", [("code", checking word16), ("message", checking Json.text)]⟩

def Failure.decode : Decoder Failure := fun v => do
  let ms ← Failure.shape.members (fun _ => false) v
  let code ← required ms "code" word16
  let text ← required ms "message" Json.text
  .ok ⟨code, text⟩

abbrev Reply : Type := Except Failure Json

def resourceCreate : String := "resource.create"

def workerHealthcheck : String := "worker.healthcheck"

def ping : String := "ping"

def pong : String := "pong"

theorem Envelope.decode_encode (e : Envelope) : Envelope.decode e.encode = .ok e := by
  cases e; rfl

end VmFleet.Delegation
