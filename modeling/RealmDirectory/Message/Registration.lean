import RealmDirectory.Payload.Code
import RealmDirectory.Payload.Count
import RealmDirectory.Realm.Category
import RealmDirectory.Realm.Flags
/-!
# Registering a realm

A realm server introduces its realm with one `Registration`, and the directory answers with one
byte that says whether the realm was added. The builds are a list here: they keep their order and
their repetitions, and their number is written in one byte, so at most 255 of them can be sent.
-/

namespace RealmDirectory

open Payload (Coded FieldError Reader terminated word32)

/-- What a realm server says of its realm. -/
structure Registration where
  id : UInt32
  name : String
  gamePort : UInt32
  maxPlayers : UInt32
  onlinePlayers : UInt32
  minAccess : AccessLevel
  flags : RealmFlags
  kind : RealmKind
  timezone : Timezone
  builds : List UInt32
  deriving DecidableEq

namespace Registration

/-- The payload of a registration. -/
def encode (r : Registration) : Except FieldError (List UInt8) := do
  let count ← Payload.countByte "build_count" r.builds.length
  return word32 r.id ++ terminated r.name ++ word32 r.gamePort ++ word32 r.maxPlayers
    ++ word32 r.onlinePlayers
    ++ [Coded.code r.minAccess, r.flags.bits, Coded.code r.kind, Coded.code r.timezone, count]
    ++ r.builds.flatMap word32

/-- Reads a registration. -/
def read : Reader Registration := do
  let id ← Reader.word "realm_id"
  let name ← Reader.text "name"
  let gamePort ← Reader.word "game_port"
  let maxPlayers ← Reader.word "max_players"
  let onlinePlayers ← Reader.word "online_players"
  let minAccess ← Coded.read AccessLevel
  let flags ← Reader.byte "flags"
  let kind ← Coded.read RealmKind
  let timezone ← Coded.read Timezone
  let count ← Reader.byte "build_count"
  let builds ← Reader.builds count
  return { id, name, gamePort, maxPlayers, onlinePlayers, minAccess, flags := ⟨flags⟩, kind,
           timezone, builds }

/-- A registration and the number of bytes after it. -/
def decode (payload : List UInt8) : Except FieldError (Registration × Nat) :=
  (read payload).map fun (registration, rest) => (registration, rest.length)

end Registration

/-- The answer to a registration. -/
structure RegistrationAnswer where
  added : Bool
  deriving DecidableEq, Repr

namespace RegistrationAnswer

/-- The payload of an answer: one byte, zero or one. -/
def encode (answer : RegistrationAnswer) : List UInt8 := [if answer.added then 1 else 0]

/-- Reads an answer. -/
def read : Reader RegistrationAnswer := do
  let b ← Reader.byte "added"
  Reader.check <|
    if b = 0 then .ok ⟨false⟩
    else if b = 1 then .ok ⟨true⟩
    else .error (.invalidValue "added" b.toNat)

end RegistrationAnswer

end RealmDirectory
