import RealmDirectory.Message.LogLine
import RealmDirectory.Message.Registration
import RealmDirectory.Realm.Snapshot
/-!
# Realms on the admin channel

The admin session learns of a realm by its snapshot: one in the message that announces a realm,
all of them in the list sent on admission. The builds of a snapshot are a set and are written in
ascending order; what is read may list them in any order.
-/

namespace RealmDirectory

open Payload (Coded FieldError Reader terminated word32)

namespace Snapshot

/-- The bytes of a snapshot; refused if it has more builds than one byte can count. -/
def encode (realm : Snapshot) : Except FieldError (List UInt8) := do
  let count ← Payload.countByte "build_count" realm.builds.size
  return word32 realm.id ++ terminated realm.name ++ terminated realm.address
    ++ word32 realm.gamePort
    ++ [realm.flags.bits, Coded.code realm.kind, Coded.code realm.minAccess,
        Coded.code realm.timezone]
    ++ word32 realm.maxPlayers ++ word32 realm.onlinePlayers ++ word32 realm.population.bits
    ++ [count] ++ realm.builds.toList.flatMap word32

/-- Reads a snapshot. -/
def read : Reader Snapshot := do
  let id ← Reader.word "id"
  let name ← Reader.text "name"
  let address ← Reader.text "address"
  let gamePort ← Reader.word "game_port"
  let flags ← Reader.byte "flags"
  let kind ← Coded.read RealmKind
  let minAccess ← Coded.read AccessLevel
  let timezone ← Coded.read Timezone
  let maxPlayers ← Reader.word "max_players"
  let onlinePlayers ← Reader.word "online_players"
  let population ← Reader.float "population"
  let count ← Reader.byte "build_count"
  let builds ← Reader.builds count
  return { id, name, address, gamePort, flags := ⟨flags⟩, kind, minAccess, timezone, maxPlayers,
           onlinePlayers, population, builds := BuildSet.ofList builds }

end Snapshot

namespace RealmList

/-- The payload that lists realms: their number, then their snapshots. -/
def encode (realms : List Snapshot) : Except FieldError (List UInt8) := do
  let count ← Payload.countWord "realm_count" realms.length
  let parts ← realms.mapM Snapshot.encode
  return word32 count ++ parts.flatten

/-- Reads a list of realms. -/
def read : Reader (List Snapshot) := do
  let count ← Reader.word "realm_count"
  Reader.times count.toNat Snapshot.read

end RealmList

end RealmDirectory
