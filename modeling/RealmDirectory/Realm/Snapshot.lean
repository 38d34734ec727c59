import RealmDirectory.Binary32
import RealmDirectory.Realm.Builds
import RealmDirectory.Realm.Category
import RealmDirectory.Realm.Flags
/-!
# What is known of a realm

A `Snapshot` is the data of a realm that the directory hands out: what the realm said of itself
when it registered, the address it called from, and its latest status. A `StatusChange` is the
part of it that changes while the realm runs.
-/

namespace RealmDirectory

/-- The advertised data of a realm at one moment. -/
structure Snapshot where
  id : UInt32
  name : String
  address : String
  gamePort : UInt32
  flags : RealmFlags
  kind : RealmKind
  minAccess : AccessLevel
  timezone : Timezone
  maxPlayers : UInt32
  onlinePlayers : UInt32
  population : Binary32
  builds : BuildSet
  deriving DecidableEq

/-- The status of a realm after a change. -/
structure StatusChange where
  id : UInt32
  flags : RealmFlags
  population : Binary32
  deriving DecidableEq, Repr

/-- The status part of a snapshot. -/
def Snapshot.status (realm : Snapshot) : StatusChange :=
  ⟨realm.id, realm.flags, realm.population⟩

end RealmDirectory
