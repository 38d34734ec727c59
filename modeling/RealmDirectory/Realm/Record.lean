import RealmDirectory.Link
import RealmDirectory.LogRing
import RealmDirectory.Message.LogLine
import RealmDirectory.Message.Registration
import RealmDirectory.Message.Status
import RealmDirectory.Realm.Snapshot
/-!
# The record of a realm

A `RealmRecord` is what the directory keeps about one realm: the data it hands out, the latest log
lines, how far the log was delivered to admin sessions, and the link that registered the realm.

A record outlives its link. A new registration under the same id takes over the log and the
delivery mark of the record it replaces.
-/

namespace RealmDirectory

/-- Log lines kept for one realm. -/
def logCapacity : Nat := 1024

/-- What is kept about one realm. -/
structure RealmRecord where
  info : Snapshot
  log : LogRing LogLine
  /-- The stamp of the newest line delivered, if any was. -/
  checkpoint : Option Instant
  /-- The link that registered the realm, if there is one. -/
  owner : Option LinkId

namespace RealmRecord

/-- The record of a newly registered realm that called from `address`. -/
def ofRegistration (r : Registration) (address : String) (owner : Option LinkId) : RealmRecord where
  info := {
    id := r.id
    name := r.name
    address
    gamePort := r.gamePort
    flags := r.flags
    kind := r.kind
    minAccess := r.minAccess
    timezone := r.timezone
    maxPlayers := r.maxPlayers
    onlinePlayers := r.onlinePlayers
    population := Binary32.share r.onlinePlayers r.maxPlayers
    builds := BuildSet.ofList r.builds }
  log := LogRing.create logCapacity
  checkpoint := none
  owner

/-- The id of the realm. -/
def id (record : RealmRecord) : UInt32 := record.info.id

/-- The realm is not marked as gone. -/
def isOnline (record : RealmRecord) : Bool := !record.info.flags.isOffline

/-- The link that registered the realm is still served. -/
def hasLiveOwner (record : RealmRecord) (links : Links) : Bool := record.owner.any links.isLive

/-- The realm was registered by this link. -/
def isOwnedBy (record : RealmRecord) (link : LinkId) : Bool := record.owner == some link

/-- Sets or clears the offline mark. -/
def setOnline (record : RealmRecord) (online : Bool) : RealmRecord :=
  { record with info.flags := record.info.flags.setOnline online }

/-- Takes over a reported status; the offline mark stays. -/
def report (record : RealmRecord) (status : StatusReport) : RealmRecord :=
  { record with
    info.flags := record.info.flags.report status.flags
    info.population := status.population }

/-- Adds a line to the log. -/
def append (record : RealmRecord) (line : LogLine) (now : Instant) : RealmRecord :=
  { record with log := record.log.push line now }

/-- The stamped lines not delivered yet, newest first. -/
def undelivered (record : RealmRecord) : List (Stamped LogLine) :=
  record.log.unseen record.checkpoint

/-- Takes over the log and the delivery mark of the record this one replaces. -/
def inherit (record previous : RealmRecord) : RealmRecord :=
  { record with log := previous.log, checkpoint := previous.checkpoint }

@[simp] theorem id_setOnline (record : RealmRecord) (online : Bool) :
    (record.setOnline online).id = record.id := rfl

@[simp] theorem id_report (record : RealmRecord) (status : StatusReport) :
    (record.report status).id = record.id := rfl

@[simp] theorem id_append (record : RealmRecord) (line : LogLine) (now : Instant) :
    (record.append line now).id = record.id := rfl

@[simp] theorem id_inherit (record previous : RealmRecord) :
    (record.inherit previous).id = record.id := rfl

end RealmRecord

end RealmDirectory
