import RealmDirectory.Fault
import RealmDirectory.Realm.Table
/-!
# Changes to the table of realms

Every change is made in one step: it looks at the table as it is, decides, and gives the new table
together with what is to be announced about it. What it announces describes the new table, since
both come from the same step; sending the announcement is somebody else's later step.

A change that is refused gives no table, so nothing has happened.
-/

namespace RealmDirectory

/-- How a registration went into the table. -/
inductive RegisterOutcome where
  | added
  | replaced
  deriving DecidableEq, Repr

/-- The name of an outcome. -/
def RegisterOutcome.name : RegisterOutcome → String
  | added => "Added"
  | replaced => "Replaced"

namespace RealmTable

/-- Adds a record, or replaces one whose link is no longer served; the new record is online. A
replacement takes over the log. An id whose link is served is refused. -/
def register (table : RealmTable) (links : Links) (record : RealmRecord) :
    Except RealmError (RegisterOutcome × Snapshot × RealmTable) :=
  let record := record.setOnline true
  match table.find? record.id with
  | none => .ok (.added, record.info, table.put record)
  | some existing =>
    if existing.hasLiveOwner links then .error (.owned record.id)
    else
      let record := record.inherit existing
      .ok (.replaced, record.info, table.put record)

/-- Drops a realm for good; `none` if there is no such realm. -/
def remove? (table : RealmTable) (id : UInt32) : Option RealmTable :=
  (table.find? id).map fun _ => table.erase id

/-- Stores a record with another offline mark; gives the status to announce if the mark changed. -/
def mark (table : RealmTable) (record : RealmRecord) (online : Bool) :
    Option StatusChange × RealmTable :=
  let marked := record.setOnline online
  (if marked.info.flags = record.info.flags then none else some marked.info.status,
    table.put marked)

/-- Sets or clears the offline mark of a realm. -/
def setOnline (table : RealmTable) (id : UInt32) (online : Bool) :
    Except RealmError (Option StatusChange × RealmTable) :=
  match table.find? id with
  | none => .error (.notFound id)
  | some record => .ok (table.mark record online)

/-- Marks a realm as gone if it was this link that registered it; `none` if it was not. -/
def release? (table : RealmTable) (id : UInt32) (link : LinkId) :
    Option (Option StatusChange × RealmTable) :=
  match table.find? id with
  | none => none
  | some record => if record.isOwnedBy link then some (table.mark record false) else none

/-- Takes over a reported status. -/
def report (table : RealmTable) (id : UInt32) (status : StatusReport) :
    Except RealmError (StatusChange × RealmTable) :=
  match table.find? id with
  | none => .error (.notFound id)
  | some record =>
    let record := record.report status
    .ok (record.info.status, table.put record)

/-- Adds a line to the log of a realm. -/
def append (table : RealmTable) (id : UInt32) (line : LogLine) (now : Instant) :
    Except RealmError RealmTable :=
  match table.find? id with
  | none => .error (.notFound id)
  | some record => .ok (table.put (record.append line now))

/-- Forgets the log of a realm. -/
def clearLog (table : RealmTable) (id : UInt32) : Except RealmError RealmTable :=
  match table.find? id with
  | none => .error (.notFound id)
  | some record => .ok (table.put { record with log := record.log.clear })

/-- Moves the delivery mark of a realm; a realm that is gone has none to move. -/
def setCheckpoint (table : RealmTable) (id : UInt32) (stamp : Instant) : RealmTable :=
  match table.find? id with
  | none => table
  | some record => table.put { record with checkpoint := some stamp }

end RealmTable

end RealmDirectory
