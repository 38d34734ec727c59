import RealmDirectory.Hub.Slot
import RealmDirectory.Message.Listing
import RealmDirectory.Notice
/-!
# The hub

The hub is the state that all connections share: the links, the table of realms, the admin slot,
the transport behind it, and the notices taken down so far, the latest first.

A realm operation changes the table in one step and then announces the change to whoever holds the
admin slot at that moment. The two are separate steps on purpose. Nothing that the admin side does
can refuse or undo the change: if the announcement cannot be sent, that is noted and the operation
succeeds all the same.
-/

namespace RealmDirectory

/-- The shared state, over a transport `σ`. -/
structure Hub (σ : Type) where
  links : Links
  realms : RealmTable
  slot : AdminSlot
  transport : σ
  /-- What was noted, the latest first. -/
  notices : List Notice

/-- A change to be announced to the admin session. -/
inductive Announcement where
  /-- A realm was added or replaced. -/
  | realm (snapshot : Snapshot)
  /-- The status of a realm changed. -/
  | status (change : StatusChange)
  deriving DecidableEq

namespace Announcement

/-- The frame that makes an announcement, unless the snapshot cannot be written. -/
def frame : Announcement → Except Payload.FieldError AdminFrame
  | realm snapshot => do return ⟨.realmAdded, ← snapshot.encode⟩
  | status change => .ok ⟨.realmStatus, change.encode⟩

end Announcement

namespace Hub

/-- Nothing known and nobody there. -/
def start (transport : σ) : Hub σ where
  links := Links.empty
  realms := RealmTable.empty
  slot := AdminSlot.empty
  transport
  notices := []

/-- Takes down a notice. -/
def note (hub : Hub σ) (notice : Notice) : Hub σ :=
  { hub with notices := notice :: hub.notices }

/-! ## The admin session -/

/-- Takes the admin slot from a session; does nothing if another session or none has it. -/
def evict (hub : Hub σ) (session : Nat) : Bool × Hub σ :=
  match hub.slot.vacate? session with
  | none => (false, hub)
  | some slot => (true, { hub with slot }.note (.evicted session))

/-- What happens when a frame was not taken: a session nobody receives for is evicted. -/
def sinkFailed (hub : Hub σ) (session : Nat) : DeliveryError → Hub σ
  | .full => hub.note (.lagging session)
  | .closed => ((hub.note (.transportClosed session)).evict session).2

variable [Transport σ]

/-- Offers bytes to the sink of a session and deals with a refusal. The session need not be the
one that has the slot by now. -/
def deliver (hub : Hub σ) (session : AdminSession) (bytes : List UInt8) :
    Except DeliveryError Unit × Hub σ :=
  match Transport.offer session.sink bytes hub.transport with
  | (.ok (), transport) => (.ok (), { hub with transport })
  | (.error cause, transport) =>
    (.error cause, { hub with transport }.sinkFailed session.id cause)

/-- Sends a frame to a session. -/
def send (hub : Hub σ) (session : AdminSession) (frame : AdminFrame) : Hub σ :=
  match frame.encode with
  | .error cause => hub.note (.frameNotSent frame.opcode cause)
  | .ok bytes => (hub.deliver session bytes).2

/-- Makes an announcement to the admin session there is. A snapshot that cannot be written is
noted even if nobody would receive it. -/
def announce (hub : Hub σ) (announcement : Announcement) : Hub σ :=
  match announcement, announcement.frame with
  | .realm snapshot, .error cause => hub.note (.snapshotNotSent snapshot.id cause)
  | .status _, .error cause => hub.note (.frameNotSent .realmStatus cause)
  | _, .ok frame =>
    match hub.slot.current with
    | none => hub
    | some session => hub.send session frame

/-- Sends the list of realms to a session. -/
def sendList (hub : Hub σ) (session : AdminSession) (realms : List Snapshot) : Hub σ :=
  let bytes : Except Payload.FieldError (List UInt8) := do
    Frame.encode ⟨AdminOpcode.realmList, ← RealmList.encode realms⟩
  match bytes with
  | .error cause => hub.note (.listNotSent session.id cause)
  | .ok bytes => (hub.deliver session bytes).2

/-- Gives the slot to a login, which then receives the list of realms. A login that already has a
session number is turned down, and so is any login while the slot is taken. -/
def admitSession (hub : Hub σ) (sink : SinkId) (current : Option Nat) : Option Nat × Hub σ :=
  match current with
  | some session => (none, hub.note (.admittedTwice session))
  | none =>
    match hub.slot.claim? sink with
    | none => (none, hub)
    | some (session, slot) =>
      let hub := { hub with slot }.note (.admitted session.id)
      (some session.id, hub.sendList session hub.realms.snapshots)

/-! ## Realms -/

/-- Registers a realm. -/
def register (hub : Hub σ) (record : RealmRecord) : Except RealmError RegisterOutcome × Hub σ :=
  match hub.realms.register hub.links record with
  | .error cause => (.error cause, hub)
  | .ok (outcome, snapshot, realms) =>
    let hub := { hub with realms }.note
      (.registered snapshot.id snapshot.name outcome snapshot.address)
    (.ok outcome, hub.announce (.realm snapshot))

/-- Announces a change of status, if there was one. -/
def announceIfSome (hub : Hub σ) (change : Option StatusChange) : Hub σ :=
  match change with
  | none => hub
  | some change => hub.announce (.status change)

/-- Sets or clears the offline mark of a realm. -/
def setOnline (hub : Hub σ) (id : UInt32) (online : Bool) : Except RealmError Unit × Hub σ :=
  match hub.realms.setOnline id online with
  | .error cause => (.error cause, hub)
  | .ok (change, realms) => (.ok (), { hub with realms }.announceIfSome change)

/-- Marks a realm as gone if this link registered it. -/
def release (hub : Hub σ) (id : UInt32) (link : LinkId) : Bool × Hub σ :=
  match hub.realms.release? id link with
  | none => (false, hub)
  | some (none, realms) => (true, { hub with realms })
  | some (some change, realms) =>
    (true, ({ hub with realms }.note (.wentOffline id)).announce (.status change))

/-- Takes over a reported status. -/
def report (hub : Hub σ) (id : UInt32) (status : StatusReport) : Except RealmError Unit × Hub σ :=
  match hub.realms.report id status with
  | .error cause => (.error cause, hub)
  | .ok (change, realms) => (.ok (), { hub with realms }.announce (.status change))

omit [Transport σ] in
/-- Adds a line to the log of a realm. -/
def append (hub : Hub σ) (id : UInt32) (line : LogLine) (now : Instant) :
    Except RealmError Unit × Hub σ :=
  match hub.realms.append id line now with
  | .error cause => (.error cause, hub)
  | .ok realms => (.ok (), { hub with realms })

omit [Transport σ] in
/-- Forgets the log of a realm. -/
def clearLog (hub : Hub σ) (id : UInt32) : Except RealmError Unit × Hub σ :=
  match hub.realms.clearLog id with
  | .error cause => (.error cause, hub)
  | .ok realms => (.ok (), { hub with realms })

omit [Transport σ] in
/-- Drops a realm for good. -/
def remove (hub : Hub σ) (id : UInt32) : Bool × Hub σ :=
  match hub.realms.remove? id with
  | none => (false, hub)
  | some realms => (true, { hub with realms }.note (.removed id))

end Hub

end RealmDirectory
