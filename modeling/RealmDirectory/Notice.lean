import RealmDirectory.Endpoint
import RealmDirectory.Fault
import RealmDirectory.Frame.Opcode
import RealmDirectory.Realm.Change
/-!
# Notices

While it works, the directory notes down what happens: each event worth noting is a `Notice` with
the data it is about. `Notice.level` says how serious it is and `Notice.text` words it; nothing
else in the directory does either.
-/

namespace RealmDirectory

open Payload (Coded FieldError)

/-- How serious a notice is. -/
inductive Level where
  | info
  | warning
  | error
  deriving DecidableEq, Repr

/-- The word in front of a notice. -/
def Level.word : Level → String
  | info => "INFO"
  | warning => "WARN"
  | error => "ERROR"

/-- Something worth noting. -/
inductive Notice where
  -- the table of realms
  | registered (id : UInt32) (name : String) (outcome : RegisterOutcome) (address : String)
  | removed (id : UInt32)
  | wentOffline (id : UInt32)
  | snapshotNotSent (id : UInt32) (cause : FieldError)
  -- the admin session
  | admittedTwice (session : Nat)
  | admitted (session : Nat)
  | listNotSent (session : Nat) (cause : FieldError)
  | evicted (session : Nat)
  | frameNotSent (opcode : AdminOpcode) (cause : FieldError)
  | lagging (session : Nat)
  | transportClosed (session : Nat)
  | accessRefused (peer : Endpoint) (access : AccessLevel)
  | slotRefused (peer : Endpoint)
  | enteredAdminMode (peer : Endpoint) (session : Nat)
  | leftAdminMode (peer : Endpoint)
  -- harvesting
  | harvestFailed (cause : HarvestError)
  | harvesterStopped
  -- what realm servers send
  | unexpected (opcode : RealmOpcode) (peer : Endpoint)
  | beforeRegistration (opcode : RealmOpcode) (peer : Endpoint)
  | registeredTwice (id : UInt32) (peer : Endpoint)
  | malformedRegistration (peer : Endpoint) (cause : FieldError)
  | trailingBytes (peer : Endpoint) (count : Nat)
  | bound (peer : Endpoint) (id : UInt32)
  | registrationRefused (peer : Endpoint) (cause : RealmError)
  | statusDropped (id : UInt32) (cause : RealmError)
  | malformedStatus (id : UInt32) (cause : FieldError)
  | lineDropped (id : UInt32) (cause : RealmError)
  | malformedLine (id : UInt32) (cause : FieldError)
  | malformedEnvelope (peer : Endpoint) (cause : FrameError) (discarded : Nat)
  -- connections
  | opened (peer : Endpoint)
  | shutDown (peer : Endpoint)
  | silent (peer : Endpoint) (seconds : Nat)
  | hungUp (peer : Endpoint)
  | readFailed (peer : Endpoint) (reason : String)
  | heartbeatFailed (peer : Endpoint) (reason : String)
  | writeFailed (peer : Endpoint) (reason : String)
  | ended (peer : Endpoint)
  -- the server
  | accepted (peer : Endpoint)
  | turnedAway (peer : Endpoint) (count : Nat)
  | stopping (count : Nat)
  | stopped
  -- anything that went wrong
  | fault (cause : Fault)

namespace Notice

/-- How serious a notice is. -/
def level : Notice → Level
  | registered .. | removed _ | wentOffline _ | admitted _ | evicted _ => .info
  | enteredAdminMode .. | leftAdminMode _ | harvesterStopped | bound .. | opened _ => .info
  | shutDown _ | hungUp _ | ended _ | accepted _ | stopping _ | stopped => .info
  | snapshotNotSent .. | admittedTwice _ | listNotSent .. | frameNotSent .. | lagging _ => .warning
  | transportClosed _ | accessRefused .. | slotRefused _ | unexpected .. => .warning
  | beforeRegistration .. | registeredTwice .. | malformedRegistration .. => .warning
  | trailingBytes .. | registrationRefused .. | statusDropped .. | malformedStatus .. => .warning
  | lineDropped .. | malformedLine .. | malformedEnvelope .. | silent .. => .warning
  | turnedAway .. => .warning
  | harvestFailed _ | readFailed .. | heartbeatFailed .. | writeFailed .. => .error
  | fault cause => if cause.byPeer then .warning else .error

/-- The wording of a notice. -/
def text : Notice → String
  | registered id name outcome address =>
    s!"Realm {id.toNat} ({name}) {outcome.name} at {address}"
  | removed id => s!"Realm {id.toNat} removed from registry"
  | wentOffline id => s!"Realm {id.toNat} is now offline"
  | snapshotNotSent id cause => s!"Could not encode realm {id.toNat} for admin: {cause.message}"
  | admittedTwice session => s!"Admin session {session} asked to be admitted again"
  | admitted session => s!"Admin session {session} admitted"
  | listNotSent session cause =>
    s!"Could not encode realm list for admin {session}: {cause.message}"
  | evicted session => s!"Admin session {session} evicted"
  | frameNotSent opcode cause => s!"Dropping {opcode.name} event: {cause.message}"
  | lagging session => s!"Admin session {session} is not keeping up, event dropped"
  | transportClosed session => s!"Admin session {session} transport closed"
  | accessRefused peer access =>
    s!"Admin mode refused for {peer.toText}: access level {Coded.name access}"
  | slotRefused peer => s!"Admin mode refused for {peer.toText}: slot taken"
  | enteredAdminMode peer session => s!"{peer.toText} entered admin mode as session {session}"
  | leftAdminMode peer => s!"{peer.toText} left admin mode"
  | harvestFailed cause => s!"Harvest tick failed, retrying next tick: {cause.message}"
  | harvesterStopped => "Log harvester stopped"
  | unexpected opcode peer => s!"Not handled {opcode.wireName} received from {peer.toText}"
  | beforeRegistration opcode peer =>
    s!"{opcode.wireName} from {peer.toText} before registration, ignored"
  | registeredTwice id peer =>
    s!"Realm {id.toNat} at {peer.toText} sent registration request while already registered"
  | malformedRegistration peer cause =>
    s!"Malformed registration request from {peer.toText}: {cause.message}"
  | trailingBytes peer count =>
    s!"Registration request from {peer.toText} carried {count} unprocessed bytes"
  | bound peer id => s!"Connection {peer.toText} registered realm {id.toNat}"
  | registrationRefused peer cause => s!"Registration from {peer.toText} refused: {cause.message}"
  | statusDropped id cause => s!"Status update for realm {id.toNat} dropped: {cause.message}"
  | malformedStatus id cause => s!"Malformed status update from realm {id.toNat}: {cause.message}"
  | lineDropped id cause => s!"Log line for realm {id.toNat} dropped: {cause.message}"
  | malformedLine id cause => s!"Malformed log message from realm {id.toNat}: {cause.message}"
  | malformedEnvelope peer cause discarded =>
    s!"Malformed envelope from {peer.toText}: {cause.message}; discarded {discarded} bytes"
  | opened peer => s!"Realm connection opened from {peer.toText}"
  | shutDown peer => s!"Closing connection from {peer.toText} for shutdown"
  | silent peer seconds => s!"No data from {peer.toText} in {seconds}s, closing connection"
  | hungUp peer => s!"Connection closed by {peer.toText}"
  | readFailed peer reason => s!"Failed to read from {peer.toText}: {reason}"
  | heartbeatFailed peer reason => s!"Failed to send heartbeat to {peer.toText}: {reason}"
  | writeFailed peer reason => s!"Failed to write to {peer.toText}: {reason}"
  | ended peer => s!"Realm connection from {peer.toText} closed"
  | accepted peer => s!"Accepted realm connection from {peer.toText}"
  | turnedAway peer count => s!"Refusing {peer.toText}: {count} connections already open"
  | stopping count => s!"Shutting down, closing {count} realm connections"
  | stopped => "Realm registry stopped"
  | fault cause =>
    if cause.byPeer then "Realm registry fault: " ++ cause.message
    else "Realm registry error: " ++ cause.message

/-- A notice as a line of the log. -/
def line (notice : Notice) : String := notice.level.word ++ " " ++ notice.text

end Notice

end RealmDirectory
