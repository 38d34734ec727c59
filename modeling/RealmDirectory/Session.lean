import RealmDirectory.Frame.Opcode
import RealmDirectory.Hub
import RealmDirectory.Session.State
/-!
# Sessions

A `Session` is what the directory does with the envelopes of one connection, apart from carrying
the bytes: `Session.dispatch` takes one envelope and gives the reply, if there is one.

A reply answers a registration and nothing else does. The first registration that the table
accepts binds the session to its realm for good; from then on a status report or a log line goes to
that realm. What is malformed, out of turn or not meant for the directory is noted and ignored.
-/

namespace RealmDirectory

/-- One connection of a realm server. -/
structure Session where
  peer : Endpoint
  link : LinkId
  state : SessionState

namespace Session

/-- The reply to a registration. -/
def answer (added : Bool) : Envelope :=
  ⟨.registrationResponse, RegistrationAnswer.encode ⟨added⟩⟩

variable {σ : Type}

/-- A new session; its link is live. -/
def start (peer : Endpoint) (hub : Hub σ) : Session × Hub σ :=
  let (link, links) := hub.links.add peer
  (⟨peer, link, SessionState.start⟩, { hub with links })

/-- Passes an envelope that makes sense only after a registration on to the registered realm. -/
def ifRegistered (session : Session) (opcode : RealmOpcode) (hub : Hub σ)
    (use : UInt32 → Hub σ) : Hub σ :=
  match session.state.realm with
  | none => hub.note (.beforeRegistration opcode session.peer)
  | some id => use id

variable [Transport σ]

/-- Enters a decoded registration into the table. -/
def enroll (session : Session) (registration : Registration) (hub : Hub σ) :
    Envelope × Session × Hub σ :=
  let record := RealmRecord.ofRegistration registration session.peer.address.toText
    (some session.link)
  match hub.register record with
  | (.error cause, hub) =>
    (answer false, session, hub.note (.registrationRefused session.peer cause))
  | (.ok _, hub) =>
    (answer true, { session with state := (session.state.bind record.id).2 },
      hub.note (.bound session.peer record.id))

/-- Deals with the payload of a registration. -/
def register (session : Session) (payload : List UInt8) (hub : Hub σ) :
    Envelope × Session × Hub σ :=
  match session.state.realm with
  | some id => (answer false, session, hub.note (.registeredTwice id session.peer))
  | none =>
    match Registration.decode payload with
    | .error cause => (answer false, session, hub.note (.malformedRegistration session.peer cause))
    | .ok (registration, 0) => session.enroll registration hub
    | .ok (registration, trailing) =>
      session.enroll registration (hub.note (.trailingBytes session.peer trailing))

/-- Deals with the payload of a status report about the registered realm. -/
def report (id : UInt32) (payload : List UInt8) (hub : Hub σ) : Hub σ :=
  match StatusReport.read.decode payload with
  | .error cause => hub.note (.malformedStatus id cause)
  | .ok status =>
    match hub.report id status with
    | (.ok (), hub) => hub
    | (.error cause, hub) => hub.note (.statusDropped id cause)

omit [Transport σ] in
/-- Deals with the payload of a log line of the registered realm. -/
def append (id : UInt32) (payload : List UInt8) (now : Instant) (hub : Hub σ) : Hub σ :=
  match LogLine.read.decode payload with
  | .error cause => hub.note (.malformedLine id cause)
  | .ok line =>
    match hub.append id line now with
    | (.ok (), hub) => hub
    | (.error cause, hub) => hub.note (.lineDropped id cause)

/-- Deals with an envelope. -/
def dispatch (session : Session) (envelope : Envelope) (now : Instant) (hub : Hub σ) :
    Option Envelope × Session × Hub σ :=
  match envelope.opcode with
  | .registeringRequest =>
    let (reply, session, hub) := session.register envelope.payload hub
    (some reply, session, hub)
  | .statusUpdate =>
    (none, session,
      session.ifRegistered .statusUpdate hub fun id => report id envelope.payload hub)
  | .logMessage =>
    (none, session,
      session.ifRegistered .logMessage hub fun id => append id envelope.payload now hub)
  | .heartbeat => (none, session, hub)
  | opcode => (none, session, hub.note (.unexpected opcode session.peer))

/-- Gives the registered realm up; it goes offline if it is still this session's. -/
def release (session : Session) (hub : Hub σ) : Hub σ :=
  match session.state.realm with
  | none => hub
  | some id => (hub.release id session.link).2

end Session

end RealmDirectory
