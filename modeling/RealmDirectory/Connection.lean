import RealmDirectory.Connection.Pipe
import RealmDirectory.Frame.Chunk
import RealmDirectory.Hub.Harvest
import RealmDirectory.Session
/-!
# Connections

A `Connection` carries the bytes of a session: it reads chunks, splits them into envelopes, passes
these to the session and writes the replies, with a heartbeat whenever nothing was written for a
while. It ends when it is asked to, when the peer hangs up or stays silent too long, or when a
write fails; the deadline and the request to end hold also while a write waits for room.

What can happen to a connection is an `Event`. `Connection.due` lists the events that may happen at
an instant and `Connection.handle` makes one happen; the order among several due events is left
open, and `Connection.settle` always takes the first.

A chunk is dealt with envelope by envelope: a reply is written in full before the next envelope is
looked at, so a write that waits holds back the rest of its chunk.
-/

namespace RealmDirectory

/-- The longest time without a write. -/
def heartbeatPeriod : Nat := milliseconds 10000

/-- The longest time without a read, in seconds. -/
def deadlineSeconds : Nat := 30

/-- The longest time without a read. -/
def deadlinePeriod : Nat := milliseconds (deadlineSeconds * 1000)

/-- The most bytes taken in one read: an envelope of the greatest length. -/
def maxChunk : Nat := 65538

/-- What a write belongs to. -/
inductive Writing where
  | heartbeat
  /-- A reply, with what is left of the chunk after its envelope. -/
  | reply (rest : Chunk RealmOpcode)
  deriving DecidableEq, Repr

/-- What a connection is doing. -/
inductive Phase where
  /-- Nothing is under way. -/
  | idle
  /-- Some bytes are not written yet. -/
  | writing (what : Writing) (unsent : List UInt8)
  /-- It was torn down. -/
  | ended
  deriving DecidableEq, Repr

/-- Something that happens to a connection. -/
inductive Event where
  /-- The request to end is heeded. -/
  | shutdown
  /-- A heartbeat is due. -/
  | heartbeat
  /-- The peer was silent too long. -/
  | deadline
  /-- A chunk, or the end of the stream, is read. -/
  | read
  /-- A pending write goes on, or fails. -/
  | write
  deriving DecidableEq, Repr

/-- A session with its two pipes. -/
structure Connection where
  session : Session
  /-- From the peer. -/
  inbound : Pipe
  /-- To the peer. -/
  outbound : Pipe
  phase : Phase
  /-- The connection was asked to end. -/
  isCancelled : Bool

namespace Connection

variable {σ : Type}

/-- A new connection, whose pipes hold `capacity` bytes each. -/
def create (peer : Endpoint) (capacity : Nat) (hub : Hub σ) : Connection × Hub σ :=
  let (session, hub) := Session.start peer hub
  ({ session
     inbound := Pipe.create capacity
     outbound := Pipe.create capacity
     phase := .idle
     isCancelled := false }, hub)

/-- Starts the timers. -/
def arm (c : Connection) (now : Instant) (hub : Hub σ) : Connection × Hub σ :=
  ({ c with session.state := c.session.state.arm now heartbeatPeriod deadlinePeriod },
    hub.note (.opened c.session.peer))

/-- It was torn down. -/
def hasEnded (c : Connection) : Bool := c.phase == .ended

/-- Asks the connection to end. -/
def cancel (c : Connection) : Connection := { c with isCancelled := true }

/-! ## What is due -/

/-- The events that may happen at an instant. -/
def due (c : Connection) (now : Instant) : List Event :=
  match c.phase, c.session.state.timers with
  | .ended, _ => []
  | _, none => []
  | .idle, some timers =>
    [(c.isCancelled, Event.shutdown), (timers.heartbeatAt ≤ now, .heartbeat),
      (timers.deadlineAt ≤ now, .deadline), (c.inbound.isReadable, .read)].filterMap
      fun (isDue, event) => if isDue then some event else none
  | .writing _ _, some timers =>
    [(!c.outbound.isOpen || 0 < c.outbound.room, Event.write),
      (timers.deadlineAt ≤ now, .deadline), (c.isCancelled, .shutdown)].filterMap
      fun (isDue, event) => if isDue then some event else none

/-- When a timer goes off, if nothing else happens before. -/
def nextTimer? (c : Connection) : Option Instant :=
  match c.phase, c.session.state.timers with
  | .ended, _ => none
  | _, none => none
  | .idle, some timers => some (min timers.heartbeatAt timers.deadlineAt)
  | .writing _ _, some timers => some timers.deadlineAt

/-! ## What an event does -/

variable [Transport σ]

/-- Tears the connection down. The link is closed before the realm is given up. -/
def finish (c : Connection) (hub : Hub σ) : Connection × Hub σ :=
  let hub := c.session.release { hub with links := hub.links.close c.session.link }
  ({ c with
      session.state := c.session.state.cancel
      inbound := c.inbound.close
      outbound := c.outbound.close
      phase := .ended },
    hub.note (.ended c.session.peer))

/-- Tears the connection down because a write failed. -/
def fail (c : Connection) (what : Writing) (reason : String) (hub : Hub σ) :
    Connection × Hub σ :=
  let notice := match what with
    | .heartbeat => Notice.heartbeatFailed c.session.peer reason
    | .reply _ => Notice.writeFailed c.session.peer reason
  c.finish (hub.note notice)

/-- Tears the connection down because of a fault in what carries the bytes: of a read while nothing
is under way, and of the write under way otherwise. -/
def breakDown (c : Connection) (reason : String) (hub : Hub σ) : Connection × Hub σ :=
  match c.phase with
  | .idle => c.finish (hub.note (.readFailed c.session.peer reason))
  | .writing what _ => c.fail what reason hub
  | .ended => (c, hub)

/-- Begins to write an envelope. -/
def send (c : Connection) (what : Writing) (envelope : Envelope) (hub : Hub σ) :
    Connection × Hub σ :=
  match envelope.encode with
  | .error cause => c.fail what cause.message hub
  | .ok bytes => ({ c with phase := .writing what bytes }, hub)

/-- Deals with the envelopes of a chunk up to the first reply, and with what was discarded after
the last one. -/
def process (c : Connection) (discarded : Option Discarded) (now : Instant) (hub : Hub σ) :
    List Envelope → Connection × Hub σ
  | [] =>
    let hub := match discarded with
      | none => hub
      | some part =>
        hub.note (.malformedEnvelope c.session.peer part.fault part.bytes.length)
    ({ c with phase := .idle }, hub)
  | envelope :: rest =>
    match c.session.dispatch envelope now hub with
    | (none, session, hub) => process { c with session } discarded now hub rest
    | (some reply, session, hub) =>
      { c with session }.send (.reply ⟨rest, discarded⟩) reply hub

/-- Reads once. -/
def read (c : Connection) (now : Instant) (hub : Hub σ) : Connection × Hub σ :=
  let (bytes, inbound) := c.inbound.pull maxChunk
  if bytes.isEmpty then c.finish (hub.note (.hungUp c.session.peer))
  else
    let chunk : Chunk RealmOpcode := Chunk.split bytes
    let c := { c with inbound, session.state := c.session.state.rearmDeadline now }
    c.process chunk.discarded now hub chunk.frames

/-- Goes on with a write. -/
def write (c : Connection) (what : Writing) (unsent : List UInt8) (now : Instant) (hub : Hub σ) :
    Connection × Hub σ :=
  if !c.outbound.isOpen then c.fail what "broken pipe" hub
  else
    let (unsent, outbound) := c.outbound.push unsent
    if !unsent.isEmpty then ({ c with outbound, phase := .writing what unsent }, hub)
    else
      let c := { c with outbound, session.state := c.session.state.postponeHeartbeat now }
      match what with
      | .heartbeat => ({ c with phase := .idle }, hub)
      | .reply rest => c.process rest.discarded now hub rest.frames

/-- Makes an event happen; one that does not fit the phase does nothing. -/
def handle (c : Connection) (event : Event) (now : Instant) (hub : Hub σ) :
    Connection × Hub σ :=
  match c.phase, event with
  | .idle, .shutdown => c.finish (hub.note (.shutDown c.session.peer))
  | .idle, .heartbeat => c.send .heartbeat Envelope.heartbeat hub
  | .idle, .deadline => c.finish (hub.note (.silent c.session.peer deadlineSeconds))
  | .idle, .read => c.read now hub
  | .writing what unsent, .write => c.write what unsent now hub
  | .writing what _, .deadline => c.fail what "deadline expired with a write pending" hub
  | .writing what _, .shutdown => c.fail what "shutdown with a write pending" hub
  | _, _ => (c, hub)

/-! ## Until nothing is due -/

/-- A bound on the events that can happen without time passing and without the peer: one for each
byte to be read or written and for each step of a reply. -/
def work (c : Connection) : Nat :=
  let pending := match c.phase with
    | .writing (.reply rest) unsent => 8 * rest.frames.length + unsent.length
    | .writing .heartbeat unsent => unsent.length
    | _ => 0
  16 + 8 * c.inbound.bytes.length + pending

/-- Makes at most `count` events happen, the first one due each time. -/
def advance (now : Instant) : Nat → Connection → Hub σ → Connection × Hub σ
  | 0, c, hub => (c, hub)
  | count + 1, c, hub =>
    match c.due now with
    | [] => (c, hub)
    | event :: _ =>
      let (c, hub) := c.handle event now hub
      advance now count c hub

/-- Lets happen whatever is due. -/
def settle (c : Connection) (now : Instant) (hub : Hub σ) : Connection × Hub σ :=
  advance now c.work c hub

end Connection

end RealmDirectory
