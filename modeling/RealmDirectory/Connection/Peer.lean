import RealmDirectory.Connection
/-!
# The far end of a connection

A `Peer` writes into the inbound pipe of its connection and reads from the outbound one. It may
stop reading for a while, shut its writing side down, or hang up altogether. What it has received
is kept with the instant of its arrival.
-/

namespace RealmDirectory

/-- Bytes that arrived at one instant, or the end of the stream. -/
structure Receipt where
  time : Instant
  bytes : Option (List UInt8)
  deriving DecidableEq, Repr

/-- Adds bytes to what has arrived, the latest first; those of one instant are joined. -/
def Receipt.addBytes (time : Instant) (bytes : List UInt8) : List Receipt → List Receipt
  | ⟨latest, some before⟩ :: rest =>
    if latest = time then ⟨time, some (before ++ bytes)⟩ :: rest
    else ⟨time, some bytes⟩ :: ⟨latest, some before⟩ :: rest
  | receipts => ⟨time, some bytes⟩ :: receipts

/-- The far end of a connection. -/
structure Peer where
  isReading : Bool
  hasHungUp : Bool
  /-- The end of the stream has arrived. -/
  sawEnd : Bool
  /-- What has arrived, the latest first. -/
  received : List Receipt
  deriving Repr

namespace Peer

/-- A peer that has received nothing yet. -/
def create (isReading : Bool) : Peer := ⟨isReading, false, false, []⟩

/-- Takes out of a pipe whatever it holds. -/
def drain (peer : Peer) (pipe : Pipe) (now : Instant) : Peer × Pipe :=
  if !peer.isReading || peer.hasHungUp || peer.sawEnd then (peer, pipe)
  else
    let (bytes, pipe) := pipe.pull pipe.bytes.length
    let received := if bytes.isEmpty then peer.received
      else Receipt.addBytes now bytes peer.received
    if pipe.isOpen then ({ peer with received }, pipe)
    else ({ peer with received := ⟨now, none⟩ :: received, sawEnd := true }, pipe)

end Peer

/-- A connection and its far end. -/
structure Exchange where
  connection : Connection
  peer : Peer

/-- What became of a write by the peer. -/
inductive WriteOutcome where
  /-- As much as there was room for went in. -/
  | accepted (bytes : Nat)
  /-- The other side takes no more bytes. -/
  | broken (bytes : Nat)
  /-- The peer has hung up. -/
  | hungUp
  deriving DecidableEq, Repr

namespace Exchange

variable {σ : Type}

/-- Lets the peer hang up: it neither reads nor writes any more. -/
def hangUp (x : Exchange) : Exchange :=
  { connection := { x.connection with
      inbound := x.connection.inbound.close
      outbound := x.connection.outbound.close }
    peer := { x.peer with hasHungUp := true } }

/-- Lets the peer shut its writing side down. -/
def shutInbound (x : Exchange) : Exchange :=
  { x with connection.inbound := x.connection.inbound.close }

variable [Transport σ]

/-- At most `rounds` times: the connection does what is due, then the peer reads. -/
def alternate (now : Instant) : Nat → Exchange → Hub σ → Exchange × Hub σ
  | 0, x, hub => (x, hub)
  | rounds + 1, x, hub =>
    let (connection, hub) := x.connection.settle now hub
    let (peer, outbound) := x.peer.drain connection.outbound now
    let drained := connection.outbound.bytes.length - outbound.bytes.length
    let x : Exchange := ⟨{ connection with outbound }, peer⟩
    if drained = 0 then (x, hub) else alternate now rounds x hub

/-- Lets happen whatever is due on both ends. -/
def settle (x : Exchange) (now : Instant) (hub : Hub σ) : Exchange × Hub σ :=
  alternate now (x.connection.work + x.connection.outbound.bytes.length) x hub

/-- Lets the peer write, as long as the connection takes bytes; `written` of them are in
already. -/
def writeFrom (x : Exchange) (written : Nat) (bytes : List UInt8) (now : Instant) (hub : Hub σ) :
    WriteOutcome × Exchange × Hub σ :=
  if bytes.isEmpty then (.accepted written, x, hub)
  else if !x.connection.inbound.isOpen then (.broken written, x, hub)
  else
    let (rest, inbound) := x.connection.inbound.push bytes
    let (next, later) := settle { x with connection := { x.connection with inbound } } now hub
    if rest.length < bytes.length then
      next.writeFrom (written + (bytes.length - rest.length)) rest now later
    else (.accepted written, next, later)
  termination_by bytes.length

/-- Lets the peer write. -/
def write (x : Exchange) (bytes : List UInt8) (now : Instant) (hub : Hub σ) :
    WriteOutcome × Exchange × Hub σ :=
  if x.peer.hasHungUp then (.hungUp, x, hub) else x.writeFrom 0 bytes now hub

end Exchange

end RealmDirectory
