import RealmDirectory.Server.Listener
import RealmDirectory.Service
import RealmDirectory.Settings
/-!
# The server

A `Server` runs the directory: it listens, takes up to a maximum of connections on, and turns away
any that come while that many sessions are counted. A session counts from the moment its connection
is accepted until the server has joined it, which it can do only when the session has ended.

A server is stopped by a signal. Every session is then asked to end, also one that is accepted
after the signal and before the server has noticed it; the server stops when it has joined all of
them.
-/

namespace RealmDirectory

/-- How far a server has come. -/
inductive ServerPhase where
  /-- It accepts connections. -/
  | serving
  /-- It waits for its sessions. -/
  | draining
  | stopped
  deriving DecidableEq, Repr

/-- The directory with its listeners, over a transport `σ`. -/
structure Server (σ : Type) where
  settings : Settings
  /-- Where realm servers connect to. -/
  listener : Endpoint
  /-- Where admin logins connect to. -/
  adminListener : Option Endpoint
  service : Service σ
  /-- The connections whose sessions were started and not joined. -/
  sessions : List Nat
  /-- It was told to stop. -/
  isSignalled : Bool
  phase : ServerPhase

namespace Server

variable {σ : Type}

/-- A server behind listeners that are set up already. -/
def create (settings : Settings) (listener : Endpoint) (adminListener : Option Endpoint)
    (transport : σ) : Server σ where
  settings
  listener
  adminListener
  service := Service.start transport
  sessions := []
  isSignalled := false
  phase := .serving

/-- A server with these settings on a machine. The settings are validated first, then the
listeners are set up, that for realm servers before the other. -/
def bind (settings : Settings) (machine : Machine) (transport : σ) : Except Fault (Server σ) := do
  match settings.validate with
  | .error fault => throw (.settings fault.message)
  | .ok () =>
    let listener ← (machine.listen settings.socket).mapError fun e => .io e.message
    let adminListener ← match settings.adminAddress with
      | none => pure none
      | some address =>
        some <$> (machine.listen address).mapError fun e => .io e.message
    return create settings listener adminListener transport

/-- Takes down a notice. -/
def note (server : Server σ) (notice : Notice) : Server σ :=
  { server with service.hub := server.service.hub.note notice }

variable [Transport σ]

/-- Starts the harvester. -/
def start (server : Server σ) : Server σ :=
  { server with service := server.service.startHarvester }

/-- Deals with a connection that comes in: takes it on, or turns it away. -/
def accept (server : Server σ) (peer : Endpoint) (capacity : Nat) (isReading : Bool) :
    Server σ :=
  if server.phase ≠ .serving then server
  else if server.settings.maxConnections ≤ server.sessions.length then
    server.note (.turnedAway peer server.sessions.length)
  else
    let server := server.note (.accepted peer)
    let i := server.service.exchanges.size
    let service := server.service.accept peer capacity isReading
    let service := if server.isSignalled then service.cancel i else service
    { server with service := (service.openConnection i).settle, sessions := server.sessions ++ [i] }

omit [Transport σ] in
/-- The session of a connection has ended. -/
def hasEnded (server : Server σ) (i : Nat) : Bool :=
  (server.service.get? i).any (·.connection.hasEnded)

omit [Transport σ] in
/-- Joins a session that has ended. -/
def join (server : Server σ) (i : Nat) : Server σ :=
  if server.hasEnded i then { server with sessions := server.sessions.erase i } else server

/-- Tells the server to stop: its sessions are asked to end and the harvester stops. -/
def signal (server : Server σ) : Server σ :=
  let service := server.sessions.foldl (fun service i => service.cancel i) server.service
  { server with service := service.stopHarvester, isSignalled := true }

omit [Transport σ] in
/-- Notices the signal and accepts no more connections. -/
def drain (server : Server σ) : Server σ :=
  if server.isSignalled ∧ server.phase = .serving then
    { server.note (.stopping server.sessions.length) with phase := .draining }
  else server

omit [Transport σ] in
/-- Stops, when every session is joined. -/
def stop (server : Server σ) : Server σ :=
  if server.phase = .draining ∧ server.sessions = [] then
    { server.note .stopped with phase := .stopped }
  else server

/-- Stops the server as fast as it can. -/
def shutdown (server : Server σ) : Server σ :=
  let server := server.signal.drain
  (server.sessions.foldl (fun server i => server.join i) server).stop

end Server

end RealmDirectory
