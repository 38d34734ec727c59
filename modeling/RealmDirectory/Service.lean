import RealmDirectory.Connection.Peer
/-!
# The directory at work

A `Service` is the hub with the connections served at the moment, the harvester in the background
and the clock. Time passes only in `sleepUntil`, which stops at each instant at which a timer goes
off; in between nothing is due, because every operation ends by letting everything happen that
can.
-/

namespace RealmDirectory

/-- The directory with all that it serves, over a transport `σ`. -/
structure Service (σ : Type) where
  now : Instant
  hub : Hub σ
  /-- The connections so far, in the order they were accepted. -/
  exchanges : Array Exchange
  /-- When the harvester works next, if it runs. -/
  harvestAt : Option Instant

namespace Service

variable {σ : Type}

/-- Nothing happened yet. -/
def start (transport : σ) : Service σ := ⟨0, Hub.start transport, #[], none⟩

/-- Applies an operation to the hub. -/
def onHub (s : Service σ) (act : Hub σ → α × Hub σ) : α × Service σ :=
  let (a, hub) := act s.hub
  (a, { s with hub })

/-- Changes a connection or its far end. -/
def modify (s : Service σ) (i : Nat) (change : Exchange → Exchange) : Service σ :=
  { s with exchanges := s.exchanges.modify i change }

/-- A connection and its far end. -/
def get? (s : Service σ) (i : Nat) : Option Exchange := s.exchanges[i]?

/-- Takes a new connection up; its timers do not run yet. -/
def accept (s : Service σ) (endpoint : Endpoint) (capacity : Nat) (isReading : Bool) :
    Service σ :=
  let (connection, hub) := Connection.create endpoint capacity s.hub
  { s with hub, exchanges := s.exchanges.push ⟨connection, Peer.create isReading⟩ }

/-- Starts the timers of a connection, unless they run already or it was torn down. -/
def openConnection (s : Service σ) (i : Nat) : Service σ :=
  match s.get? i with
  | none => s
  | some x =>
    if x.connection.session.state.isArmed || x.connection.hasEnded then s
    else
      let (connection, hub) := x.connection.arm s.now s.hub
      { s with hub, exchanges := s.exchanges.setIfInBounds i { x with connection } }

variable [Transport σ]

/-! ## What is due -/

/-- Lets happen whatever is due on one connection. -/
def settleAt (s : Service σ) (i : Nat) : Service σ :=
  match s.get? i with
  | none => s
  | some x =>
    let (x, hub) := x.settle s.now s.hub
    { s with hub, exchanges := s.exchanges.setIfInBounds i x }

/-- Lets the harvester work if it is due. -/
def settleHarvest (s : Service σ) : Service σ :=
  match s.harvestAt with
  | none => s
  | some time =>
    if s.now < time then s
    else { s with hub := s.hub.harvestRound, harvestAt := some (s.now + harvestInterval) }

/-- Lets happen whatever is due: on each connection, then in the background. -/
def settle (s : Service σ) : Service σ :=
  ((List.range s.exchanges.size).foldl settleAt s).settleHarvest

/-! ## Time -/

omit [Transport σ] in
/-- The timers that run. -/
def timers (s : Service σ) : List Instant :=
  s.harvestAt.toList ++ s.exchanges.toList.filterMap (·.connection.nextTimer?)

omit [Transport σ] in
/-- When the next timer goes off, if one does later than now. -/
def nextTimer? (s : Service σ) : Option Instant := (s.timers.filter (s.now < ·)).min?

/-- Lets an instant come. -/
def tick (s : Service σ) (time : Instant) : Service σ :=
  { ({ s with now := time }.settle) with now := time }

/-- Lets time pass up to an instant. -/
def sleepUntil (s : Service σ) (target : Instant) : Service σ :=
  match s.nextTimer? with
  | none => s.tick target
  | some time =>
    if _h : s.now < time ∧ time < target then (s.tick time).sleepUntil target else s.tick target
  termination_by target - s.now
  decreasing_by exact Nat.sub_lt_sub_left (Nat.lt_trans _h.1 _h.2) _h.1

/-! ## Connections -/

/-- Lets a peer write. -/
def write (s : Service σ) (i : Nat) (bytes : List UInt8) : Option (WriteOutcome × Service σ) :=
  (s.get? i).map fun x =>
    let (outcome, x, hub) := x.write bytes s.now s.hub
    (outcome, { s with hub, exchanges := s.exchanges.setIfInBounds i x }.settle)

/-- Asks a connection to end. -/
def cancel (s : Service σ) (i : Nat) : Service σ :=
  (s.modify i fun x => { x with connection := x.connection.cancel }).settle

/-! ## The harvester -/

/-- Starts the harvester, which works at once. -/
def startHarvester (s : Service σ) : Service σ := { s with harvestAt := some s.now }.settle

omit [Transport σ] in
/-- Stops the harvester. -/
def stopHarvester (s : Service σ) : Service σ :=
  match s.harvestAt with
  | none => s
  | some _ => { s with harvestAt := none, hub := s.hub.note .harvesterStopped }

end Service

end RealmDirectory
