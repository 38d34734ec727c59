import RealmDirectory.LogRing
/-!
# The state of a session

What a connection knows of itself: the realm it registered, if any, and its two timers while it is
open. A session registers at most one realm in its life. The heartbeat timer says when to write
something although there is nothing to say; the deadline says when to give the peer up because
nothing was heard of it.

Both timers count from the moment of their last reset, each with a period of its own, and a reset
of one leaves the other alone. Without timers nothing is ever due.
-/

namespace RealmDirectory

/-- The timers of an open connection. -/
structure Timers where
  /-- The longest time without a write. -/
  heartbeatPeriod : Nat
  /-- The longest time without a read. -/
  deadlinePeriod : Nat
  heartbeatAt : Instant
  deadlineAt : Instant
  deriving DecidableEq, Repr

/-- The state of a session. -/
structure SessionState where
  /-- The realm registered over this connection. -/
  realm : Option UInt32
  timers : Option Timers
  deriving DecidableEq, Repr

namespace SessionState

/-- Nothing registered and no timers. -/
def start : SessionState := ⟨none, none⟩

/-- A realm was registered over this connection. -/
def isRegistered (state : SessionState) : Bool := state.realm.isSome

/-- The timers run. -/
def isArmed (state : SessionState) : Bool := state.timers.isSome

/-- The word for how far the registration has come. -/
def status (state : SessionState) : String :=
  if state.isRegistered then "Registered" else "NotRegistered"

/-- Notes the registered realm; only the first one counts. -/
def bind (state : SessionState) (id : UInt32) : Bool × SessionState :=
  match state.realm with
  | some _ => (false, state)
  | none => (true, { state with realm := some id })

/-- Starts the timers. The first heartbeat is due at once. -/
def arm (state : SessionState) (now : Instant) (heartbeatPeriod deadlinePeriod : Nat) :
    SessionState :=
  { state with timers := some {
      heartbeatPeriod
      deadlinePeriod
      heartbeatAt := now
      deadlineAt := now + deadlinePeriod } }

/-- Gives the peer a whole period again. -/
def rearmDeadline (state : SessionState) (now : Instant) : SessionState :=
  { state with timers := state.timers.map fun timers =>
      { timers with deadlineAt := now + timers.deadlinePeriod } }

/-- Puts the next heartbeat off by a whole period. -/
def postponeHeartbeat (state : SessionState) (now : Instant) : SessionState :=
  { state with timers := state.timers.map fun timers =>
      { timers with heartbeatAt := now + timers.heartbeatPeriod } }

/-- Stops the timers. -/
def cancel (state : SessionState) : SessionState := { state with timers := none }

@[simp] theorem realm_rearmDeadline (state : SessionState) (now : Instant) :
    (state.rearmDeadline now).realm = state.realm := rfl

@[simp] theorem realm_postponeHeartbeat (state : SessionState) (now : Instant) :
    (state.postponeHeartbeat now).realm = state.realm := rfl

@[simp] theorem realm_cancel (state : SessionState) : state.cancel.realm = state.realm := rfl

end SessionState

end RealmDirectory
