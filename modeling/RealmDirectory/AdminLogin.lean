import RealmDirectory.Hub
/-!
# Admin logins

An `AdminLogin` is one login that may become the admin session. It remembers the number it was
admitted under until it is closed, even if the session has been evicted in the meantime; closing it
then does nothing to whoever holds the slot by now.
-/

namespace RealmDirectory

/-- One login. -/
structure AdminLogin where
  peer : Endpoint
  sink : SinkId
  /-- The number it was admitted under. -/
  session : Option Nat
  deriving Repr

namespace AdminLogin

variable {σ : Type}

/-- A login that is not admitted. -/
def create (peer : Endpoint) (sink : SinkId) : AdminLogin := ⟨peer, sink, none⟩

/-- Asks for the admin slot with an access level, which must be at least that of an
administrator. -/
def upgrade [Transport σ] (login : AdminLogin) (access : AccessLevel) (hub : Hub σ) :
    Except LoginError Nat × AdminLogin × Hub σ :=
  if access < .administrator then
    (.error .insufficientAccess, login, hub.note (.accessRefused login.peer access))
  else
    match hub.admitSession login.sink login.session with
    | (some session, hub) =>
      (.ok session, { login with session := some session },
        hub.note (.enteredAdminMode login.peer session))
    | (none, hub) =>
      match login.session with
      | some session => (.error (.alreadyAdmitted session), login, hub)
      | none => (.error .slotTaken, login, hub.note (.slotRefused login.peer))

/-- Gives the slot up, if it is still this login's. -/
def close (login : AdminLogin) (hub : Hub σ) : AdminLogin × Hub σ :=
  match login.session with
  | none => (login, hub)
  | some session =>
    ({ login with session := none }, (hub.evict session).2.note (.leftAdminMode login.peer))

end AdminLogin

end RealmDirectory
