import RealmDirectory.Fault
/-!
# The admin slot and its transport

At most one login is the admin session at a time. The slot remembers which session that is and
where its frames go, and hands every new session the next number: a number is never used twice, so
whoever still holds the number of an earlier session can do nothing to a later one.

Frames go out through a transport, which answers at once: it takes the frame, or it says that the
queue is full or that nobody receives any more. The directory works with any transport.
-/

namespace RealmDirectory

/-- Where the frames of an admin session go. -/
abbrev SinkId := Nat

/-- A state from which frames can be handed out. -/
class Transport (σ : Type) where
  /-- Offers a frame to a sink. -/
  offer : SinkId → List UInt8 → σ → Except DeliveryError Unit × σ

/-- An admitted session. -/
structure AdminSession where
  id : Nat
  sink : SinkId
  deriving DecidableEq, Repr

/-- The one place for an admin session. -/
structure AdminSlot where
  current : Option AdminSession
  /-- The number of the next session. -/
  nextId : Nat
  deriving DecidableEq, Repr

namespace AdminSlot

/-- No session yet; the first one will be session 1. -/
def empty : AdminSlot := ⟨none, 1⟩

/-- Gives the slot to a new session; `none` if it is taken. -/
def claim? (slot : AdminSlot) (sink : SinkId) : Option (AdminSession × AdminSlot) :=
  match slot.current with
  | some _ => none
  | none =>
    let session : AdminSession := ⟨slot.nextId, sink⟩
    some (session, ⟨some session, slot.nextId + 1⟩)

/-- Takes the slot from a session; `none` if it is not the one that has it. -/
def vacate? (slot : AdminSlot) (id : Nat) : Option AdminSlot :=
  match slot.current with
  | some session => if session.id = id then some { slot with current := none } else none
  | none => none

end AdminSlot

end RealmDirectory
