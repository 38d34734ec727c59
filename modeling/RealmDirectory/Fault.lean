import RealmDirectory.Frame
import RealmDirectory.Payload.FieldError
/-!
# Faults

Each part of the directory has its own ways to fail, and each way is a constructor that carries
its cause. `Fault` joins them. The wording of each is its `message`; a fault is the caller's own
doing (`Fault.byPeer`) if it stems from what one peer sent, and then it concerns nobody else.
-/

namespace RealmDirectory

open Payload (FieldError)

/-- Why an operation on a realm was refused. -/
inductive RealmError where
  /-- No realm has this id. -/
  | notFound (id : UInt32)
  /-- The id belongs to a realm whose connection is still there. -/
  | owned (id : UInt32)
  deriving DecidableEq, Repr

/-- The wording of a refused operation. -/
def RealmError.message : RealmError → String
  | notFound id => s!"Realm not found: {id.toNat}"
  | owned id => s!"Realm {id.toNat} is already registered by a live connection"

/-- Why a frame was not taken for the admin session. -/
inductive DeliveryError where
  /-- Its queue is full; the frame is lost. -/
  | full
  /-- Nobody receives any more. -/
  | closed
  deriving DecidableEq, Repr

/-- The wording of a frame that was not taken. -/
def DeliveryError.message : DeliveryError → String
  | full => "Admin outbound queue is full"
  | closed => "Admin transport is closed"

/-- Why a login did not become the admin session. -/
inductive LoginError where
  | insufficientAccess
  | alreadyAdmitted (session : Nat)
  | slotTaken
  deriving DecidableEq, Repr

/-- The wording of a refused login. -/
def LoginError.message : LoginError → String
  | insufficientAccess => "Insufficient access level for admin mode"
  | alreadyAdmitted session => s!"Connection already admitted as admin session {session}"
  | slotTaken => "Another admin session is already active"

/-- Why a harvest did not deliver its batch. -/
inductive HarvestError where
  | compression (reason : String)
  | payload (cause : FieldError)
  | send (cause : DeliveryError)
  deriving DecidableEq, Repr

/-- The wording of a failed harvest. -/
def HarvestError.message : HarvestError → String
  | compression reason => s!"Log batch compression failed: {reason}"
  | payload cause => "Log batch encoding failed: " ++ cause.message
  | send cause => "Log batch send failed: " ++ cause.message

/-- Anything that can go wrong. -/
inductive Fault where
  | decode (cause : FrameError)
  | payload (cause : FieldError)
  | realm (cause : RealmError)
  | admin (cause : LoginError)
  | harvest (cause : HarvestError)
  | settings (reason : String)
  | io (reason : String)
  deriving DecidableEq, Repr

namespace Fault

/-- The wording of a fault. -/
def message : Fault → String
  | decode cause => "Decode error: " ++ cause.message
  | payload cause => "Payload error: " ++ cause.message
  | realm cause => "Registry error: " ++ cause.message
  | admin cause => "Admin error: " ++ cause.message
  | harvest cause => "Harvest error: " ++ cause.message
  | settings reason => "Configuration error: " ++ reason
  | io reason => "I/O error: " ++ reason

/-- The fault stems from what one peer sent. -/
def byPeer : Fault → Bool
  | decode _ | payload _ | realm _ | admin _ => true
  | harvest _ | settings _ | io _ => false

end Fault

end RealmDirectory
