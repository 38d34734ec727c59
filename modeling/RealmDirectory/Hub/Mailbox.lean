import RealmDirectory.Hub.Slot
/-!
# Mailboxes

A mailbox is a transport for one admin session: a queue of frames with a fixed capacity, which its
owner empties at leisure. It takes a frame if there is room; once its owner has closed it, it takes
none and holds none.
-/

namespace RealmDirectory

/-- A bounded queue of frames. -/
structure Mailbox where
  capacity : Nat
  /-- The frames not taken out yet, in the order of their arrival. -/
  frames : List (List UInt8)
  isOpen : Bool
  deriving DecidableEq, Repr

namespace Mailbox

/-- An empty mailbox. -/
def create (capacity : Nat) : Mailbox := ⟨capacity, [], true⟩

/-- Puts a frame in. -/
def push (box : Mailbox) (frame : List UInt8) : Except DeliveryError Mailbox :=
  if !box.isOpen then .error .closed
  else if box.capacity ≤ box.frames.length then .error .full
  else .ok { box with frames := box.frames ++ [frame] }

/-- Takes out at most `count` frames. -/
def take (box : Mailbox) (count : Nat) : List (List UInt8) × Mailbox :=
  (box.frames.take count, { box with frames := box.frames.drop count })

/-- Stops receiving. -/
def close (box : Mailbox) : Mailbox := { box with frames := [], isOpen := false }

end Mailbox

/-- The mailboxes of all logins; the sink of one is its place. -/
structure Mailboxes where
  all : Array Mailbox
  deriving Repr

namespace Mailboxes

/-- No mailboxes. -/
def empty : Mailboxes := ⟨#[]⟩

/-- A new mailbox. -/
def add (boxes : Mailboxes) (capacity : Nat) : SinkId × Mailboxes :=
  (boxes.all.size, ⟨boxes.all.push (Mailbox.create capacity)⟩)

/-- The mailbox of a sink. -/
def get? (boxes : Mailboxes) (sink : SinkId) : Option Mailbox := boxes.all[sink]?

/-- Replaces the mailbox of a sink. -/
def set (boxes : Mailboxes) (sink : SinkId) (box : Mailbox) : Mailboxes :=
  ⟨boxes.all.setIfInBounds sink box⟩

/-- Offers a frame to the mailbox of a sink; where there is none, nobody receives. -/
def offer (sink : SinkId) (frame : List UInt8) (boxes : Mailboxes) :
    Except DeliveryError Unit × Mailboxes :=
  match boxes.get? sink with
  | none => (.error .closed, boxes)
  | some box =>
    match box.push frame with
    | .error cause => (.error cause, boxes)
    | .ok box => (.ok (), boxes.set sink box)

instance : Transport Mailboxes := ⟨offer⟩

end Mailboxes

end RealmDirectory
