/-!
# Time-stamped ring of log lines

A `LogRing` keeps the latest items that were pushed, up to its capacity, each with the instant of
its push. Once it is full a push overwrites the oldest item.

Stamps are strictly increasing over the whole life of a ring, clearing included: an item pushed at
an instant that is not later than the latest stamp is stamped one nanosecond after it. A reader
that remembers the newest stamp it has seen therefore finds exactly the items pushed since, by
reading from the newest item backwards until it meets one that is not newer.

Items lie in a fixed array of slots. `next` is the slot of the next push and `oldest` that of the
oldest item; they coincide both when the ring is empty and when it is full, and `full` tells the
two apart. Clearing leaves the slots as they are. That both indices are inside the array is part of
the type.
-/

namespace RealmDirectory

/-- Nanoseconds since the start. -/
abbrev Instant := Nat

/-- An item and the instant it was pushed. -/
structure Stamped (α : Type) where
  stamp : Instant
  item : α
  deriving DecidableEq, Repr

/-- A ring of stamped items. -/
structure LogRing (α : Type) where
  slots : Array (Option (Stamped α))
  /-- The slot of the next push. -/
  next : Nat
  /-- The slot of the oldest item. -/
  oldest : Nat
  full : Bool
  /-- The stamp of the latest push, kept when the ring is cleared. -/
  latest : Option Instant
  next_lt : next < slots.size
  oldest_lt : oldest < slots.size

namespace LogRing

variable {α : Type}

/-- An empty ring. A capacity of zero counts as one. -/
def create (capacity : Nat) : LogRing α where
  slots := Array.replicate (max capacity 1) none
  next := 0
  oldest := 0
  full := false
  latest := none
  next_lt := by
    rw [Array.size_replicate]
    exact Nat.lt_of_lt_of_le Nat.zero_lt_one (Nat.le_max_right _ _)
  oldest_lt := by
    rw [Array.size_replicate]
    exact Nat.lt_of_lt_of_le Nat.zero_lt_one (Nat.le_max_right _ _)

/-- How many items fit. -/
def capacity (ring : LogRing α) : Nat := ring.slots.size

theorem capacity_pos (ring : LogRing α) : 0 < ring.capacity :=
  Nat.lt_of_le_of_lt (Nat.zero_le _) ring.next_lt

/-- How many items are kept. -/
def size (ring : LogRing α) : Nat :=
  if ring.full then ring.capacity
  else if ring.oldest ≤ ring.next then ring.next - ring.oldest
  else ring.capacity + ring.next - ring.oldest

/-- The stamp of an item pushed at a given instant. -/
def stampAt (ring : LogRing α) (now : Instant) : Instant :=
  match ring.latest with
  | some latest => if now ≤ latest then latest + 1 else now
  | none => now

/-- Adds an item pushed at a given instant, in place of the oldest one if the ring is full. -/
def push (ring : LogRing α) (item : α) (now : Instant) : LogRing α :=
  let stamp := ring.stampAt now
  let next := (ring.next + 1) % ring.capacity
  { slots := ring.slots.set ring.next (some ⟨stamp, item⟩) ring.next_lt
    next
    oldest := if ring.full then (ring.oldest + 1) % ring.capacity else ring.oldest
    full := ring.full || next == ring.oldest
    latest := some stamp
    next_lt := by
      rw [Array.size_set]
      exact Nat.mod_lt _ ring.capacity_pos
    oldest_lt := by
      rw [Array.size_set]
      split
      · exact Nat.mod_lt _ ring.capacity_pos
      · exact ring.oldest_lt }

/-- The slot written by the push `back` pushes ago, the latest one being one push ago. -/
def slotBack (ring : LogRing α) (back : Nat) : Nat :=
  (ring.next + ring.capacity - back) % ring.capacity

theorem slotBack_lt (ring : LogRing α) (back : Nat) : ring.slotBack back < ring.slots.size :=
  Nat.mod_lt _ ring.capacity_pos

/-- The items from `back` pushes ago backwards, at most `left` of them, up to the first one that
is not newer than the limit. -/
def scan (ring : LogRing α) (after : Option Instant) (back : Nat) : Nat → List (Stamped α)
  | 0 => []
  | left + 1 =>
    have _lt := ring.slotBack_lt back
    match ring.slots[ring.slotBack back] with
    | none => []
    | some entry =>
      if after.all (· < entry.stamp) then entry :: ring.scan after (back + 1) left else []

/-- The items kept, newest first. -/
def toList (ring : LogRing α) : List (Stamped α) := ring.scan none 1 ring.size

/-- The items stamped later than an instant, newest first. -/
def newerThan (ring : LogRing α) (after : Instant) : List (Stamped α) :=
  ring.scan (some after) 1 ring.size

/-- The items not seen by a reader whose newest stamp is given; all of them if it has seen none. -/
def unseen (ring : LogRing α) : Option Instant → List (Stamped α)
  | none => ring.toList
  | some seen => ring.newerThan seen

/-- Forgets every item. -/
def clear (ring : LogRing α) : LogRing α :=
  { ring with
    next := 0
    oldest := 0
    full := false
    next_lt := ring.capacity_pos
    oldest_lt := ring.capacity_pos }

/-- Nothing is kept. -/
def isEmpty (ring : LogRing α) : Bool := ring.size == 0

end LogRing

end RealmDirectory
