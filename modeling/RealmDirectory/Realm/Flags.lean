/-!
# Status flags

The status of a realm is a mask of eight bits. One of them, `RealmFlags.offline`, belongs to the
directory: it says whether the connection that registered the realm is still there, and no byte
sent by a realm decides it. The others are passed on as received.
-/

namespace RealmDirectory

/-- A mask of status bits. -/
structure RealmFlags where
  bits : UInt8
  deriving DecidableEq, Repr

namespace RealmFlags

/-- The bit kept by the directory: the realm's connection is gone. -/
def offline : RealmFlags := ⟨0x02⟩

/-- Every bit of `other` is set. -/
def contains (flags other : RealmFlags) : Bool := flags.bits &&& other.bits == other.bits

/-- The realm is marked as gone. -/
def isOffline (flags : RealmFlags) : Bool := flags.contains offline

/-- Sets the bits of `other`. -/
def union (flags other : RealmFlags) : RealmFlags := ⟨flags.bits ||| other.bits⟩

/-- Clears the bits of `other`. -/
def without (flags other : RealmFlags) : RealmFlags := ⟨flags.bits &&& ~~~other.bits⟩

/-- The same flags with the offline bit set or cleared. -/
def setOnline (flags : RealmFlags) (online : Bool) : RealmFlags :=
  if online then flags.without offline else flags.union offline

/-- The reported flags, with the offline bit as it was. -/
def report (current reported : RealmFlags) : RealmFlags :=
  reported.setOnline (!current.isOffline)

end RealmFlags

end RealmDirectory
