import RealmDirectory.Frame
/-!
# Splitting a chunk of bytes into frames

What one read of a connection returns is a chunk. It is split into frames from the front, and the
first bytes that are not a whole frame end the split: they and everything after them are discarded,
together with the fault that was found. Nothing is carried over to the next chunk.
-/

namespace RealmDirectory

/-- The bytes of a chunk that were given up, and why. -/
structure Discarded where
  fault : FrameError
  bytes : List UInt8
  deriving DecidableEq, Repr

/-- The frames of a chunk and what was left of it. -/
structure Chunk (op : Type) where
  frames : List (Frame op)
  discarded : Option Discarded
  deriving DecidableEq, Repr

namespace Chunk

variable {op : Type} [Opcodes op]

/-- The loop of `split`, with the frames found so far in reverse. -/
def splitAfter (found : List (Frame op)) (bytes : List UInt8) : Chunk op :=
  if bytes.isEmpty then ⟨found.reverse, none⟩
  else
    match _h : Frame.decode bytes with
    | .error fault => ⟨found.reverse, some ⟨fault, bytes⟩⟩
    | .ok (frame, rest) => splitAfter (frame :: found) rest
  termination_by bytes.length
  decreasing_by exact Frame.length_rest_lt ‹_›

/-- Splits a chunk into frames. -/
def split (bytes : List UInt8) : Chunk op := splitAfter [] bytes

end Chunk

end RealmDirectory
