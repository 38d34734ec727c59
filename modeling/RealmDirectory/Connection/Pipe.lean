/-!
# Pipes

A pipe carries bytes one way, from one writer to one reader, and holds at most `capacity` of them.
A writer puts in what there is room for; a reader takes out what is there. Once a pipe is closed no
more bytes go in, but those inside can still be read, and after them the stream is at its end.
-/

namespace RealmDirectory

/-- A bounded queue of bytes. -/
structure Pipe where
  capacity : Nat
  /-- The bytes inside, in the order they were written. -/
  bytes : List UInt8
  isOpen : Bool
  deriving DecidableEq, Repr

namespace Pipe

/-- An empty pipe. -/
def create (capacity : Nat) : Pipe := ⟨capacity, [], true⟩

/-- How many bytes go in. -/
def room (pipe : Pipe) : Nat := if pipe.isOpen then pipe.capacity - pipe.bytes.length else 0

/-- Puts bytes in as far as there is room; gives the bytes left over. -/
def push (pipe : Pipe) (bytes : List UInt8) : List UInt8 × Pipe :=
  let room := pipe.room
  (bytes.drop room, { pipe with bytes := pipe.bytes ++ bytes.take room })

/-- Takes out at most `count` bytes. -/
def pull (pipe : Pipe) (count : Nat) : List UInt8 × Pipe :=
  (pipe.bytes.take count, { pipe with bytes := pipe.bytes.drop count })

/-- Lets no more bytes in. -/
def close (pipe : Pipe) : Pipe := { pipe with isOpen := false }

/-- A reader finds bytes, or the end of the stream. -/
def isReadable (pipe : Pipe) : Bool := !pipe.bytes.isEmpty || !pipe.isOpen

end Pipe

end RealmDirectory
