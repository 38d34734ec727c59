import RealmDirectory.Binary32
import RealmDirectory.Payload.FieldError
import RealmDirectory.Payload.Text
import RealmDirectory.Payload.Word
/-!
# Reading payload fields

A `Reader α` takes the bytes not read yet and gives a value together with the bytes after it, or
the fault of one field. A fault carries no bytes: whoever goes on after it goes on from where the
failed read began, so a failed read consumes nothing.

Readers are the state-and-error monad over the remaining bytes; a message is read by a `do` block
that names each field once.
-/

namespace RealmDirectory.Payload

/-- A reader of one or more fields: the value and the bytes left, or a fault. -/
abbrev Reader := StateT (List UInt8) (Except FieldError)

namespace Reader

/-- The next `width` bytes. -/
def take (field : String) (width : Nat) : Reader (List UInt8) := fun bytes =>
  let taken := bytes.take width
  if taken.length = width then .ok (taken, bytes.drop width)
  else .error (.unexpectedEnd field)

/-- The next byte. -/
def byte (field : String) : Reader UInt8 := fun bytes =>
  match bytes with
  | [] => .error (.unexpectedEnd field)
  | b :: rest => .ok (b, rest)

/-- The next 32-bit word. -/
def word (field : String) : Reader UInt32 := do
  return ofWord32 (← take field 4)

/-- The next binary32 number, as its bits. -/
def float (field : String) : Reader Binary32 := do
  return ⟨← word field⟩

/-- The next text: the UTF-8 bytes up to a zero byte, which is consumed too. A missing terminator
is reported before the bytes are looked at. -/
def text (field : String) : Reader String := fun bytes =>
  match bytes.dropWhile (· != 0) with
  | [] => .error (.unterminatedText field)
  | _ :: rest =>
    match ofUtf8? (bytes.takeWhile (· != 0)) with
    | none => .error (.invalidUtf8 field)
    | some s => .ok (s, rest)

/-- Turns a decision about a value already read into a reader step. -/
def check (decision : Except FieldError α) : Reader α := fun bytes =>
  decision.map (·, bytes)

/-- `count` items one after another; the first fault ends the reading. -/
def times (count : Nat) (item : Reader α) : Reader (List α) := fun bytes =>
  go count [] bytes
where
  /-- The loop of `times`, with the items read so far in reverse. -/
  go : Nat → List α → List UInt8 → Except FieldError (List α × List UInt8)
    | 0, seen, bytes => .ok (seen.reverse, bytes)
    | left + 1, seen, bytes =>
      match item bytes with
      | .error fault => .error fault
      | .ok (a, rest) => go left (a :: seen) rest

/-- Reads a whole payload and drops what follows the last field. -/
def decode (reader : Reader α) (payload : List UInt8) : Except FieldError α :=
  (reader payload).map (·.1)

end Reader

end RealmDirectory.Payload
