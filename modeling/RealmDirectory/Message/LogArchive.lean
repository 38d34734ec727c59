import RealmDirectory.Deflate.Zlib
import RealmDirectory.Message.LogLine
/-!
# Compressed log batches

A batch of log lines travels as its uncompressed size, a 32-bit word, followed by a zlib stream.
The size is not trusted: one byte more than it says is asked for at most, and a stream that does
not give exactly as many bytes as it says is refused.
-/

namespace RealmDirectory.LogArchive

open Payload (FieldError Reader word32)

/-- Why the body of a batch could not be unpacked. -/
inductive UnpackError where
  /-- The size in front of the stream is cut short. -/
  | size (cause : FieldError)
  /-- The bytes are not a zlib stream. -/
  | corrupt
  /-- The stream ends too soon. -/
  | truncated
  /-- The stream holds another number of bytes than declared; one that is too long is counted up
  to the first byte too many. -/
  | mismatch (declared inflated : Nat)
  deriving DecidableEq, Repr

/-- The wording of a failure to unpack. -/
def UnpackError.message : UnpackError → String
  | size cause => cause.message
  | corrupt => "corrupt deflate stream"
  | truncated => "incomplete deflate stream"
  | mismatch declared inflated => s!"declared {declared} bytes, inflated {inflated}"

/-- The body of a batch; refused if its size does not fit the word in front. -/
def pack (raw : List UInt8) : Except FieldError (List UInt8) := do
  let size ← Payload.countWord "uncompressed_size" raw.length
  return word32 size ++ Zlib.store raw

/-- The declared size of a batch. -/
def readSize : Reader Nat := UInt32.toNat <$> Reader.word "uncompressed_size"

/-- The bytes of a batch. -/
def unpack (body : List UInt8) : Except UnpackError (List UInt8) :=
  match readSize body with
  | .error cause => .error (.size cause)
  | .ok (declared, stream) =>
    match Zlib.inflate (declared + 1) stream with
    | .ok raw => if raw.length = declared then .ok raw else .error (.mismatch declared raw.length)
    | .error .truncated => .error .truncated
    | .error .corrupt => .error .corrupt

end RealmDirectory.LogArchive
