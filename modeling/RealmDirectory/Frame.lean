import RealmDirectory.Payload.FieldError
import RealmDirectory.Payload.Word
/-!
# Frames

Both channels of the directory carry the same kind of unit: an opcode byte, the length of the
payload as a little-endian word, and the payload. Only the opcodes and the width of the length
differ, and `Opcodes` names the two. A frame that does not fit its length field cannot be written;
reading checks first that the header is there, then the opcode, then the length.

## Main results

* `Frame.length_rest_lt` — a decoded frame leaves fewer bytes than it started from.
-/

namespace RealmDirectory

/-- The opcodes of one channel and the width of its length field. -/
class Opcodes (op : Type) where
  /-- The opcode byte. -/
  code : op → UInt8
  /-- The opcode of a byte, if there is one. -/
  ofCode? : UInt8 → Option op
  /-- The bytes of the length field. -/
  lengthWidth : Nat
  /-- A byte is understood exactly when it is the byte of the opcode returned. -/
  ofCode?_eq_some_iff : ∀ {b : UInt8} {o : op}, ofCode? b = some o ↔ code o = b

/-- One unit of a channel. -/
structure Frame (op : Type) where
  opcode : op
  payload : List UInt8
  deriving DecidableEq, Repr

/-- Why no frame could be taken off the front of some bytes. -/
inductive FrameError where
  /-- The bytes end inside the header. -/
  | truncatedHeader (available : Nat)
  /-- No opcode has this byte. -/
  | unknownOpcode (code : UInt8)
  /-- The payload is longer than the bytes after the header. -/
  | lengthOverrun (declared available : Nat)
  deriving DecidableEq, Repr

/-- The wording of a framing fault. -/
def FrameError.message : FrameError → String
  | truncatedHeader available => s!"Truncated envelope header ({available} bytes buffered)"
  | unknownOpcode code => s!"Unknown opcode: {code.toNat}"
  | lengthOverrun declared available =>
    s!"Declared payload length {declared} exceeds {available} buffered bytes"

namespace Frame

open Payload (littleEndian ofLittleEndian FieldError)

variable {op : Type} [Opcodes op]

/-- The bytes of a frame. -/
def encode (frame : Frame op) : Except FieldError (List UInt8) :=
  let length := frame.payload.length
  let width := Opcodes.lengthWidth op
  if length < Nat.pow 256 width then
    .ok (Opcodes.code frame.opcode :: (littleEndian width length ++ frame.payload))
  else .error (.tooLarge "payload" length)

/-- The frame at the front of some bytes, and the bytes after it. -/
def decode : List UInt8 → Except FrameError (Frame op × List UInt8)
  | [] => .error (.truncatedHeader 0)
  | code :: afterCode =>
    let width := Opcodes.lengthWidth op
    let lengthField := afterCode.take width
    if lengthField.length < width then .error (.truncatedHeader (1 + lengthField.length))
    else
      match Opcodes.ofCode? code with
      | none => .error (.unknownOpcode code)
      | some opcode =>
        let declared := ofLittleEndian lengthField
        let body := afterCode.drop width
        let payload := body.take declared
        if payload.length < declared then .error (.lengthOverrun declared body.length)
        else .ok (⟨opcode, payload⟩, body.drop declared)

/-- A frame takes at least one byte off the front. -/
theorem length_rest_lt {bytes rest : List UInt8} {frame : Frame op}
    (h : decode bytes = .ok (frame, rest)) : rest.length < bytes.length := by
  unfold decode at h
  split at h
  · cases h
  · simp only at h
    split at h
    · cases h
    · split at h
      · cases h
      · split at h
        · cases h
        · cases h
          simp only [List.length_cons, List.length_drop]
          omega

end Frame

end RealmDirectory
