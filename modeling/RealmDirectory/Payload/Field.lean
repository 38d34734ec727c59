import RealmDirectory.Payload.Reader
/-!
# Fields of a payload

A payload field is a byte, a 32-bit word, a binary32 number or a terminated text. `Field` is a
value of one of these kinds with its written form, and `FieldKind.read` reads a value of a given
kind, so a sequence of kinds is a schema and a sequence of fields is a payload that follows it.
-/

namespace RealmDirectory.Payload

/-- The kinds of field. -/
inductive FieldKind where
  | byte
  | word
  | float
  | text
  deriving DecidableEq, Repr

/-- A field with its value. -/
inductive Field where
  | byte (value : UInt8)
  | word (value : UInt32)
  | float (value : Binary32)
  | text (value : String)
  deriving DecidableEq, Repr

/-- The kind of a field. -/
def Field.kind : Field → FieldKind
  | byte _ => .byte
  | word _ => .word
  | float _ => .float
  | text _ => .text

/-- The bytes of a field. -/
def Field.encode : Field → List UInt8
  | byte value => [value]
  | word value => word32 value
  | float value => word32 value.bits
  | text value => terminated value

/-- The bytes of fields written one after another. -/
def Field.encodeAll (fields : List Field) : List UInt8 := fields.flatMap Field.encode

/-- Reads one field of a kind; `name` is blamed for a fault. -/
def FieldKind.read (name : String) : FieldKind → Reader Field
  | byte => Field.byte <$> Reader.byte name
  | word => Field.word <$> Reader.word name
  | float => Field.float <$> Reader.float name
  | text => Field.text <$> Reader.text name

/-- One attempt of a run of reads: what it gave, and how many bytes were left after it. -/
structure Attempt where
  outcome : Except FieldError Field
  remaining : Nat

/-- Reads named kinds one after another from one payload. A failed read leaves the bytes as they
were, and the run goes on with the next one. -/
def attemptAll : List (FieldKind × String) → List UInt8 → List Attempt
  | [], _ => []
  | (kind, name) :: more, bytes =>
    match kind.read name bytes with
    | .error fault => ⟨.error fault, bytes.length⟩ :: attemptAll more bytes
    | .ok (field, rest) => ⟨.ok field, rest.length⟩ :: attemptAll more rest

end RealmDirectory.Payload
