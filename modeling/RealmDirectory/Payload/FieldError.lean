/-!
# Faults of one payload field

A payload is a sequence of named fields, and whatever can go wrong with it goes wrong at one of
them. A `FieldError` names that field and the cause; `FieldError.message` is the only place that
words it.
-/

namespace RealmDirectory.Payload

/-- Why a field could not be read or written. -/
inductive FieldError where
  /-- The payload stops before the end of a fixed-width field. -/
  | unexpectedEnd (field : String)
  /-- No zero byte ends the text. -/
  | unterminatedText (field : String)
  /-- The bytes before the terminator are not UTF-8. -/
  | invalidUtf8 (field : String)
  /-- The number read is not the code of any value of the field. -/
  | invalidValue (field : String) (value : Nat)
  /-- More items than the field's count can express. -/
  | tooLarge (field : String) (count : Nat)
  deriving DecidableEq, Repr

/-- The wording of a field fault. -/
def FieldError.message : FieldError → String
  | unexpectedEnd field => s!"Payload ended before field '{field}'"
  | unterminatedText field => s!"String field '{field}' is not null-terminated"
  | invalidUtf8 field => s!"String field '{field}' is not valid UTF-8"
  | invalidValue field value => s!"Invalid value {value} for field '{field}'"
  | tooLarge field count => s!"Field '{field}' too large to encode ({count} items)"

end RealmDirectory.Payload
