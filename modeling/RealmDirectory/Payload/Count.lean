import RealmDirectory.Payload.Reader
/-!
# Counted sequences

A repeated field is written as a count followed by its items. The count has a fixed width, one
byte or four, so a sequence that is too long cannot be written and is refused under the name of
the count.
-/

namespace RealmDirectory.Payload

/-- A count written in one byte. -/
def countByte (field : String) (count : Nat) : Except FieldError UInt8 :=
  if count < Nat.pow 2 8 then .ok (UInt8.ofNat count) else .error (.tooLarge field count)

/-- A count written as a 32-bit word. -/
def countWord (field : String) (count : Nat) : Except FieldError UInt32 :=
  if count < Nat.pow 2 32 then .ok (UInt32.ofNat count) else .error (.tooLarge field count)

/-- The build numbers that follow a count. -/
def Reader.builds (count : UInt8) : Reader (List UInt32) :=
  Reader.times count.toNat (Reader.word "build_id")

end RealmDirectory.Payload
