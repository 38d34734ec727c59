import RealmDirectory.Payload.Count
/-!
# Log lines and batches of them

A realm server sends its log one `LogLine` at a time. The admin session receives the lines of many
realms in one batch: the number of realms, then for each its id, the number of its lines and the
lines, oldest first.
-/

namespace RealmDirectory

open Payload (FieldError Reader terminated word32)

/-- One line of a realm's log. -/
structure LogLine where
  category : UInt8
  text : String
  deriving DecidableEq, Repr

namespace LogLine

/-- The payload of a line. -/
def encode (line : LogLine) : List UInt8 := line.category :: terminated line.text

/-- Reads a line. -/
def read : Reader LogLine := do
  let category ← Reader.byte "category"
  let text ← Reader.text "text"
  return ⟨category, text⟩

end LogLine

/-- The lines of one realm in a batch, oldest first. -/
structure RealmLog where
  realm : UInt32
  lines : List LogLine
  deriving DecidableEq, Repr

namespace RealmLog

/-- The part of a batch about one realm. -/
def encode (log : RealmLog) : Except FieldError (List UInt8) := do
  let count ← Payload.countWord "entry_count" log.lines.length
  return word32 log.realm ++ word32 count ++ log.lines.flatMap LogLine.encode

/-- Reads the part of a batch about one realm. -/
def read : Reader RealmLog := do
  let realm ← Reader.word "realm_id"
  let count ← Reader.word "entry_count"
  let lines ← Reader.times count.toNat LogLine.read
  return ⟨realm, lines⟩

end RealmLog

namespace LogBatch

/-- The uncompressed bytes of a batch. -/
def encode (logs : List RealmLog) : Except FieldError (List UInt8) := do
  let count ← Payload.countWord "realm_count" logs.length
  let parts ← logs.mapM RealmLog.encode
  return word32 count ++ parts.flatten

/-- Reads a batch. -/
def read : Reader (List RealmLog) := do
  let count ← Reader.word "realm_count"
  Reader.times count.toNat RealmLog.read

end LogBatch

end RealmDirectory
