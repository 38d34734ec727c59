import RealmDirectory.Payload.Reader
import RealmDirectory.Realm.Snapshot
/-!
# Status messages

A realm server reports its flags and population in a `StatusReport`; the directory passes the
resulting `StatusChange` on to the admin session, with the realm's id in front.
-/

namespace RealmDirectory

open Payload (Reader word32)

/-- The status a realm server reports of its realm. -/
structure StatusReport where
  flags : RealmFlags
  population : Binary32
  deriving DecidableEq, Repr

namespace StatusReport

/-- The payload of a report. -/
def encode (report : StatusReport) : List UInt8 :=
  report.flags.bits :: word32 report.population.bits

/-- Reads a report. -/
def read : Reader StatusReport := do
  let flags ← Reader.byte "flags"
  let population ← Reader.float "population"
  return ⟨⟨flags⟩, population⟩

end StatusReport

namespace StatusChange

/-- The payload of a change. -/
def encode (change : StatusChange) : List UInt8 :=
  word32 change.id ++ (change.flags.bits :: word32 change.population.bits)

/-- Reads a change. -/
def read : Reader StatusChange := do
  let id ← Reader.word "id"
  let flags ← Reader.byte "flags"
  let population ← Reader.float "population"
  return ⟨id, ⟨flags⟩, population⟩

end StatusChange

end RealmDirectory
