import RealmDirectory.Hub
import RealmDirectory.Message.LogArchive
/-!
# Harvesting the logs

From time to time the lines that no admin session has received yet are gathered from all realms,
packed into one batch and delivered. Only when the batch was taken do the delivery marks move, each
to the stamp of the newest line that was sent; a batch that was not taken changes no mark, so its
lines are gathered again the next time.

## Main definitions

* `RealmTable.gather` — what there is to deliver, with the new marks.
* `Hub.harvest` — one round.
-/

namespace RealmDirectory

/-- The nanoseconds of a number of milliseconds. -/
def milliseconds (ms : Nat) : Nat := ms * 1000000

/-- The time between two rounds. -/
def harvestInterval : Nat := milliseconds 400

/-- What a round did. -/
inductive HarvestReport where
  /-- There is no admin session, or no realm. -/
  | idle
  /-- No realm has a line that was not delivered. -/
  | nothingNew
  /-- A batch was delivered. -/
  | sent (realms lines : Nat)
  deriving DecidableEq, Repr

/-- The lines of one realm to be delivered, and the stamp of the newest of them. -/
structure Harvested where
  log : RealmLog
  newest : Instant
  deriving DecidableEq, Repr

/-- What is to be delivered of one realm, if anything is: its lines, oldest first. -/
def RealmRecord.harvested? (record : RealmRecord) : Option Harvested :=
  match record.undelivered with
  | [] => none
  | newest :: older =>
    some ⟨⟨record.id, (newest :: older).reverse.map (·.item)⟩, newest.stamp⟩

namespace RealmTable

/-- What is to be delivered, in ascending order of the realm ids. -/
def gather (table : RealmTable) : List Harvested := table.records.filterMap (·.harvested?)

/-- Moves the delivery marks after a delivery. -/
def settle (table : RealmTable) (delivered : List Harvested) : RealmTable :=
  delivered.foldl (fun table harvested =>
    table.setCheckpoint harvested.log.realm harvested.newest) table

end RealmTable

/-- The frame that carries a batch. -/
def batchFrame (logs : List RealmLog) : Except Payload.FieldError (List UInt8) := do
  let raw ← LogBatch.encode logs
  let body ← LogArchive.pack raw
  Frame.encode ⟨AdminOpcode.logBatch, body⟩

namespace Hub

variable [Transport σ]

/-- Gathers, delivers and moves the marks. -/
def harvest (hub : Hub σ) : Except HarvestError HarvestReport × Hub σ :=
  match hub.slot.current with
  | none => (.ok .idle, hub)
  | some session =>
    if hub.realms.isEmpty then (.ok .idle, hub)
    else
      let gathered := hub.realms.gather
      if gathered.isEmpty then (.ok .nothingNew, hub)
      else
        match batchFrame (gathered.map (·.log)) with
        | .error cause => (.error (.payload cause), hub)
        | .ok bytes =>
          match hub.deliver session bytes with
          | (.error cause, hub) => (.error (.send cause), hub)
          | (.ok (), hub) =>
            (.ok (.sent gathered.length ((gathered.map (·.log.lines.length)).foldl (· + ·) 0)),
              { hub with realms := hub.realms.settle gathered })

/-- A round of the harvester in the background: a failure is noted. -/
def harvestRound (hub : Hub σ) : Hub σ :=
  match hub.harvest with
  | (.ok _, hub) => hub
  | (.error cause, hub) => hub.note (.harvestFailed cause)

end Hub

end RealmDirectory
