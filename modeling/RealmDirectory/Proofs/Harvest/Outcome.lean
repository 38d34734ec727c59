import Mathlib.Algebra.GroupWithZero.Nat
import RealmDirectory.Proofs.Harvest.Backlog
import RealmDirectory.Proofs.Harvest.Fresh
import RealmDirectory.Proofs.Hub.Admission
import RealmDirectory.Proofs.Message.Archive

/-!
# What a round sends

A round reads the logs backwards, turns the lines around, picks the realms that have any, writes a
batch, compresses it, puts it into a frame and moves the marks of the realms it picked. Whoever
receives the frame undoes the middle of that. This module says what comes out at the other end, in
terms of `RealmRecord.fresh` alone: the lines that ought to be there, each realm's in the order in
which they came, and afterwards the marks that say so.

The bytes of the archive are left to the compressor: it may be any function that makes a stream of
the bytes it is given. `Hub.harvestBy` is a round with such a compressor, and `Hub.harvest` is the
one with `Zlib.store`.

## Main results

* `carriesBatch_of_frame` — what is received of a frame with a batch.
* `Hub.harvestCase` — how a round can go.
* `Hub.harvest_outcome` — what was sent, what it left, and when there is nothing to send.
-/

namespace RealmDirectory

variable {σ : Type}

/-! ## The frame -/

/-- The frame is read to its end as a batch of these logs: its opcode, the archive in it, and the
bytes of the archive. -/
def CarriesBatch (frame : List UInt8) (logs : List RealmLog) : Prop :=
  ∃ body raw, Frame.decode frame = .ok (⟨AdminOpcode.logBatch, body⟩, []) ∧
    LogArchive.unpack body = .ok raw ∧ LogBatch.read.decode raw = .ok logs

/-- What fits where a frame with a batch could be written. -/
theorem batchFrameBy_eq_ok {compress : List UInt8 → List UInt8} {logs : List RealmLog}
    {frame : List UInt8} (h : batchFrameBy compress logs = .ok frame) :
    logs.length < 4294967296 ∧ (∀ log ∈ logs, log.lines.length < 4294967296) ∧
      (LogBatch.bytes logs).length < 4294967296 ∧
      Frame.encode ⟨AdminOpcode.logBatch, Payload.word32 (.ofNat (LogBatch.bytes logs).length) ++
        compress (LogBatch.bytes logs)⟩ = .ok frame := by
  unfold batchFrameBy at h
  cases hencode : LogBatch.encode logs with
  | error cause =>
    rw [hencode] at h
    cases h
  | ok raw =>
    obtain ⟨hcount, hlines, rfl⟩ := LogBatch.encode_eq_ok_iff.mp hencode
    rw [hencode] at h
    obtain ⟨hfits, hframe⟩ :=
      (Payload.bind_eq_ok_iff fun _ => Payload.countWord_eq_ok_iff).mp h
    exact ⟨hcount, hlines, hfits, hframe⟩

/-- Whatever compresses the batch, its lines are received with their texts cut at the first NUL. -/
theorem carriesBatch_of_frame {compress : List UInt8 → List UInt8}
    (hcompress : ∀ raw, Zlib.IsStream (compress raw) raw) {logs : List RealmLog}
    {frame : List UInt8} (h : batchFrameBy compress logs = .ok frame) :
    CarriesBatch frame (logs.map RealmLog.received) := by
  obtain ⟨hcount, hlines, hfits, hframe⟩ := batchFrameBy_eq_ok h
  have hdecode := Frame.decode_encode hframe []
  have hunpack := LogArchive.unpack_packed hfits (hcompress (LogBatch.bytes logs)) []
  rw [List.append_nil] at hdecode hunpack
  exact ⟨_, _, hdecode, hunpack, (LogBatch.reads_received hcount hlines).decode_eq⟩

/-! ## What is to come of a round -/

namespace Hub

/-- These are the logs of the realms that have fresh lines, with all of those, oldest first; each
text is cut at its first NUL. -/
structure HoldsFresh (table : RealmTable) (logs : List RealmLog) : Prop where
  ascending : logs.Pairwise fun a b => a.realm < b.realm
  mem_iff : ∀ log, log ∈ logs ↔ ∃ record, table.find? log.realm = some record ∧
    record.fresh ≠ [] ∧ log.lines = record.fresh.reverse.map fun line => line.item.received

/-- What a round left that says it sent something. -/
structure SentRound (hub after : Hub σ) (queue : σ → List (List UInt8)) (realms lines : Nat) :
    Prop where
  /-- One frame was queued, and it carries the fresh lines. -/
  queued : ∃ frame logs, queue after.transport = queue hub.transport ++ [frame] ∧
    CarriesBatch frame logs ∧ HoldsFresh hub.realms logs ∧ realms = logs.length ∧
      lines = (logs.map (·.lines.length)).sum
  realms_pos : 1 ≤ realms
  lines_pos : 1 ≤ lines
  /-- The mark of a realm with fresh lines is the latest of their stamps; the rest of its record
  is as it was. -/
  marked : ∀ id record, hub.realms.find? id = some record → record.fresh ≠ [] →
    ∃ newest ∈ record.fresh, (∀ line ∈ record.fresh, line.stamp ≤ newest.stamp) ∧
      after.realms.find? id = some { record with checkpoint := some newest.stamp }
  /-- All other records are as they were. -/
  passedOver : ∀ id record, hub.realms.find? id = some record → record.fresh = [] →
    after.realms.find? id = some record
  absent : ∀ id, hub.realms.find? id = none → after.realms.find? id = none
  elsewhere : after.links = hub.links ∧ after.slot = hub.slot ∧ after.notices = hub.notices

section Fresh

variable {compress : List UInt8 → List UInt8} {hub : Hub σ} {queue : σ → List (List UInt8)}

/-- Received, what is due are the fresh lines with their texts cut. -/
theorem holdsFresh_due (table : RealmTable) :
    HoldsFresh table (table.due.map RealmLog.received) where
  ascending := List.pairwise_map.mpr table.ascending_due
  mem_iff := by
    intro log
    rw [List.mem_map]
    constructor
    · rintro ⟨due, hdue, rfl⟩
      obtain ⟨record, hfind, hfresh, hlines⟩ := RealmTable.mem_due_iff.mp hdue
      refine ⟨record, hfind, hfresh, ?_⟩
      show due.lines.map LogLine.received = _
      rw [hlines, List.map_map]
      rfl
    · rintro ⟨record, hfind, hfresh, hlines⟩
      have hid := RealmTable.id_of_find? hfind
      have hdue : record.due ∈ table.due := by
        refine RealmTable.mem_due_iff.mpr ⟨record, ?_, hfresh, rfl⟩
        exact (congrArg table.find? hid).trans hfind
      refine ⟨record.due, hdue, ?_⟩
      show RealmLog.mk record.id ((record.fresh.reverse.map (·.item)).map LogLine.received) = log
      rw [hid, List.map_map]
      exact congrArg (RealmLog.mk log.realm) hlines.symm

/-- The number of lines that a round reports. -/
theorem lines_eq_sum (h : hub.realms.Every RealmRecord.HasGrownLog) :
    (hub.realms.gather.map (·.log.lines.length)).foldl (· + ·) 0 =
      ((hub.realms.due.map RealmLog.received).map (·.lines.length)).sum := by
  have hlengths : hub.realms.gather.map (·.log.lines.length) =
      (hub.realms.due.map RealmLog.received).map (·.lines.length) := by
    rw [← RealmTable.gather_eq h, List.map_map, List.map_map]
    refine List.map_congr_left fun harvested _ => ?_
    exact (List.length_map LogLine.received).symm
  rw [hlengths, List.sum_eq_foldl]

private theorem gather_eq_nil_iff (h : hub.realms.Every RealmRecord.HasGrownLog) :
    hub.realms.gather = [] ↔ ∀ record ∈ hub.realms.records, record.fresh = [] := by
  rw [← RealmTable.due_eq_nil_iff, ← RealmTable.gather_eq h, List.map_eq_nil_iff]

/-- Logs that hold fresh lines of some realm hold at least one line. -/
theorem HoldsFresh.lines_pos {logs : List RealmLog} (h : HoldsFresh hub.realms logs)
    (hsome : logs ≠ []) : 1 ≤ (logs.map (·.lines.length)).sum := by
  cases logs with
  | nil => exact absurd rfl hsome
  | cons first rest =>
    obtain ⟨record, -, hfresh, hlines⟩ := (h.mem_iff first).mp List.mem_cons_self
    have hfirst : 1 ≤ first.lines.length := by
      rw [hlines, List.length_map, List.length_reverse]
      exact List.length_pos_iff.mpr hfresh
    rw [List.map_cons, List.sum_cons]
    exact Nat.le_add_right_of_le hfirst

/-- A round that was taken sent the fresh lines and left their marks. -/
theorem sentRound (hcompress : ∀ raw, Zlib.IsStream (compress raw) raw)
    (hgrown : hub.realms.Every RealmRecord.HasGrownLog) {frame : List UInt8} {transport : σ}
    (hsome : hub.realms.gather ≠ [])
    (hframe : batchFrameBy compress (hub.realms.gather.map (·.log)) = .ok frame)
    (hqueue : queue transport = queue hub.transport ++ [frame]) :
    SentRound hub { hub with transport, realms := hub.realms.settle hub.realms.gather } queue
      hub.realms.gather.length
      ((hub.realms.gather.map (·.log.lines.length)).foldl (· + ·) 0) := by
  have hfresh := holdsFresh_due hub.realms
  have hlength : hub.realms.gather.length = (hub.realms.due.map RealmLog.received).length := by
    rw [List.length_map, ← RealmTable.gather_eq hgrown, List.length_map]
  have hrealms : 1 ≤ hub.realms.gather.length := List.length_pos_iff.mpr hsome
  have hlogs : hub.realms.due.map RealmLog.received ≠ [] :=
    List.length_pos_iff.mp (hlength ▸ hrealms)
  have hafter := RealmTable.find?_settle_gather hgrown
  rw [lines_eq_sum hgrown]
  refine
    { queued := ?_
      realms_pos := hrealms
      lines_pos := hfresh.lines_pos hlogs
      marked := ?_
      passedOver := ?_
      absent := ?_
      elsewhere := ⟨rfl, rfl, rfl⟩ }
  · rw [RealmTable.gather_eq hgrown] at hframe
    exact ⟨frame, _, hqueue, carriesBatch_of_frame hcompress hframe, hfresh, hlength, rfl⟩
  · intro id record hfind hlines
    cases hcons : record.fresh with
    | nil => exact absurd hcons hlines
    | cons newest older =>
      have hsettled : record.settled = { record with checkpoint := some newest.stamp } := by
        rw [RealmRecord.settled, hcons]
      refine ⟨newest, List.mem_cons_self, ?_, ?_⟩
      · rw [← hcons]
        exact fun line => RealmRecord.stamp_le_of_mem_fresh (hgrown.find? hfind) hcons
      · rw [hafter id, hfind, Option.map_some, hsettled]
  · intro id record hfind hnone
    rw [hafter id, hfind, Option.map_some, RealmRecord.settled, hnone]
  · intro id hfind
    rw [hafter id, hfind, Option.map_none]

end Fresh

/-! ## How a round can go -/

variable [Transport σ]

/-- How a round goes while there is an admin session. -/
inductive HarvestCase (compress : List UInt8 → List UInt8) (hub : Hub σ) (session : AdminSession) :
    Except HarvestError HarvestReport × Hub σ → Prop where
  | noRealms (hrealms : hub.realms.records = []) : HarvestCase compress hub session (.ok .idle, hub)
  | nothingNew (hrealms : hub.realms.records ≠ []) (hnone : hub.realms.gather = []) :
      HarvestCase compress hub session (.ok .nothingNew, hub)
  | unframed {cause : Payload.FieldError} (hsome : hub.realms.gather ≠ [])
      (hframe : batchFrameBy compress (hub.realms.gather.map (·.log)) = .error cause) :
      HarvestCase compress hub session (.error (.payload cause), hub)
  | refused {frame : List UInt8} {cause : DeliveryError} {transport : σ} {after : Hub σ}
      (hsome : hub.realms.gather ≠ [])
      (hframe : batchFrameBy compress (hub.realms.gather.map (·.log)) = .ok frame)
      (hoffer : Transport.offer session.sink frame hub.transport = (.error cause, transport)) :
      HarvestCase compress hub session (.error (.send cause), after)
  | sent {frame : List UInt8} {transport : σ} (hsome : hub.realms.gather ≠ [])
      (hframe : batchFrameBy compress (hub.realms.gather.map (·.log)) = .ok frame)
      (hoffer : Transport.offer session.sink frame hub.transport = (.ok (), transport)) :
      HarvestCase compress hub session
        (.ok (.sent hub.realms.gather.length
          ((hub.realms.gather.map (·.log.lines.length)).foldl (· + ·) 0)),
        { hub with transport, realms := hub.realms.settle hub.realms.gather })

/-- A round of a hub with an admin session goes in one of five ways. -/
theorem harvestCase (compress : List UInt8 → List UInt8) {hub : Hub σ} {session : AdminSession}
    (hsession : hub.slot.current = some session) :
    HarvestCase compress hub session (hub.harvestBy compress) := by
  unfold harvestBy
  rw [hsession]
  dsimp only
  split
  · next hempty => exact .noRealms (List.isEmpty_iff.mp hempty)
  next hrealms =>
  split
  · next hnone =>
    exact .nothingNew (fun h => hrealms (List.isEmpty_iff.mpr h)) (List.isEmpty_iff.mp hnone)
  next hgathered =>
  have hsome : hub.realms.gather ≠ [] := fun h => hgathered (List.isEmpty_iff.mpr h)
  split
  · next hframe => exact .unframed hsome hframe
  next frame hframe =>
  rcases hub.deliver_cases session frame with
    ⟨transport, hoffer, hdeliver⟩ | ⟨cause, transport, hoffer, hdeliver⟩
  · rw [hdeliver]
    exact .sent hsome hframe hoffer
  · rw [hdeliver]
    exact .refused hsome hframe hoffer

/-- What a round did, for a hub with an admin session. -/
structure RoundOutcome (compress : List UInt8 → List UInt8) (hub : Hub σ)
    (session : AdminSession) (queue : σ → List (List UInt8))
    (outcome : Except HarvestError HarvestReport × Hub σ) : Prop where
  sent : ∀ {realms lines}, outcome.1 = .ok (.sent realms lines) →
    SentRound hub outcome.2 queue realms lines
  /-- Nothing is new exactly if there are realms and none has a fresh line. -/
  nothingNew_iff : outcome.1 = .ok .nothingNew ↔
    hub.realms.records ≠ [] ∧ ∀ record ∈ hub.realms.records, record.fresh = []
  nothingNew_inert : outcome.1 = .ok .nothingNew → outcome.2 = hub
  /-- A batch that can be framed and is taken was sent. -/
  taken : ∀ {frame transport}, batchFrameBy compress hub.backlog = .ok frame →
    Transport.offer session.sink frame hub.transport = (.ok (), transport) →
    (∃ record ∈ hub.realms.records, record.fresh ≠ []) →
    ∃ realms lines, outcome.1 = .ok (.sent realms lines)

section Outcome

variable {compress : List UInt8 → List UInt8} {hub : Hub σ} {session : AdminSession}
variable {queue : σ → List (List UInt8)}

/-- What a round with any compressor comes to. -/
theorem roundOutcome (hcompress : ∀ raw, Zlib.IsStream (compress raw) raw)
    (hsession : hub.slot.current = some session)
    (hgrown : hub.realms.Every RealmRecord.HasGrownLog)
    (hqueue : Queues session.sink queue) :
    RoundOutcome compress hub session queue (hub.harvestBy compress) := by
  have hround := harvestCase compress hsession
  have hnone := gather_eq_nil_iff hgrown
  generalize hub.harvestBy compress = outcome at hround
  refine ⟨?_, ?_, ?_, ?_⟩
  · intro realms lines hsent
    cases hround with
    | sent hsome hframe hoffer =>
      cases hsent
      exact sentRound hcompress hgrown hsome hframe (hqueue hoffer)
    | _ => cases hsent
  · cases hround with
    | noRealms hrealms => exact iff_of_false nofun fun h => h.1 hrealms
    | nothingNew hrealms hgather => exact iff_of_true rfl ⟨hrealms, hnone.mp hgather⟩
    | unframed hsome _ => exact iff_of_false nofun fun h => hsome (hnone.mpr h.2)
    | refused hsome _ _ => exact iff_of_false nofun fun h => hsome (hnone.mpr h.2)
    | sent hsome _ _ => exact iff_of_false nofun fun h => hsome (hnone.mpr h.2)
  · intro hnothing
    cases hround with
    | nothingNew _ _ => rfl
    | _ => cases hnothing
  · rintro frame transport hframe hoffer ⟨record, hmem, hfresh⟩
    have hbacklog : batchFrameBy compress (hub.realms.gather.map (·.log)) = .ok frame := hframe
    cases hround with
    | noRealms hrealms =>
      rw [hrealms] at hmem
      cases hmem
    | nothingNew _ hgather => exact absurd (hnone.mp hgather record hmem) hfresh
    | unframed _ hrefused =>
      rw [hrefused] at hbacklog
      cases hbacklog
    | refused _ hother hrefused =>
      rw [hother] at hbacklog
      cases hbacklog
      rw [hoffer] at hrefused
      cases hrefused
    | sent _ _ _ => exact ⟨_, _, rfl⟩

/-- What a round does for an admin session, with `queue` showing what its sink takes: with the
compressor that is used, and with any other. -/
theorem harvest_outcome (hsession : hub.slot.current = some session)
    (hgrown : hub.realms.Every RealmRecord.HasGrownLog)
    (hqueue : Queues session.sink queue) :
    RoundOutcome Zlib.store hub session queue hub.harvest ∧
      ∀ compress : List UInt8 → List UInt8, (∀ raw, Zlib.IsStream (compress raw) raw) →
        RoundOutcome compress hub session queue (hub.harvestBy compress) := by
  refine ⟨?_, fun compress hcompress => roundOutcome hcompress hsession hgrown hqueue⟩
  rw [← harvestBy_store]
  exact roundOutcome Zlib.isStream_store hsession hgrown hqueue

end Outcome

end Hub

/-- Where only sessions register, no log is put in from elsewhere. -/
theorem RealmStep.entersGrown_of_isDirect {step : RealmStep} (h : step.isDirect = false) :
    step.EntersGrown := by
  cases step with
  | call op hop =>
    cases op with
    | register record => cases h
    | _ => trivial
  | _ => trivial

namespace Traffic

/-- A realm with one line that was not sent, an admin session whose mailbox holds the list of realms
and has room for one more frame. -/
theorem harvest_outcome_watchedVisit :
    let hub := ((start (Mailboxes.empty.add 2).2).run (watchedVisit.take 4)).2.hub
    hub.slot.current = some ⟨1, 0⟩ ∧ hub.harvest.1 = .ok (.sent 1 1) ∧
      Hub.SentRound hub hub.harvest.2 (Mailboxes.framesFor 0) 1 1 ∧
      hub.harvest.2.harvest.1 = .ok .nothingNew := by
  have hsession : ((start (Mailboxes.empty.add 2).2).run (watchedVisit.take 4)).2.hub.slot.current =
      some ⟨1, 0⟩ := by decide +kernel
  have hsent : ((start (Mailboxes.empty.add 2).2).run (watchedVisit.take 4)).2.hub.harvest.1 =
      .ok (.sent 1 1) := by decide +kernel
  have hindirect : ∀ step ∈ (watchedVisit.take 4).filterMap TrafficStep.realm?,
      step.isDirect = false := by decide +kernel
  have hgrown := grown_run (Mailboxes.empty.add 2).2 fun step hmem =>
    RealmStep.entersGrown_of_isDirect (hindirect step hmem)
  refine ⟨hsession, hsent, ?_, by decide +kernel⟩
  exact (Hub.harvest_outcome hsession hgrown (Mailboxes.queues 0)).1.sent hsent

end Traffic

end RealmDirectory
