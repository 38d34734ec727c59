import RealmDirectory.Hub.Mailbox
import RealmDirectory.Proofs.Deflate.Spelling
import RealmDirectory.Proofs.LogRing.Window
import RealmDirectory.Proofs.Message.Batch
import RealmDirectory.Proofs.Payload.Utf8
import RealmDirectory.Proofs.Replica.Frames
import RealmDirectory.Proofs.Session.Records

/-!
# A backlog of all lines fits a batch

Both the size of a batch and the length of its frame are 32-bit words. Nobody looks at the size of
the backlog before a round of the harvester, and a batch that is too large would be gathered again
in every later round, so that nothing could be delivered any more.

With no more than 64 realms that does not happen. A log keeps 1024 lines, and a line was the payload
of an envelope, its category, its text and the NUL behind it, so that it has at most 65535 bytes. In
front of the lines of a realm stand eight bytes, in front of all realms four, and the sum is less
than 65020 bytes away from what a word can count.

The frame holds the archive instead of the batch, and there has to be room for it in that margin.
An archive is longer than its batch by a few bytes and by an eighth of the bytes 255 in it. No text
has such a byte, which leaves the categories and the counts, less than 66100 bytes in all. So the
frame is always written, and a round fails only if the sink does not take it.

The invariant is `RealmRecord.IsMeasured`, which looks at the log of a record only.

## Main results

* `RealmRecord.IsMeasured.length_bytes_le` — the lines of one realm in a batch.
* `Hub.length_batch_le`, `Hub.count_batch_le` — the whole batch, by the number of realms.
* `Hub.harvestBy_error` — what a round fails at once its frame is written.
* `Traffic.packs_run` — after any run.
-/

namespace RealmDirectory

open Payload (FieldError word32 length_word32 countWord_eq_ok_iff)

variable {σ : Type}

/-- The most bytes that the payload of an envelope has. -/
def longestPayload : Nat := 65535

/-- Nothing longer comes out of a stream of envelopes. -/
theorem Envelope.length_payload_le {bytes rest : List UInt8} {envelope : Envelope}
    (h : Frame.decode bytes = .ok (envelope, rest)) : envelope.payload.length ≤ longestPayload := by
  unfold Frame.decode at h
  split at h
  · cases h
  next code afterCode =>
  dsimp only at h
  split at h
  · cases h
  next hwidth =>
  split at h
  · cases h
  split at h
  · cases h
  · cases h
    have hdeclared := Payload.ofLittleEndian_lt (afterCode.take (Opcodes.lengthWidth RealmOpcode))
    have hlength : (afterCode.take (Opcodes.lengthWidth RealmOpcode)).length = 2 := by
      have hle := List.length_take_le (Opcodes.lengthWidth RealmOpcode) afterCode
      exact Nat.le_antisymm hle (Nat.not_lt.mp hwidth)
    rw [hlength] at hdeclared
    exact Nat.le_trans (List.length_take_le _ _) (Nat.le_of_lt_succ hdeclared)

/-! ## The log of one record -/

/-- The log has its capacity, and every line in it came as the payload of an envelope. -/
structure RealmRecord.IsMeasured (record : RealmRecord) : Prop where
  capacity_eq : record.log.capacity = logCapacity
  lines : ∃ items, record.log.Holds items ∧
    ∀ entry ∈ items, entry.item.encode.length ≤ longestPayload

namespace RealmRecord

variable {record other : RealmRecord}

theorem IsMeasured.congr (h : record.IsMeasured) (hlog : other.log = record.log) :
    other.IsMeasured := by
  constructor
  · rw [hlog]
    exact h.capacity_eq
  · rw [hlog]
    exact h.lines

private theorem isMeasured_of_create (h : record.log = LogRing.create logCapacity) :
    record.IsMeasured := by
  constructor
  · rw [h]
    simp [logCapacity]
  · rw [h]
    exact ⟨[], LogRing.holds_create logCapacity, List.forall_mem_nil _⟩

/-- A line that is short enough keeps the log measured; it may push the oldest one out. -/
theorem IsMeasured.append (h : record.IsMeasured) {line : LogLine}
    (hline : line.encode.length ≤ longestPayload) (now : Instant) :
    (record.append line now).IsMeasured := by
  obtain ⟨items, hholds, hlines⟩ := h.lines
  constructor
  · show (record.log.push line now).capacity = logCapacity
    rw [LogRing.capacity_push]
    exact h.capacity_eq
  · refine ⟨_, hholds.push line now, ?_⟩
    intro entry hentry
    rcases List.mem_cons.mp (List.mem_of_mem_take hentry) with rfl | hold
    · exact hline
    · exact hlines entry hold

theorem IsMeasured.clear (h : record.IsMeasured) :
    IsMeasured { record with log := record.log.clear } :=
  ⟨h.capacity_eq, [], LogRing.Holds.clear record.log, List.forall_mem_nil _⟩

/-- A registration takes the old log over or starts an empty one. -/
theorem IsMeasured.entering (h : record.IsMeasured) {previous : Option RealmRecord}
    (hprevious : ∀ old, previous = some old → old.IsMeasured) :
    (record.entering previous).IsMeasured := by
  cases previous with
  | none => exact h.congr rfl
  | some old => exact (hprevious old rfl).congr rfl

end RealmRecord

/-- A line that is read takes up no more than the payload that it is read from. -/
theorem LogLine.length_encode_le {payload : List UInt8} {line : LogLine}
    (h : read.decode payload = .ok line) : line.encode.length ≤ payload.length :=
  (accepts_read.decode_eq_ok_iff.mp h).2.length_le

/-- The payloads and the lines of the step have at most 65535 bytes, and no record is put in that
was not read from a registration. -/
def RealmStep.isMeasured : RealmStep → Bool
  | .dispatch _ envelope _ => envelope.payload.length ≤ longestPayload
  | .call (.register _) _ => false
  | .call (.append _ line _) _ => line.encode.length ≤ longestPayload
  | _ => true

/-- A session appends nothing that is longer than the payload it came in. -/
theorem Envelope.upholds_isMeasured {envelope : Envelope}
    (h : envelope.payload.length ≤ longestPayload) (now : Instant) :
    envelope.Upholds RealmRecord.IsMeasured now where
  registered _ _ hprevious := (RealmRecord.isMeasured_of_create rfl).entering hprevious
  written := by
    intro record hrecord
    unfold Session.written
    split
    · split
      · exact hrecord
      · exact hrecord.congr rfl
    · split
      · exact hrecord
      next line hline => exact hrecord.append (Nat.le_trans (LogLine.length_encode_le hline) h) now
    · exact hrecord

/-- Of all steps only a dispatch and a call that appends put a line in. -/
theorem RealmStep.upholds_isMeasured {step : RealmStep} (h : step.isMeasured = true) :
    step.Upholds RealmRecord.IsMeasured := by
  cases step with
  | join peer => trivial
  | dispatch place envelope now =>
    have hpayload : envelope.payload.length ≤ longestPayload := by simpa [isMeasured] using h
    exact Envelope.upholds_isMeasured hpayload now
  | close place => exact fun record hrecord => hrecord.congr rfl
  | drop place => trivial
  | call op hop =>
    cases op with
    | register record => simp [isMeasured] at h
    | append id line now =>
      have hline : line.encode.length ≤ longestPayload := by simpa [isMeasured] using h
      exact fun record hrecord => hrecord.append hline now
    | setOnline id online => exact fun record hrecord => hrecord.congr rfl
    | release id link => exact fun record hrecord => hrecord.congr rfl
    | report id status => exact fun record hrecord => hrecord.congr rfl
    | clearLog id => exact fun record hrecord => hrecord.clear
    | remove id => trivial
    | login sink current => trivial
    | evict session => trivial

/-! ## The batch -/

/-- What is counted in each of the parts is counted in all of them. -/
private theorem countP_flatMap_le {α β : Type} {f : α → List β} {p : β → Bool} {bound : Nat}
    {l : List α} (h : ∀ a ∈ l, (f a).countP p ≤ bound) :
    (l.flatMap f).countP p ≤ l.length * bound := by
  induction l with
  | nil => simp
  | cons a l ih =>
    have hfirst := h a List.mem_cons_self
    have hrest := ih fun b hb => h b (List.mem_cons_of_mem _ hb)
    rw [List.flatMap_cons, List.countP_append, List.length_cons, Nat.succ_mul]
    omega

private theorem length_flatMap_le {α β : Type} {f : α → List β} {bound : Nat} {l : List α}
    (h : ∀ a ∈ l, (f a).length ≤ bound) : (l.flatMap f).length ≤ l.length * bound := by
  rw [← List.countP_true]
  apply countP_flatMap_le
  intro a ha
  rw [List.countP_true]
  exact h a ha

/-- Only the category of a line can be 255. -/
theorem LogLine.count_encode_le (line : LogLine) : line.encode.count 255 ≤ 1 := by
  have htext : (Payload.terminated line.text).count 255 = 0 := by
    apply List.count_eq_zero.mpr
    intro h
    rcases List.mem_append.mp h with hbyte | hend
    · have hlt := (Payload.isUtf8_utf8 line.text).lt_of_mem
        ((List.takeWhile_prefix _).sublist.mem hbyte)
      exact absurd hlt (by decide)
    · exact absurd hend (by decide)
  rw [encode, List.count_cons, htext]
  split <;> decide

/-- Besides the categories there are the id of the realm and the number of lines. -/
theorem RealmLog.count_bytes_le (log : RealmLog) :
    log.bytes.count 255 ≤ 8 + log.lines.length := by
  have hid := List.count_le_length (a := 255) (l := word32 log.realm)
  have hcount := List.count_le_length (a := 255) (l := word32 (UInt32.ofNat log.lines.length))
  have hlines : (log.lines.flatMap LogLine.encode).count 255 ≤ log.lines.length * 1 :=
    countP_flatMap_le fun line _ => line.count_encode_le
  rw [length_word32] at hid hcount
  rw [bytes, List.append_nil, List.count_append, List.count_append]
  omega

/-- What one realm has to deliver: at most 1024 lines, with eight bytes in front of them. -/
theorem RealmRecord.IsMeasured.length_bytes_le {record : RealmRecord} (h : record.IsMeasured)
    {harvested : Harvested} (hharvested : record.harvested? = some harvested) :
    harvested.log.lines.length ≤ 1024 ∧ harvested.log.bytes.length ≤ 8 + 1024 * 65535 := by
  obtain ⟨items, hholds, hlines⟩ := h.lines
  have hsub : record.undelivered.Sublist items := by
    unfold undelivered
    rw [hholds.unseen_eq]
    exact List.takeWhile_sublist _
  have hcount : record.undelivered.length ≤ 1024 := by
    have hroom := hholds.length_le
    rw [h.capacity_eq] at hroom
    exact Nat.le_trans hsub.length_le hroom
  have hlog : harvested.log.lines = record.undelivered.reverse.map (·.item) := by
    unfold harvested? at hharvested
    cases hundelivered : record.undelivered with
    | nil => simp [hundelivered] at hharvested
    | cons newest older =>
      simp only [hundelivered, Option.some.injEq] at hharvested
      rw [← hharvested]
  have hlength : harvested.log.lines.length ≤ 1024 := by
    rw [hlog, List.length_map, List.length_reverse]
    exact hcount
  have hmem : ∀ line ∈ harvested.log.lines, line.encode.length ≤ 65535 := by
    intro line hline
    rw [hlog] at hline
    obtain ⟨entry, hentry, rfl⟩ := List.mem_map.mp hline
    exact hlines entry (hsub.mem (List.mem_reverse.mp hentry))
  refine ⟨hlength, ?_⟩
  rw [RealmLog.length_bytes]
  exact Nat.add_le_add_left
    (Nat.le_trans (length_flatMap_le hmem) (Nat.mul_le_mul_right _ hlength)) 8

namespace Hub

/-- The lines that the next batch is made of. -/
def backlog (hub : Hub σ) : List RealmLog := hub.realms.gather.map (·.log)

variable {hub : Hub σ}

private theorem length_backlog_le (hub : Hub σ) : hub.backlog.length ≤ hub.realms.size := by
  rw [backlog, List.length_map]
  exact List.length_filterMap_le _ _

private theorem exists_of_mem_backlog {log : RealmLog} (h : log ∈ hub.backlog) :
    ∃ record ∈ hub.realms.records, ∃ harvested, record.harvested? = some harvested ∧
      harvested.log = log := by
  obtain ⟨harvested, hmem, heq⟩ := List.mem_map.mp h
  obtain ⟨record, hrecord, hharvested⟩ := List.mem_filterMap.mp hmem
  exact ⟨record, hrecord, harvested, hharvested, heq⟩

/-- Four bytes and what each realm adds. -/
theorem length_batch_le (h : hub.realms.Every RealmRecord.IsMeasured) :
    (LogBatch.bytes hub.backlog).length ≤ hub.realms.size * (8 + 1024 * 65535) + 4 := by
  have hlogs : ∀ log ∈ hub.backlog, log.bytes.length ≤ 8 + 1024 * 65535 := by
    intro log hlog
    obtain ⟨record, hrecord, harvested, hharvested, rfl⟩ := exists_of_mem_backlog hlog
    exact ((h record hrecord).length_bytes_le hharvested).2
  have hsum := length_flatMap_le hlogs
  have hcount := Nat.mul_le_mul_right (8 + 1024 * 65535) hub.length_backlog_le
  rw [LogBatch.bytes, List.length_append, length_word32]
  omega

/-- The bytes 255 in it: perhaps all counts and ids, and one in each line. -/
theorem count_batch_le (h : hub.realms.Every RealmRecord.IsMeasured) :
    (LogBatch.bytes hub.backlog).count 255 ≤ hub.realms.size * (8 + 1024) + 4 := by
  have hlogs : ∀ log ∈ hub.backlog, log.bytes.count 255 ≤ 8 + 1024 := by
    intro log hlog
    obtain ⟨record, hrecord, harvested, hharvested, rfl⟩ := exists_of_mem_backlog hlog
    have hlines := ((h record hrecord).length_bytes_le hharvested).1
    exact Nat.le_trans harvested.log.count_bytes_le (Nat.add_le_add_left hlines 8)
  have hsum : (hub.backlog.flatMap RealmLog.bytes).count 255 ≤ hub.backlog.length * (8 + 1024) :=
    countP_flatMap_le hlogs
  have hrealms := Nat.mul_le_mul_right (8 + 1024) hub.length_backlog_le
  have hcount := List.count_le_length (a := 255)
    (l := word32 (UInt32.ofNat hub.backlog.length))
  rw [length_word32] at hcount
  rw [LogBatch.bytes, List.count_append]
  omega

/-- Neither the number of realms nor that of any lines is too large for its word. -/
theorem encode_backlog (h : hub.realms.Every RealmRecord.IsMeasured)
    (hsize : hub.realms.size ≤ 64) :
    LogBatch.encode hub.backlog = .ok (LogBatch.bytes hub.backlog) := by
  refine LogBatch.encode_eq_ok_iff.mpr ⟨?_, ?_, rfl⟩
  · have hcount := hub.length_backlog_le
    omega
  · intro log hlog
    obtain ⟨record, hrecord, harvested, hharvested, rfl⟩ := exists_of_mem_backlog hlog
    have hlines := ((h record hrecord).length_bytes_le hharvested).1
    omega

end Hub

/-! ## The archive and its frame -/

/-- The frame of a batch, whatever its bytes are compressed by. -/
def batchFrameBy (compress : List UInt8 → List UInt8) (logs : List RealmLog) :
    Except FieldError (List UInt8) := do
  let raw ← LogBatch.encode logs
  let size ← Payload.countWord "uncompressed_size" raw.length
  Frame.encode ⟨AdminOpcode.logBatch, word32 size ++ compress raw⟩

private theorem batchFrameBy_store : batchFrameBy Zlib.store = batchFrame := by
  funext logs
  unfold batchFrameBy batchFrame LogArchive.pack
  simp only [bind_assoc, pure_bind]

/-- Once the batch and its size are written, only the length of the frame can stand in the way. -/
theorem batchFrameBy_eq (compress : List UInt8 → List UInt8) {logs : List RealmLog}
    {raw : List UInt8} (hencode : LogBatch.encode logs = .ok raw)
    (hfits : raw.length < 4294967296) :
    batchFrameBy compress logs = Frame.encode
      ⟨AdminOpcode.logBatch, word32 (UInt32.ofNat raw.length) ++ compress raw⟩ := by
  have hsize : Payload.countWord "uncompressed_size" raw.length = .ok (.ofNat raw.length) :=
    countWord_eq_ok_iff.mpr ⟨hfits, rfl⟩
  unfold batchFrameBy
  rw [hencode]
  show (Payload.countWord "uncompressed_size" raw.length >>= _) = _
  rw [hsize]
  rfl

/-! ## Rounds -/

namespace Hub

section Harvest

variable [Transport σ]

/-- A round whose archives are made by `compress`. -/
def harvestBy (compress : List UInt8 → List UInt8) (hub : Hub σ) :
    Except HarvestError HarvestReport × Hub σ :=
  match hub.slot.current with
  | none => (.ok .idle, hub)
  | some session =>
    if hub.realms.isEmpty then (.ok .idle, hub)
    else
      let gathered := hub.realms.gather
      if gathered.isEmpty then (.ok .nothingNew, hub)
      else
        match batchFrameBy compress (gathered.map (·.log)) with
        | .error cause => (.error (.payload cause), hub)
        | .ok bytes =>
          match hub.deliver session bytes with
          | (.error cause, hub) => (.error (.send cause), hub)
          | (.ok (), hub) =>
            (.ok (.sent gathered.length ((gathered.map (·.log.lines.length)).foldl (· + ·) 0)),
              { hub with realms := hub.realms.settle gathered })

/-- The round that is run is the one with the compressor that is used. -/
theorem harvestBy_store (hub : Hub σ) : hub.harvestBy Zlib.store = hub.harvest := by
  unfold harvestBy
  exact batchFrameBy_store ▸ rfl

/-- Once the frame of the backlog is written, a round fails only if the sink does not take it. -/
theorem harvestBy_error {compress : List UInt8 → List UInt8} {hub : Hub σ} {bytes : List UInt8}
    (hframe : batchFrameBy compress hub.backlog = .ok bytes) {error : HarvestError}
    (h : (hub.harvestBy compress).1 = .error error) : ∃ cause, error = .send cause := by
  have hgathered : batchFrameBy compress (hub.realms.gather.map (·.log)) = .ok bytes := hframe
  unfold harvestBy at h
  cases hcurrent : hub.slot.current with
  | none => simp [hcurrent] at h
  | some session =>
    simp only [hcurrent, hgathered] at h
    split at h
    · cases h
    split at h
    · cases h
    split at h
    · next cause _ _ =>
      cases h
      exact ⟨cause, rfl⟩
    · cases h

end Harvest

/-- The backlog of a hub can be written as the batch `raw`, and the batch can be delivered. -/
structure Packs [Transport σ] (hub : Hub σ) (raw : List UInt8) : Prop where
  encode_eq : LogBatch.encode hub.backlog = .ok raw
  length_le : raw.length ≤ 64 * (8 + 1024 * 65535) + 4
  bound_lt : 64 * (8 + 1024 * 65535) + 4 < 4294967296
  /-- The size of the batch is written in front of the archive. -/
  pack_eq : LogArchive.pack raw = .ok (word32 (UInt32.ofNat raw.length) ++ Zlib.store raw)
  /-- With its size, the archive fits a frame. -/
  archive_lt : 4 + (Zlib.store raw).length < 4294967296
  /-- No round fails before the sink is offered a frame. -/
  harvest_error : ∀ error, hub.harvest.1 = .error error → ∃ cause, error = .send cause
  /-- Whatever the batch is compressed by, a frame is written exactly if the archive fits it. -/
  framed_iff : ∀ compress : List UInt8 → List UInt8,
    (∃ bytes, batchFrameBy compress hub.backlog = .ok bytes) ↔
      4 + (compress raw).length < 4294967296
  /-- Then a round with that compressor fails at the sink only, too. -/
  harvestBy_error : ∀ compress : List UInt8 → List UInt8,
    4 + (compress raw).length < 4294967296 →
      ∀ error, (hub.harvestBy compress).1 = .error error → ∃ cause, error = .send cause

/-- With measured logs of no more than 64 realms, the batch and every word about it fit. -/
theorem packs_of_every [Transport σ] {hub : Hub σ} (h : hub.realms.Every RealmRecord.IsMeasured)
    (hsize : hub.realms.size ≤ 64) : hub.Packs (LogBatch.bytes hub.backlog) := by
  have hencode := encode_backlog h hsize
  have hbound : (LogBatch.bytes hub.backlog).length ≤ 64 * (8 + 1024 * 65535) + 4 :=
    Nat.le_trans (length_batch_le h) (Nat.add_le_add_right (Nat.mul_le_mul_right _ hsize) 4)
  have hrare : (LogBatch.bytes hub.backlog).count 255 ≤ 64 * (8 + 1024) + 4 :=
    Nat.le_trans (count_batch_le h) (Nat.add_le_add_right (Nat.mul_le_mul_right _ hsize) 4)
  have hfits : (LogBatch.bytes hub.backlog).length < 4294967296 := by omega
  have harchive : 4 + (Zlib.store (LogBatch.bytes hub.backlog)).length < 4294967296 := by
    have hstored := Zlib.length_store_le (LogBatch.bytes hub.backlog)
    omega
  have hframed : ∀ compress : List UInt8 → List UInt8,
      (∃ bytes, batchFrameBy compress hub.backlog = .ok bytes) ↔
        4 + (compress (LogBatch.bytes hub.backlog)).length < 4294967296 := fun compress => by
    rw [batchFrameBy_eq compress hencode hfits, Frame.exists_encode_iff, List.length_append,
      length_word32]
    rfl
  have herror : ∀ compress : List UInt8 → List UInt8,
      4 + (compress (LogBatch.bytes hub.backlog)).length < 4294967296 → ∀ error,
        (hub.harvestBy compress).1 = .error error → ∃ cause, error = .send cause := by
    intro compress hroom error herror
    obtain ⟨bytes, hbytes⟩ := (hframed compress).mpr hroom
    exact harvestBy_error hbytes herror
  refine
    { encode_eq := hencode
      length_le := hbound
      bound_lt := by decide
      pack_eq := ?_
      archive_lt := harchive
      harvest_error := ?_
      framed_iff := hframed
      harvestBy_error := herror }
  · unfold LogArchive.pack
    rw [countWord_eq_ok_iff.mpr ⟨hfits, rfl⟩]
    rfl
  · intro error hfailed
    rw [← harvestBy_store] at hfailed
    exact herror Zlib.store harchive error hfailed

end Hub

namespace Traffic

/-- Whatever the sessions dispatch, and whatever happens between, the lines that 64 realms have to
deliver fit one batch, and no round is stuck with it. -/
theorem packs_run [Transport σ] (transport : σ) {steps : List (TrafficStep σ)}
    (hsteps : ∀ step ∈ steps.filterMap TrafficStep.realm?, step.isMeasured = true)
    (hsize : ((start transport).run steps).2.hub.realms.size ≤ 64) :
    ∃ raw, ((start transport).run steps).2.hub.Packs raw := by
  have hstart : (start transport).hub.realms.Every RealmRecord.IsMeasured := List.forall_mem_nil _
  have hevery := every_run
    (fun hmark hrecord => hrecord.congr (RealmRecord.unmarked_eq_iff.mp hmark).2.1.symm) hstart
    fun step hmem => RealmStep.upholds_isMeasured (hsteps step hmem)
  exact ⟨_, Hub.packs_of_every hevery hsize⟩

/-- Realm 7 logs, goes and comes back over a second connection; another realm is removed. -/
def returningVisit : List (TrafficStep Mailboxes) :=
  let registration (id : UInt32) : Registration :=
    ⟨id, "Realm", 8085, 200, 50, .player, ⟨0⟩, .normal, .english, []⟩
  let request (id : UInt32) : Envelope :=
    ⟨.registeringRequest, (registration id).encode.toOption.getD []⟩
  watchedVisit ++ [.realm (.join ⟨.v4 10 0 0 6, 41001, 1⟩), .realm (.dispatch 1 (request 7) 6),
    .realm (.dispatch 1 ⟨.logMessage, LogLine.encode ⟨2, "again"⟩⟩ 7),
    .realm (.join ⟨.v4 10 0 0 7, 41002, 2⟩), .realm (.dispatch 2 (request 9) 8),
    .admin .harvest, .realm (.call (.remove 9) rfl)]

/-- The backlog after that visit: both lines of realm 7 are still to be delivered, in one batch. -/
theorem packs_run_returningVisit :
    let hub := ((start (Mailboxes.empty.add 2).2).run returningVisit).2.hub
    hub.backlog = [⟨7, [⟨1, "line"⟩, ⟨2, "again"⟩]⟩] ∧ hub.realms.size ≤ 64 ∧
      ∃ raw, hub.Packs raw := by
  have hsize : ((start (Mailboxes.empty.add 2).2).run returningVisit).2.hub.realms.size ≤ 64 := by
    decide +kernel
  refine ⟨?_, hsize, packs_run _ ?_ hsize⟩
  · decide +kernel
  · decide +kernel

end Traffic

end RealmDirectory
