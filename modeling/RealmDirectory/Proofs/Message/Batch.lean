import RealmDirectory.Proofs.Message.Canonical

/-!
# Batches of log lines say exactly what they hold

A batch is a counted list of counted lists of texts, with nothing between them. Both counts are
sent by somebody else and need not be true. The reader believes them as far as the bytes go: it
reads as many realms and lines as announced, or it fails. So a batch is decoded from its encoding
and from nothing else, a count that is too large is a fault and never a shorter list, and a batch
that is cut short anywhere is refused.

## Main results

* `RealmLog.accepts_read`, `LogBatch.accepts_read` — what is read, one list inside the other.
* `LogBatch.realms_of_decode`, `LogBatch.lines_of_decode` — what announced counts say.
* `LogBatch.unambiguous` — which bytes are a batch, and which batch they are.
-/

namespace RealmDirectory

open Payload

/-- Words have one length, so that two that begin the same bytes are equal. -/
theorem word32_append_inj {v w : UInt32} {left right : List UInt8}
    (h : word32 v ++ left = word32 w ++ right) : v = w ∧ left = right := by
  have hwidth : (word32 v).length = (word32 w).length := by
    rw [length_word32, length_word32]
  obtain ⟨hword, hrest⟩ := List.append_inj h hwidth
  refine ⟨?_, hrest⟩
  rw [← ofWord32_word32 v, hword, ofWord32_word32]

private theorem two_le_length_encode (line : LogLine) : 2 ≤ line.encode.length := by
  rw [LogLine.encode, terminated, List.length_cons, List.length_append, List.length_singleton]
  omega

/-! ## The log of one realm -/

namespace RealmLog

/-- The log is written and read back without loss. -/
structure IsPlain (log : RealmLog) : Prop where
  count : log.lines.length < 4294967296
  lines : ∀ line ∈ log.lines, NulFree line.text

/-- The bytes of a log whose lines can be counted. -/
def bytes (log : RealmLog) : List UInt8 :=
  word32 log.realm ++ (word32 (UInt32.ofNat log.lines.length) ++
    (log.lines.flatMap LogLine.encode ++ []))

/-- What arrives of a log: every text is cut at its first NUL. -/
def received (log : RealmLog) : RealmLog := { log with lines := log.lines.map LogLine.received }

/-- A log that was received is written as the one it was received from. -/
theorem bytes_received (log : RealmLog) : log.received.bytes = log.bytes := by
  rw [bytes, received, List.length_map, flatMap_map_of_eq LogLine.encode_received, bytes]

/-- What is received of a log has no NUL left in it. -/
theorem isPlain_received {log : RealmLog} (h : log.lines.length < 4294967296) :
    log.received.IsPlain where
  count := by rwa [received, List.length_map]
  lines := by
    intro line hline
    obtain ⟨sent, -, rfl⟩ := List.mem_map.mp hline
    exact nulFree_upToNul sent.text

/-- The number of lines is all that can keep a log from being written. -/
theorem encode_eq_ok_iff {log : RealmLog} {written : List UInt8} :
    log.encode = .ok written ↔ log.lines.length < 4294967296 ∧ written = log.bytes := by
  have hbytes : log.bytes = word32 log.realm ++ word32 (UInt32.ofNat log.lines.length) ++
      log.lines.flatMap LogLine.encode := by
    rw [bytes, List.append_nil, List.append_assoc]
  unfold encode
  rw [bind_eq_ok_iff fun _ => countWord_eq_ok_iff, pure_eq_ok_iff, hbytes]

/-- A log is read from what plain logs are written as, and from nothing else. -/
theorem accepts_read : Accepts read (Written IsPlain bytes) where
  takes := by
    unfold read
    apply (takes_word "realm_id").bind; rintro realm _ rfl
    apply (takes_word "entry_count").bind; rintro count _ rfl
    apply (LogLine.accepts_read.takes.times count.toNat).bind
    rw [row_written]
    rintro lines _ ⟨hcount, hlines, rfl⟩
    have hfits : lines.length < 4294967296 := by
      rw [hcount]
      exact count.toNat_lt
    obtain rfl := ofNat_length_eq hcount
    exact takes_pure ⟨⟨hfits, hlines⟩, rfl⟩
  reads := by
    rintro log _ ⟨hplain, rfl⟩
    have hlines := reads_times fun line hline =>
      LogLine.accepts_read.reads ⟨hplain.lines line hline, rfl⟩
    unfold read bytes
    apply (reads_word "realm_id" log.realm).bind
    apply (reads_word "entry_count" _).bind
    rw [toNat_ofNat_length hplain.count]
    apply hlines.bind
    exact reads_pure log

/-- Eight bytes for the realm and the number of lines, and the lines. -/
theorem length_bytes (log : RealmLog) :
    log.bytes.length = 8 + (log.lines.flatMap LogLine.encode).length := by
  rw [bytes, List.append_nil, List.length_append, List.length_append, length_word32, length_word32]
  omega

/-- A realm takes up eight bytes, and two more for each line. -/
theorem le_length_bytes (log : RealmLog) : 8 + 2 * log.lines.length ≤ log.bytes.length := by
  rw [length_bytes]
  exact Nat.add_le_add_left (mul_length_le_length_flatMap two_le_length_encode log.lines) 8

end RealmLog

/-! ## Batches -/

namespace LogBatch

structure IsPlain (logs : List RealmLog) : Prop where
  count : logs.length < 4294967296
  logs : ∀ log ∈ logs, log.IsPlain

/-- The bytes of a batch whose realms and lines can be counted. -/
def bytes (logs : List RealmLog) : List UInt8 :=
  word32 (UInt32.ofNat logs.length) ++ logs.flatMap RealmLog.bytes

theorem bytes_received (logs : List RealmLog) :
    bytes (logs.map RealmLog.received) = bytes logs := by
  rw [bytes, List.length_map, flatMap_map_of_eq RealmLog.bytes_received, bytes]

theorem isPlain_received {logs : List RealmLog} (hcount : logs.length < 4294967296)
    (h : ∀ log ∈ logs, log.lines.length < 4294967296) :
    IsPlain (logs.map RealmLog.received) where
  count := by rwa [List.length_map]
  logs := by
    intro log hlog
    obtain ⟨sent, hsent, rfl⟩ := List.mem_map.mp hlog
    exact RealmLog.isPlain_received (h sent hsent)

/-- A batch is written unless its realms or the lines of one are too many to be counted. -/
theorem encode_eq_ok_iff {logs : List RealmLog} {written : List UInt8} :
    encode logs = .ok written ↔ logs.length < 4294967296 ∧
      (∀ log ∈ logs, log.lines.length < 4294967296) ∧ written = bytes logs := by
  unfold encode bytes
  rw [bind_eq_ok_iff fun _ => countWord_eq_ok_iff,
    bind_eq_ok_iff fun _ => mapM_eq_ok_iff fun _ _ => RealmLog.encode_eq_ok_iff, pure_eq_ok_iff,
    List.flatMap_def]

/-- A batch is read from what batches of plain logs are written as, and from nothing else. -/
theorem accepts_read : Accepts read (Written IsPlain bytes) where
  takes := by
    intro payload logs rest h
    have hcounted := RealmLog.accepts_read.takes.counted "realm_count"
    rw [row_written] at hcounted
    obtain ⟨_, ⟨hcount, _, ⟨hlogs, rfl⟩, rfl⟩, hpayload⟩ := hcounted h
    exact ⟨_, ⟨⟨hcount, hlogs⟩, rfl⟩, hpayload⟩
  reads := by
    rintro logs _ ⟨hplain, rfl⟩
    exact reads_counted (fun log hlog => RealmLog.accepts_read.reads ⟨hplain.logs log hlog, rfl⟩)
      hplain.count "realm_count"

/-- What is read of a batch is what is received of each log. -/
theorem reads_received {logs : List RealmLog} (hcount : logs.length < 4294967296)
    (h : ∀ log ∈ logs, log.lines.length < 4294967296) :
    Reads read (bytes logs) (logs.map RealmLog.received) := by
  rw [← bytes_received]
  exact accepts_read.reads ⟨isPlain_received hcount h, rfl⟩

/-! ## Announced counts -/

/-- As many realms as announced, in at least the room that they need. -/
theorem realms_of_decode {declared : UInt32} {rest : List UInt8} {logs : List RealmLog}
    (h : read.decode (word32 declared ++ rest) = .ok logs) :
    logs.length = declared.toNat ∧ 8 * declared.toNat ≤ rest.length := by
  obtain ⟨hplain, tail, hbytes⟩ := accepts_read.decode_eq_ok_iff.mp h
  rw [bytes, List.append_assoc] at hbytes
  obtain ⟨hcount, hrest⟩ := word32_append_inj hbytes
  have hlength : logs.length = declared.toNat := by
    rw [← toNat_ofNat_length hplain.count, hcount]
  have hroom := mul_length_le_length_flatMap
    (fun log => Nat.le_of_add_right_le (RealmLog.le_length_bytes log)) logs
  refine ⟨hlength, ?_⟩
  rw [← hrest, List.length_append, ← hlength]
  exact Nat.le_add_right_of_le hroom

/-- As many lines as announced for the realm that follows some whole ones. The bytes behind its
counts have room for the lines and for the realms that are still to come. -/
theorem lines_of_decode {declared realm count : UInt32} {before logs : List RealmLog}
    {rest : List UInt8} (hbefore : ∀ log ∈ before, log.lines.length < 4294967296)
    (hlt : before.length < declared.toNat)
    (h : read.decode (word32 declared ++ (before.flatMap RealmLog.bytes ++
      (word32 realm ++ (word32 count ++ rest)))) = .ok logs) :
    (∃ log, logs[before.length]? = some log ∧ log.realm = realm ∧
      log.lines.length = count.toNat) ∧
    2 * count.toNat + 8 * (declared.toNat - before.length - 1) ≤ rest.length := by
  have hlength := (realms_of_decode h).1
  obtain ⟨hplain, tail, hbytes⟩ := accepts_read.decode_eq_ok_iff.mp h
  rw [bytes, List.append_assoc] at hbytes
  have hbody := (word32_append_inj hbytes).2
  -- The realms before are among those read, as they arrive.
  rw [← flatMap_map_of_eq RealmLog.bytes_received before] at hbody
  obtain ⟨more, rfl, hmore⟩ := RealmLog.accepts_read.append_eq_append
    (isPlain_received (Nat.lt_trans hlt declared.toNat_lt) hbefore).logs hplain.logs
    (by rw [List.length_map]; omega) hbody.symm
  cases more with
  | nil =>
    rw [List.append_nil, List.length_map] at hlength
    omega
  | cons log after =>
    have hlog := hplain.logs log (List.mem_append_right _ List.mem_cons_self)
    rw [List.flatMap_cons, RealmLog.bytes, List.append_nil] at hmore
    simp only [List.append_assoc] at hmore
    obtain ⟨hrealm, hmore⟩ := word32_append_inj hmore
    obtain ⟨hcount, hmore⟩ := word32_append_inj hmore
    have hlines : log.lines.length = count.toNat := by
      rw [← toNat_ofNat_length hlog.count, ← hcount]
    refine ⟨⟨log, ?_, hrealm.symm, hlines⟩, ?_⟩
    · rw [List.getElem?_append_right (by rw [List.length_map]), List.length_map, Nat.sub_self]
      rfl
    · have hown := mul_length_le_length_flatMap two_le_length_encode log.lines
      have hothers := mul_length_le_length_flatMap
        (fun log => Nat.le_of_add_right_le (RealmLog.le_length_bytes log)) after
      rw [List.length_append, List.length_map, List.length_cons] at hlength
      rw [hmore, List.length_append, List.length_append]
      omega

/-- Which bytes are a batch, and which batch they are. -/
structure Unambiguous : Prop where
  /-- A batch is decoded from its encoding, whatever follows, and from nothing else. -/
  decode_iff : ∀ {payload : List UInt8} {logs : List RealmLog},
    read.decode payload = .ok logs ↔ (∀ log ∈ logs, ∀ line ∈ log.lines, NulFree line.text) ∧
      ∃ written, encode logs = .ok written ∧ written <+: payload
  /-- Whatever the texts, a batch that can be counted is written and comes back. -/
  received : ∀ {logs : List RealmLog}, logs.length < 4294967296 →
    (∀ log ∈ logs, log.lines.length < 4294967296) →
    ∃ written, encode logs = .ok written ∧
      read.decode written = .ok (logs.map RealmLog.received)
  realms_counted : ∀ {declared : UInt32} {rest : List UInt8} {logs : List RealmLog},
    read.decode (word32 declared ++ rest) = .ok logs → logs.length = declared.toNat
  realms_refused : ∀ {declared : UInt32} {rest : List UInt8},
    rest.length < 8 * declared.toNat →
    ∃ cause, read.decode (word32 declared ++ rest) = .error cause
  /-- The lines of a realm that follows the realms `before`, of which `parts` are the bytes. -/
  lines_counted : ∀ {declared realm count : UInt32} {before logs : List RealmLog}
    {parts : List (List UInt8)} {rest : List UInt8}, before.mapM RealmLog.encode = .ok parts →
    before.length < declared.toNat →
    read.decode (word32 declared ++ (parts.flatten ++ (word32 realm ++ (word32 count ++ rest)))) =
      .ok logs →
    ∃ log, logs[before.length]? = some log ∧ log.realm = realm ∧
      log.lines.length = count.toNat
  /-- A line takes up two bytes at least, and each realm that is still to come eight. -/
  lines_refused : ∀ {declared realm count : UInt32} {before : List RealmLog}
    {parts : List (List UInt8)} {rest : List UInt8}, before.mapM RealmLog.encode = .ok parts →
    before.length < declared.toNat →
    rest.length < 2 * count.toNat + 8 * (declared.toNat - before.length - 1) →
    ∃ cause, read.decode
      (word32 declared ++ (parts.flatten ++ (word32 realm ++ (word32 count ++ rest)))) =
        .error cause
  cut_refused : ∀ {logs : List RealmLog} {written cut : List UInt8}, encode logs = .ok written →
    cut <+: written → cut ≠ written → ∃ cause, read.decode cut = .error cause

/-- A batch says what it holds: it is decoded from its own encoding only, a count that the bytes do
not bear out is refused, and so is a batch that is cut short. -/
theorem unambiguous : Unambiguous where
  decode_iff := by
    intro payload logs
    rw [accepts_read.decode_eq_ok_iff]
    constructor
    · rintro ⟨hplain, hprefix⟩
      have hlines := fun log hlog => (hplain.logs log hlog).count
      exact ⟨fun log hlog => (hplain.logs log hlog).lines, bytes logs,
        encode_eq_ok_iff.mpr ⟨hplain.count, hlines, rfl⟩, hprefix⟩
    · rintro ⟨htexts, written, hencode, hprefix⟩
      obtain ⟨hcount, hlines, rfl⟩ := encode_eq_ok_iff.mp hencode
      exact ⟨⟨hcount, fun log hlog => ⟨hlines log hlog, htexts log hlog⟩⟩, hprefix⟩
  received := by
    intro logs hcount hlines
    exact ⟨bytes logs, encode_eq_ok_iff.mpr ⟨hcount, hlines, rfl⟩,
      (reads_received hcount hlines).decode_eq⟩
  realms_counted := fun h => (realms_of_decode h).1
  realms_refused := by
    intro declared rest hshort
    cases hdecode : read.decode (word32 declared ++ rest) with
    | error cause => exact ⟨cause, rfl⟩
    | ok logs => exact absurd (realms_of_decode hdecode).2 (Nat.not_le.mpr hshort)
  lines_counted := by
    intro declared realm count before logs parts rest hparts hlt hdecode
    obtain ⟨hbefore, rfl⟩ := mapM_eq_ok_iff (fun _ _ => RealmLog.encode_eq_ok_iff) |>.mp hparts
    rw [← List.flatMap_def] at hdecode
    exact (lines_of_decode hbefore hlt hdecode).1
  lines_refused := by
    intro declared realm count before parts rest hparts hlt hshort
    obtain ⟨hbefore, rfl⟩ := mapM_eq_ok_iff (fun _ _ => RealmLog.encode_eq_ok_iff) |>.mp hparts
    rw [← List.flatMap_def]
    cases hdecode : read.decode (word32 declared ++ (before.flatMap RealmLog.bytes ++
        (word32 realm ++ (word32 count ++ rest)))) with
    | error cause => exact ⟨cause, rfl⟩
    | ok logs =>
      exact absurd (lines_of_decode hbefore hlt hdecode).2 (Nat.not_le.mpr hshort)
  cut_refused := by
    intro logs written cut hencode hcut hne
    obtain ⟨hcount, hlines, rfl⟩ := encode_eq_ok_iff.mp hencode
    rw [← bytes_received] at hcut hne
    exact accepts_read.exists_error_of_prefix ⟨isPlain_received hcount hlines, rfl⟩ hcut hne

end LogBatch

end RealmDirectory
