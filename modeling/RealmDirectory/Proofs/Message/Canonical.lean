import RealmDirectory.Message.LogLine
import RealmDirectory.Message.Registration
import RealmDirectory.Message.Status
import RealmDirectory.Proofs.Payload.Accepts

/-!
# Messages of realm servers have one written form

What a realm server sends is decoded from its encoding and from nothing else: enumerations with
gaps, a text whose end is found by looking for it and a counted list leave no second way to write
the same message, and none to write a message that cannot be read back. Bytes behind a message are
ignored, and those behind a registration are counted.

A text with a NUL is the one thing that does not come back as it was sent. It is written up to
there, so the message is read with the text cut, and all other fields as they were.

## Main results

* `Registration.accepts_read`, `LogLine.accepts_read`, `StatusReport.accepts_read`,
  `RegistrationAnswer.accepts_read` — what is read, one message each.
* `RealmMessage.canonical` — what the decoders of the realm channel accept.
-/

namespace RealmDirectory

open Payload

/-! ## Registrations -/

namespace Registration

/-- The registration is written and read back without loss. -/
structure IsPlain (r : Registration) : Prop where
  name : NulFree r.name
  builds : r.builds.length ≤ 255

/-- The bytes of a registration whose builds can be counted. -/
def bytes (r : Registration) : List UInt8 :=
  word32 r.id ++ (terminated r.name ++ (word32 r.gamePort ++ (word32 r.maxPlayers ++
    (word32 r.onlinePlayers ++ ([Coded.code r.minAccess] ++ ([r.flags.bits] ++
    ([Coded.code r.kind] ++ ([Coded.code r.timezone] ++ ([UInt8.ofNat r.builds.length] ++
    (r.builds.flatMap word32 ++ []))))))))))

/-- What arrives of a registration: the name is cut at its first NUL. -/
def received (r : Registration) : Registration := { r with name := upToNul r.name }

/-- A registration that was received is written as the one it was received from. -/
theorem bytes_received (r : Registration) : r.received.bytes = r.bytes := by
  unfold bytes received
  rw [terminated_upToNul]

/-- The number of builds is all that can keep a registration from being written. -/
theorem encode_eq_ok_iff {r : Registration} {written : List UInt8} :
    r.encode = .ok written ↔ r.builds.length ≤ 255 ∧ written = r.bytes := by
  have hbytes : r.bytes = word32 r.id ++ terminated r.name ++ word32 r.gamePort
      ++ word32 r.maxPlayers ++ word32 r.onlinePlayers
      ++ [Coded.code r.minAccess, r.flags.bits, Coded.code r.kind, Coded.code r.timezone,
          UInt8.ofNat r.builds.length] ++ r.builds.flatMap word32 := by
    simp only [bytes, List.append_assoc, List.cons_append, List.nil_append, List.append_nil]
  unfold encode
  rw [bind_eq_ok_iff fun _ => countByte_eq_ok_iff, pure_eq_ok_iff, hbytes]

private theorem encode_eq_error_iff {r : Registration} {cause : FieldError} :
    r.encode = .error cause ↔
      255 < r.builds.length ∧ cause = .tooLarge "build_count" r.builds.length := by
  rw [← countByte_eq_error_iff]
  unfold encode
  cases countByte "build_count" r.builds.length with
  | ok count => exact ⟨nofun, nofun⟩
  | error refusal =>
    constructor
    · intro h
      cases h
      rfl
    · intro h
      cases h
      rfl

/-- A plain registration is read back as it was written. -/
theorem reads_bytes {r : Registration} (h : r.IsPlain) : Reads read r.bytes r := by
  unfold read bytes
  apply (reads_word "realm_id" r.id).bind
  apply (reads_text "name" h.name).bind
  apply (reads_word "game_port" r.gamePort).bind
  apply (reads_word "max_players" r.maxPlayers).bind
  apply (reads_word "online_players" r.onlinePlayers).bind
  apply (reads_code r.minAccess).bind
  apply (reads_byte "flags" r.flags.bits).bind
  apply (reads_code r.kind).bind
  apply (reads_code r.timezone).bind
  apply (reads_byte "build_count" (UInt8.ofNat r.builds.length)).bind
  apply (reads_builds h.builds).bind
  exact reads_pure r

/-- What a registration is read from is what it is written as. -/
theorem takes_read : Takes read (Written IsPlain bytes) := by
  unfold read
  apply (takes_word "realm_id").bind; rintro id _ rfl
  apply (takes_text "name").bind; rintro name _ ⟨hname, rfl⟩
  apply (takes_word "game_port").bind; rintro gamePort _ rfl
  apply (takes_word "max_players").bind; rintro maxPlayers _ rfl
  apply (takes_word "online_players").bind; rintro onlinePlayers _ rfl
  apply takes_code.bind; rintro minAccess _ rfl
  apply (takes_byte "flags").bind; rintro flags _ rfl
  apply takes_code.bind; rintro kind _ rfl
  apply takes_code.bind; rintro timezone _ rfl
  apply (takes_byte "build_count").bind; rintro count _ rfl
  apply (takes_builds count).bind; rintro builds _ ⟨hcount, rfl⟩
  have hfits : builds.length ≤ 255 := by
    rw [hcount]
    exact Nat.le_of_lt_succ count.toNat_lt
  obtain rfl : UInt8.ofNat builds.length = count := by
    rw [hcount]
    exact UInt8.ofNat_toNat
  exact takes_pure ⟨⟨hname, hfits⟩, rfl⟩

/-- A registration is read from what plain ones are written as, and from nothing else. -/
theorem accepts_read : Accepts read (Written IsPlain bytes) where
  takes := takes_read
  reads := by
    rintro r _ ⟨hplain, rfl⟩
    exact reads_bytes hplain

/-- Decoding is reading, and counting what is left. -/
theorem decode_eq_ok_iff {payload : List UInt8} {r : Registration} {trailing : Nat} :
    decode payload = .ok (r, trailing) ↔
      ∃ rest, read payload = .ok (r, rest) ∧ rest.length = trailing := by
  unfold decode
  cases read payload with
  | error cause =>
    refine ⟨nofun, ?_⟩
    rintro ⟨rest, h, -⟩
    cases h
  | ok taken =>
    constructor
    · intro h
      cases h
      exact ⟨taken.2, rfl, rfl⟩
    · rintro ⟨rest, h, rfl⟩
      cases h
      rfl

end Registration

/-! ## Answers, status reports and log lines -/

/-- An answer is read from what answers are written as, and from nothing else. -/
theorem RegistrationAnswer.accepts_read :
    Accepts read (Written (fun _ => True) RegistrationAnswer.encode) where
  takes := by
    unfold read
    apply (takes_byte "added").bind; rintro b _ rfl payload answer rest h
    obtain ⟨_, ⟨hanswer, rfl⟩, hpayload⟩ := takes_check _ h
    refine ⟨[], ⟨trivial, ?_⟩, hpayload⟩
    split at hanswer
    · next hzero =>
      cases hanswer
      rw [hzero]
      rfl
    split at hanswer
    · next hone =>
      cases hanswer
      rw [hone]
      rfl
    · cases hanswer
  reads := by
    rintro ⟨added⟩ _ ⟨-, rfl⟩ rest
    cases added with
    | true => rfl
    | false => rfl

/-- A report is read from what reports are written as, and from nothing else. -/
theorem StatusReport.accepts_read :
    Accepts read (Written (fun _ => True) StatusReport.encode) where
  takes := by
    unfold read
    apply (takes_byte "flags").bind; rintro flags _ rfl
    apply (takes_float "population").bind; rintro population _ rfl
    exact takes_pure ⟨trivial, by rw [List.append_nil]; rfl⟩
  reads := by
    rintro report _ ⟨-, rfl⟩
    have hbytes : report.encode = [report.flags.bits] ++ (word32 report.population.bits ++ []) := by
      rw [List.append_nil]
      rfl
    rw [hbytes]
    unfold read
    apply (reads_byte "flags" report.flags.bits).bind
    apply (reads_float "population" report.population).bind
    exact reads_pure report

namespace LogLine

/-- What arrives of a line: the text is cut at its first NUL. -/
def received (line : LogLine) : LogLine := { line with text := upToNul line.text }

/-- A line that was received is written as the one it was received from. -/
theorem encode_received (line : LogLine) : line.received.encode = line.encode := by
  unfold encode received
  rw [terminated_upToNul]

/-- A line is read from what plain lines are written as, and from nothing else. -/
theorem accepts_read : Accepts read (Written (NulFree ·.text) encode) where
  takes := by
    unfold read
    apply (takes_byte "category").bind; rintro category _ rfl
    apply (takes_text "text").bind; rintro text _ ⟨htext, rfl⟩
    exact takes_pure ⟨htext, by rw [List.append_nil]; rfl⟩
  reads := by
    rintro line _ ⟨htext, rfl⟩
    have hbytes : line.encode = [line.category] ++ (terminated line.text ++ []) := by
      rw [List.append_nil]
      rfl
    rw [hbytes]
    unfold read
    apply (reads_byte "category" line.category).bind
    apply (reads_text "text" htext).bind
    exact reads_pure line

/-- A line is read back with its text cut at the first NUL. -/
theorem reads_encode (line : LogLine) : Reads read line.encode line.received := by
  rw [← encode_received]
  exact accepts_read.reads ⟨nulFree_upToNul line.text, rfl⟩

end LogLine

/-! ## The realm channel -/

namespace RealmMessage

/-- What the decoders of the realm channel accept, and what comes back of a message. -/
structure Canonical : Prop where
  /-- A registration is decoded from its encoding; what follows is counted. -/
  registration_iff : ∀ {payload : List UInt8} {r : Registration} {trailing : Nat},
    Registration.decode payload = .ok (r, trailing) ↔ NulFree r.name ∧ r.builds.length ≤ 255 ∧
      ∃ written rest, r.encode = .ok written ∧ payload = written ++ rest ∧ rest.length = trailing
  line_iff : ∀ {payload : List UInt8} {line : LogLine},
    LogLine.read.decode payload = .ok line ↔ NulFree line.text ∧ line.encode <+: payload
  report_iff : ∀ {payload : List UInt8} {report : StatusReport},
    StatusReport.read.decode payload = .ok report ↔ report.encode <+: payload
  answer_iff : ∀ {payload : List UInt8} {answer : RegistrationAnswer},
    RegistrationAnswer.read.decode payload = .ok answer ↔ answer.encode <+: payload
  /-- Whatever the name, a registration that is written is decoded, and nothing is left over. -/
  registration_received : ∀ {r : Registration} {written : List UInt8},
    r.encode = .ok written → Registration.decode written = .ok (r.received, 0)
  line_received : ∀ line : LogLine, LogLine.read line.encode = .ok (line.received, [])
  /-- A registration is refused for the number of its builds only. -/
  registration_refused_iff : ∀ {r : Registration} {cause : FieldError},
    r.encode = .error cause ↔
      255 < r.builds.length ∧ cause = .tooLarge "build_count" r.builds.length

/-- The messages of a realm server have one encoding each. What is decoded is encoded to the bytes
that it was decoded from, and what is encoded is decoded again, but for what stands behind a NUL in
a text. -/
theorem canonical : Canonical where
  registration_iff := by
    intro payload r trailing
    rw [Registration.decode_eq_ok_iff]
    constructor
    · rintro ⟨rest, hread, hlength⟩
      obtain ⟨hplain, hpayload⟩ := Registration.accepts_read.eq_ok_iff.mp hread
      have hencode := Registration.encode_eq_ok_iff.mpr ⟨hplain.builds, rfl⟩
      exact ⟨hplain.name, hplain.builds, r.bytes, rest, hencode, hpayload, hlength⟩
    · rintro ⟨hname, hbuilds, written, rest, hencode, hpayload, hlength⟩
      obtain ⟨-, rfl⟩ := Registration.encode_eq_ok_iff.mp hencode
      have hplain : r.IsPlain := ⟨hname, hbuilds⟩
      exact ⟨rest, Registration.accepts_read.eq_ok_iff.mpr ⟨hplain, hpayload⟩, hlength⟩
  line_iff := LogLine.accepts_read.decode_eq_ok_iff
  report_iff := StatusReport.accepts_read.decode_eq_ok_iff.trans (and_iff_right trivial)
  answer_iff := RegistrationAnswer.accepts_read.decode_eq_ok_iff.trans (and_iff_right trivial)
  registration_received := by
    intro r written hencode
    obtain ⟨hbuilds, rfl⟩ := Registration.encode_eq_ok_iff.mp hencode
    have hplain : r.received.IsPlain := ⟨nulFree_upToNul r.name, hbuilds⟩
    rw [← Registration.bytes_received]
    exact Registration.decode_eq_ok_iff.mpr
      ⟨[], (Registration.reads_bytes hplain).read_all, rfl⟩
  line_received := fun line => line.reads_encode.read_all
  registration_refused_iff := Registration.encode_eq_error_iff

end RealmMessage

end RealmDirectory
