import RealmDirectory.Message.LogArchive
import RealmDirectory.Proofs.Deflate.Spelling
import RealmDirectory.Proofs.Payload.Accepts

/-!
# A compressed batch is judged by its stream

The size in front of a compressed batch is sent by somebody else, and so is the stream behind it.
The size decides how much is inflated and nothing more: the bytes are given out only where a whole
stream was found, down to its checksum, and where they are as many as declared. The one byte that
is asked for beyond the size is what tells the two cases apart, since with fewer bytes than asked
for the inflater has to reach the end of the stream.

## Main results

* `LogArchive.unpack_eq_ok_iff` — what is unpacked, in terms of the stream and the size.
* `LogArchive.unpack_of_excess` — a stream that goes on past the declared size.
* `LogArchive.unpack_packed` — any compressor's output, with anything behind it.
-/

namespace RealmDirectory.LogArchive

open Payload
open Zlib (IsStream)

/-- The size a body declares in its first four bytes. -/
def declaredSize (body : List UInt8) : Nat := ofLittleEndian (body.take 4)

/-- What a body holds behind the declared size. -/
def streamBytes (body : List UInt8) : List UInt8 := body.drop 4

/-! ## The size -/

private theorem readSize_eq {body : List UInt8} (h : 4 ≤ body.length) :
    readSize body = .ok (declaredSize body, streamBytes body) := by
  have hwidth : (body.take 4).length = 4 := by
    rw [List.length_take, Nat.min_eq_left h]
  have hlt := ofLittleEndian_lt (body.take 4)
  rw [hwidth] at hlt
  have hsize : (ofWord32 (body.take 4)).toNat = declaredSize body := by
    rw [ofWord32, UInt32.toNat_ofNat']
    exact Nat.mod_eq_of_lt hlt
  have htake : Reader.take "uncompressed_size" 4 body = .ok (body.take 4, body.drop 4) :=
    if_pos hwidth
  show (Reader.take "uncompressed_size" 4 body >>= _) >>= _ = _
  rw [htake, ← hsize]
  rfl

private theorem readSize_short {body : List UInt8} (h : body.length < 4) :
    readSize body = .error (.unexpectedEnd "uncompressed_size") := by
  have hwidth : (body.take 4).length ≠ 4 := by
    rw [List.length_take]
    omega
  have htake : Reader.take "uncompressed_size" 4 body =
      .error (.unexpectedEnd "uncompressed_size") := if_neg hwidth
  show (Reader.take "uncompressed_size" 4 body >>= _) >>= _ = _
  rw [htake]
  rfl

/-- A body without room for the size is refused for that. -/
theorem unpack_short {body : List UInt8} (h : body.length < 4) :
    unpack body = .error (.size (.unexpectedEnd "uncompressed_size")) := by
  rw [unpack, readSize_short h]

/-! ## The stream -/

/-- Whatever is inflated is given out if it is as long as declared. -/
theorem unpack_of_inflate {body raw : List UInt8} (h : 4 ≤ body.length)
    (hraw : Zlib.inflate (declaredSize body + 1) (streamBytes body) = .ok raw) :
    unpack body = if raw.length = declaredSize body then .ok raw
      else .error (.mismatch (declaredSize body) raw.length) := by
  rw [unpack, readSize_eq h]
  dsimp only
  rw [hraw]

/-- The bytes are given out that a whole stream holds, if they are as many as declared. -/
theorem unpack_eq_ok_iff {body raw : List UInt8} (h : 4 ≤ body.length) :
    unpack body = .ok raw ↔
      IsStream (streamBytes body) raw ∧ raw.length = declaredSize body := by
  constructor
  · intro hunpack
    cases hinflate : Zlib.inflate (declaredSize body + 1) (streamBytes body) with
    | error halt =>
      rw [unpack, readSize_eq h] at hunpack
      dsimp only at hunpack
      rw [hinflate] at hunpack
      cases halt <;> cases hunpack
    | ok out =>
      rw [unpack_of_inflate h hinflate] at hunpack
      split at hunpack
      · next hsize =>
        cases hunpack
        have hless : raw.length < declaredSize body + 1 := Nat.lt_succ_of_le (Nat.le_of_eq hsize)
        exact ⟨Zlib.isStream_of_inflate hinflate hless, hsize⟩
      · cases hunpack
  · rintro ⟨hstream, hsize⟩
    have hinflate : Zlib.inflate (declaredSize body + 1) (streamBytes body) = .ok raw := by
      rw [hstream.inflate_eq, ← hsize, List.take_of_length_le (Nat.le_succ raw.length)]
    rw [unpack_of_inflate h hinflate, if_pos hsize]

/-- Where more comes out than declared, it is one byte more, and the body is refused. -/
theorem unpack_of_excess {body out : List UInt8} (h : 4 ≤ body.length)
    (hout : Zlib.inflate (declaredSize body + 1) (streamBytes body) = .ok out)
    (hexcess : declaredSize body < out.length) :
    unpack body = .error (.mismatch (declaredSize body) (declaredSize body + 1)) := by
  have hbound := Zlib.length_inflate_le hout
  have hlength : out.length = declaredSize body + 1 := by omega
  have hsize : out.length ≠ declaredSize body := by omega
  rw [unpack_of_inflate h hout, if_neg hsize, hlength]

/-- What the judgement of a body says that has room for a size. -/
structure Judged (body : List UInt8) : Prop where
  /-- Bytes are given out exactly if a whole stream holds them and they are as many as declared. -/
  accepted : ∀ raw, unpack body = .ok raw ↔
    IsStream (streamBytes body) raw ∧ raw.length = declaredSize body
  /-- Every other body is refused. -/
  refused : (¬ ∃ raw, IsStream (streamBytes body) raw ∧ raw.length = declaredSize body) →
    ∃ cause, unpack body = .error cause
  /-- No more than one byte past the declared size is inflated. -/
  bounded : ∀ out, Zlib.inflate (declaredSize body + 1) (streamBytes body) = .ok out →
    out.length ≤ declaredSize body + 1
  /-- If that byte comes out, the body is refused, whatever else its stream holds. -/
  excess : ∀ out, Zlib.inflate (declaredSize body + 1) (streamBytes body) = .ok out →
    declaredSize body < out.length →
    unpack body = .error (.mismatch (declaredSize body) (declaredSize body + 1))
  /-- So it is with a whole stream that holds more than declared. -/
  oversize : ∀ raw, IsStream (streamBytes body) raw → declaredSize body < raw.length →
    Zlib.inflate (declaredSize body + 1) (streamBytes body) =
        .ok (raw.take (declaredSize body + 1)) ∧
      unpack body = .error (.mismatch (declaredSize body) (declaredSize body + 1))

/-- Every body that is long enough to have a size is judged by its stream and nothing else. -/
theorem judged {body : List UInt8} (h : 4 ≤ body.length) : Judged body where
  accepted := fun raw => unpack_eq_ok_iff h
  refused := by
    intro hnone
    cases hunpack : unpack body with
    | error cause => exact ⟨cause, rfl⟩
    | ok raw => exact absurd ⟨raw, (unpack_eq_ok_iff h).mp hunpack⟩ hnone
  bounded := fun out => Zlib.length_inflate_le
  excess := fun out => unpack_of_excess h
  oversize := by
    intro raw hstream hlong
    have hinflate := hstream.inflate_eq (declaredSize body + 1)
    have hexcess : declaredSize body < (raw.take (declaredSize body + 1)).length := by
      rw [List.length_take]
      omega
    exact ⟨hinflate, unpack_of_excess h hinflate hexcess⟩

/-! ## Packing -/

/-- A stream behind the size of what it holds is unpacked, whatever wrote it and whatever comes
behind it. -/
theorem unpack_packed {raw stream : List UInt8} (hfits : raw.length < 4294967296)
    (hstream : IsStream stream raw) (tail : List UInt8) :
    unpack (word32 (UInt32.ofNat raw.length) ++ (stream ++ tail)) = .ok raw := by
  have hwidth := length_word32 (UInt32.ofNat raw.length)
  have hroom : 4 ≤ (word32 (UInt32.ofNat raw.length) ++ (stream ++ tail)).length := by
    rw [List.length_append, hwidth]
    exact Nat.le_add_right 4 _
  have hsize : declaredSize (word32 (UInt32.ofNat raw.length) ++ (stream ++ tail)) =
      raw.length := by
    rw [declaredSize, List.take_left' hwidth, word32, ofLittleEndian_littleEndian,
      toNat_ofNat_length hfits]
    exact Nat.mod_eq_of_lt hfits
  have hbehind : streamBytes (word32 (UInt32.ofNat raw.length) ++ (stream ++ tail)) =
      stream ++ tail := List.drop_left' hwidth
  rw [unpack_eq_ok_iff hroom, hsize, hbehind]
  exact ⟨hstream.append tail, rfl⟩

private theorem pack_eq_ok_iff {raw body : List UInt8} :
    pack raw = .ok body ↔ raw.length < 4294967296 ∧
      body = word32 (UInt32.ofNat raw.length) ++ Zlib.store raw := by
  unfold pack
  rw [bind_eq_ok_iff fun _ => countWord_eq_ok_iff, pure_eq_ok_iff]

/-- Bytes that can be counted survive being packed and unpacked. -/
structure Restored (raw : List UInt8) : Prop where
  /-- Whatever compressor wrote a stream of them, and whatever comes behind it. -/
  anyStream : ∀ stream, IsStream stream raw → ∀ tail,
    unpack (word32 (UInt32.ofNat raw.length) ++ (stream ++ tail)) = .ok raw
  /-- So it is with the stream that is written here. -/
  packed : ∃ body, pack raw = .ok body ∧ ∀ tail, unpack (body ++ tail) = .ok raw

/-- What was packed is restored, if it could be counted. -/
theorem restored {raw : List UInt8} (hfits : raw.length < 4294967296) : Restored raw where
  anyStream := fun stream hstream tail => unpack_packed hfits hstream tail
  packed := by
    refine ⟨_, pack_eq_ok_iff.mpr ⟨hfits, rfl⟩, ?_⟩
    intro tail
    rw [List.append_assoc]
    exact unpack_packed hfits (Zlib.isStream_store raw) tail

/-- A body is judged by its stream, and bytes that were packed are restored. -/
theorem unpack_trusts_no_size (body raw : List UInt8) :
    (body.length < 4 → unpack body = .error (.size (.unexpectedEnd "uncompressed_size"))) ∧
      (4 ≤ body.length → Judged body) ∧ (raw.length < 4294967296 → Restored raw) :=
  ⟨unpack_short, judged, restored⟩

/-- Two stored bytes, with the size right, one byte too small and cut short. -/
theorem unpack_trusts_no_size_twoBytes :
    unpack ([2, 0, 0, 0] ++ Zlib.store [7, 7]) = .ok [7, 7] ∧
      unpack ([1, 0, 0, 0] ++ Zlib.store [7, 7]) = .error (.mismatch 1 2) ∧
      unpack [2, 0, 0] = .error (.size (.unexpectedEnd "uncompressed_size")) ∧
      (∀ tail, unpack (word32 2 ++ (Zlib.store [7, 7] ++ tail)) = .ok [7, 7]) := by
  have hstream := Zlib.isStream_store [7, 7]
  obtain ⟨-, hright, -⟩ := unpack_trusts_no_size ([2, 0, 0, 0] ++ Zlib.store [7, 7]) [7, 7]
  obtain ⟨-, hsmall, -⟩ := unpack_trusts_no_size ([1, 0, 0, 0] ++ Zlib.store [7, 7]) [7, 7]
  obtain ⟨hshort, -, hrestored⟩ := unpack_trusts_no_size [2, 0, 0] [7, 7]
  refine ⟨?_, ?_, hshort (by decide), ?_⟩
  · exact ((hright (by decide)).accepted [7, 7]).mpr ⟨hstream, rfl⟩
  · exact ((hsmall (by decide)).oversize [7, 7] hstream (by decide)).2
  · exact (hrestored (by decide)).anyStream (Zlib.store [7, 7]) hstream

end RealmDirectory.LogArchive
