import RealmDirectory.Deflate.Inflate
import RealmDirectory.Deflate.Spelling
import RealmDirectory.Payload.Word
/-!
# Zlib streams

A zlib stream is a two-byte header, a compressed stream, and the Adler-32 checksum of the output,
most significant byte first. `Zlib.inflate` reads one from the front of some bytes and gives as
many bytes of output as are asked for; `Zlib.store` writes one of a single block, which is hardly
longer than what it holds.

Inflating runs ahead of what is asked for: it takes the bytes in in pieces, puts the output out in
windows, and looks only between two pieces and between two windows whether there is enough. A
mistake in what it reads until then counts, even if there is enough before it.

The header must name the one compression method there is, a window of at most 32 KiB and no preset
dictionary, and its two bytes must form a multiple of 31.

## Main results

* `Zlib.length_inflate_le` — no more bytes come out than are asked for.
-/

namespace RealmDirectory.Zlib

open Deflate (BitReader Halt Progress Result)

/-- The modulus of the checksum. -/
def adlerModulus : Nat := 65521

/-- The Adler-32 checksum of some bytes: the sum of the bytes plus one, and the sum of those
running sums in the upper half. -/
def adler32 (bytes : List UInt8) : Nat :=
  let (low, high) := bytes.foldl (fun (low, high) b =>
    let low := (low + b.toNat) % adlerModulus
    (low, (high + low) % adlerModulus)) (1, 0)
  high * 65536 + low

/-- The checksum as it is written, most significant byte first. -/
def adlerBytes (bytes : List UInt8) : List UInt8 :=
  let sum := adler32 bytes
  [UInt8.ofNat (sum / Nat.pow 2 24), UInt8.ofNat (sum / Nat.pow 2 16),
    UInt8.ofNat (sum / Nat.pow 2 8), UInt8.ofNat sum]

/-- The header says that a stream of the known kind follows. -/
def headerValid (method flags : UInt8) : Bool :=
  (method.toNat * 256 + flags.toNat) % 31 == 0
    && method.toNat % 16 == 8 && method.toNat / 16 ≤ 7 && flags.toNat / 32 % 2 == 0

/-- Inflates the stream at the front of some bytes; it may stop between two windows once as many
bytes as asked for are there. -/
def decode (asked : Nat) : List UInt8 → Progress (List UInt8)
  | method :: flags :: rest =>
    if headerValid method flags then
      match Deflate.blocks asked (BitReader.ofBytes rest) #[] with
      | .error stop => .error stop
      | .ok (r, out) =>
        let bytes := out.toList
        let sum := r.align.bytes.take 4
        if sum.length < 4 then .error (.truncated out)
        else if sum = adlerBytes bytes then .ok bytes
        else .error .corrupt
    else .error .corrupt
  | _ => .error (.truncated #[])

/-- How many bytes of a stream are taken in at a time. -/
def pieceSize : Nat := 32768

/-- As much output as is asked for, if some bytes end before their stream does, but not before
that much. -/
def enough? (asked : Nat) (bytes : List UInt8) : Option (List UInt8) :=
  match decode asked bytes with
  | .error (.truncated out) => if asked ≤ out.size then some (out.toList.take asked) else none
  | _ => none

theorem length_enough? {asked : Nat} {bytes out : List UInt8}
    (h : enough? asked bytes = some out) : out.length = asked := by
  unfold enough? at h
  split at h
  · split at h
    · next henough =>
      cases h
      rw [List.length_take, Array.length_toList, Nat.min_eq_left henough]
    · cases h
  · cases h

/-- As much output as is asked for, if that much is there at the end of a piece. -/
def enoughInPieces? (asked : Nat) (bytes : List UInt8) : Option (List UInt8) :=
  (List.range (bytes.length / pieceSize)).findSome? fun count =>
    enough? asked (bytes.take ((count + 1) * pieceSize))

theorem length_enoughInPieces? {asked : Nat} {bytes out : List UInt8}
    (h : enoughInPieces? asked bytes = some out) : out.length = asked := by
  obtain ⟨count, _, hcount⟩ := List.exists_of_findSome?_eq_some h
  exact length_enough? hcount

/-- The output of the stream at the front of some bytes, cut off behind the bytes asked for. -/
def inflate (asked : Nat) (bytes : List UInt8) : Result (List UInt8) :=
  match decode asked bytes with
  | .ok out => .ok (out.take asked)
  | .error (.full out) => .ok (out.toList.take asked)
  | .error (.truncated out) =>
    if asked ≤ out.size then .ok (out.toList.take asked) else .error .truncated
  | .error .corrupt =>
    match enoughInPieces? asked bytes with
    | some out => .ok out
    | none => .error .corrupt

/-- No more bytes come out than are asked for. -/
theorem length_inflate_le {asked : Nat} {bytes out : List UInt8}
    (h : inflate asked bytes = .ok out) : out.length ≤ asked := by
  unfold inflate at h
  split at h
  · cases h
    exact List.length_take_le _ _
  · cases h
    exact List.length_take_le _ _
  · split at h
    · cases h
      exact List.length_take_le _ _
    · cases h
  · split at h
    · next hout =>
      cases h
      exact Nat.le_of_eq (length_enoughInPieces? hout)
    · cases h

/-- The most bytes one stored block can hold. -/
def maxStored : Nat := 65535

/-- One stored block, the only one of its stream: its marks, the number of the bytes and its
complement, and the bytes. -/
def storedBlock (bytes : List UInt8) : List UInt8 :=
  1 :: (Payload.littleEndian 2 bytes.length ++ Payload.littleEndian 2 (maxStored - bytes.length)
    ++ bytes)

/-- A zlib stream that inflates to the given bytes. What one stored block can hold is stored as it
is; more is spelled out, which costs less than a mark on every piece. -/
def store (bytes : List UInt8) : List UInt8 :=
  [0x78, 0x01]
    ++ (if bytes.length ≤ maxStored then storedBlock bytes else Deflate.spelledBlock bytes)
    ++ adlerBytes bytes

end RealmDirectory.Zlib
