/-!
# Bits of a byte sequence

A compressed stream is read bit by bit, each byte from its least significant bit upwards. A
`BitReader` holds the bits of the current byte that were not read yet and the whole bytes after
it; `BitReader.size` counts the bits that are left, and every read makes it smaller.

## Main results

* `BitReader.size_next` — taking a bit leaves one bit fewer.
-/

namespace RealmDirectory.Deflate

/-- The bits of a byte, least significant first. -/
def bitsOfByte (b : UInt8) : List Bool := (List.range 8).map b.toNat.testBit

/-- A position in a byte sequence, counted in bits. -/
structure BitReader where
  /-- What is left of the current byte. -/
  pending : List Bool
  /-- The bytes after the current one. -/
  bytes : List UInt8

namespace BitReader

/-- The start of a byte sequence. -/
def ofBytes (bytes : List UInt8) : BitReader := ⟨[], bytes⟩

/-- How many bits are left. -/
def size (r : BitReader) : Nat := r.pending.length + 8 * r.bytes.length

/-- The next bit. -/
def next : BitReader → Option (Bool × BitReader)
  | ⟨bit :: pending, bytes⟩ => some (bit, ⟨pending, bytes⟩)
  | ⟨[], b :: bytes⟩ => some (b.toNat.testBit 0, ⟨(bitsOfByte b).tail, bytes⟩)
  | ⟨[], []⟩ => none

/-- Taking a bit leaves one bit fewer. -/
theorem size_next {r r' : BitReader} {bit : Bool} (h : r.next = some (bit, r')) :
    r'.size + 1 = r.size := by
  unfold next at h
  split at h
  · cases h; simp [size]; omega
  · cases h; simp [size, bitsOfByte]; omega
  · cases h

/-- Drops what is left of the current byte. -/
def align (r : BitReader) : BitReader := ⟨[], r.bytes⟩

theorem size_align_le (r : BitReader) : r.align.size ≤ r.size := by
  simp [align, size]

/-- The number formed by the next `count` bits, the first of them the least significant. -/
def number : Nat → BitReader → Option (Nat × BitReader)
  | 0, r => some (0, r)
  | count + 1, r =>
    match r.next with
    | none => none
    | some (bit, r) =>
      match number count r with
      | none => none
      | some (n, r) => some (bit.toNat + 2 * n, r)

theorem size_number {count n : Nat} {r r' : BitReader} (h : number count r = some (n, r')) :
    r'.size + count = r.size := by
  induction count generalizing n r with
  | zero => cases h; rfl
  | succ count ih =>
    unfold number at h
    split at h
    · cases h
    · next hnext =>
      split at h
      · cases h
      · next hrest =>
        cases h
        have := size_next hnext
        have := ih hrest
        omega

end BitReader

end RealmDirectory.Deflate
