/-!
# Little-endian words

Every multi-byte number on the wire is little-endian: the least significant byte comes first. A
word of `width` bytes is written by `littleEndian width n`, which keeps `n` modulo `256 ^ width`,
and read back by `ofLittleEndian`.

Both directions recurse on the bytes, so a word is its low byte followed by the word of the
remaining value; nothing here depends on a fixed width.

## Main results

* `length_littleEndian` — a word of width `w` occupies exactly `w` bytes.
* `ofLittleEndian_littleEndian` — reading a written word returns the value modulo `256 ^ w`.
* `littleEndian_ofLittleEndian` — writing back what was read returns the same bytes.
-/

namespace RealmDirectory.Payload

/-- The `width` low bytes of `n`, least significant first. -/
def littleEndian : Nat → Nat → List UInt8
  | 0, _ => []
  | width + 1, n => UInt8.ofNat n :: littleEndian width (n / 256)

/-- The number whose bytes, least significant first, are given. -/
def ofLittleEndian : List UInt8 → Nat
  | [] => 0
  | b :: rest => b.toNat + 256 * ofLittleEndian rest

/-- A number is written in as many bytes as asked for. -/
@[simp] theorem length_littleEndian (width n : Nat) : (littleEndian width n).length = width := by
  induction width generalizing n with
  | zero => rfl
  | succ width ih => simp [littleEndian, ih]

theorem ofLittleEndian_lt (bytes : List UInt8) :
    ofLittleEndian bytes < Nat.pow 256 bytes.length := by
  induction bytes with
  | nil => exact Nat.zero_lt_one
  | cons b rest ih =>
    have hb := b.toNat_lt
    have factor : Nat.pow 256 (rest.length + 1) = Nat.pow 256 rest.length * 256 := rfl
    rw [ofLittleEndian, List.length_cons, factor]
    omega

/-- A number is read back as far as its bytes hold it. -/
theorem ofLittleEndian_littleEndian (width n : Nat) :
    ofLittleEndian (littleEndian width n) = n % Nat.pow 256 width := by
  induction width generalizing n with
  | zero => exact (Nat.mod_one n).symm
  | succ width ih =>
    simp only [littleEndian, ofLittleEndian, ih, UInt8.toNat_ofNat']
    have factor : Nat.pow 256 (width + 1) = 256 * Nat.pow 256 width := Nat.pow_succ'
    rw [factor, Nat.mod_mul]

/-- Bytes are what the number that is read from them is written as. -/
theorem littleEndian_ofLittleEndian (bytes : List UInt8) :
    littleEndian bytes.length (ofLittleEndian bytes) = bytes := by
  induction bytes with
  | nil => rfl
  | cons b rest ih =>
    have hb := b.toNat_lt
    have hdiv : (b.toNat + 256 * ofLittleEndian rest) / 256 = ofLittleEndian rest := by omega
    have hlow : UInt8.ofNat (b.toNat + 256 * ofLittleEndian rest) = b := by
      apply UInt8.toNat_inj.mp
      rw [UInt8.toNat_ofNat']
      omega
    simp only [List.length_cons, ofLittleEndian, littleEndian, hdiv, hlow, ih]

/-- The four bytes of a 32-bit word. -/
def word32 (w : UInt32) : List UInt8 := littleEndian 4 w.toNat

/-- The 32-bit word of four bytes. -/
def ofWord32 (bytes : List UInt8) : UInt32 := UInt32.ofNat (ofLittleEndian bytes)

@[simp] theorem length_word32 (w : UInt32) : (word32 w).length = 4 := length_littleEndian 4 _

@[simp] theorem ofWord32_word32 (w : UInt32) : ofWord32 (word32 w) = w := by
  apply UInt32.toNat_inj.mp
  have hw := w.toNat_lt
  rw [ofWord32, word32, ofLittleEndian_littleEndian, UInt32.toNat_ofNat']
  show w.toNat % 4294967296 % 4294967296 = w.toNat
  omega

theorem word32_ofWord32 {bytes : List UInt8} (h : bytes.length = 4) :
    word32 (ofWord32 bytes) = bytes := by
  have hlt := ofLittleEndian_lt bytes
  rw [h] at hlt
  rw [word32, ofWord32, UInt32.toNat_ofNat', Nat.mod_eq_of_lt hlt]
  have := littleEndian_ofLittleEndian bytes
  rwa [h] at this

end RealmDirectory.Payload
