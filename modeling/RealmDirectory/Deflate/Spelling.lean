import RealmDirectory.Deflate.PrefixCode
/-!
# Spelling bytes out

A coded block need not repeat anything: every byte can be spelled out by its code word. With all
words about equally long such a block is hardly longer than its bytes, however many they are. The
code used here gives eight bits to every byte but 255; that one and the end of the block share the
last word of eight bits and have nine.

Numbers are written from their least significant bit on, code words from their most significant.
-/

namespace RealmDirectory.Deflate

open PrefixCode (wordBits)

/-! ## Bits -/

/-- The low bits of a number, least significant first. -/
def bitsOfNumber (count n : Nat) : List Bool := (List.range count).map n.testBit

/-- The number that is written with some bits. -/
def numberOfBits : List Bool → Nat
  | [] => 0
  | bit :: bits => bit.toNat + 2 * numberOfBits bits

/-- Packs bits into bytes behind those that are packed already. -/
def packBits : List Bool → Array UInt8 → Array UInt8
  | [], packed => packed
  | bit :: bits, packed =>
    packBits (bits.drop 7) (packed.push (UInt8.ofNat (numberOfBits (bit :: bits.take 7))))
  termination_by bits => bits.length
  decreasing_by
    rw [List.length_drop, List.length_cons]
    omega

/-- Packs bits into bytes; the last byte is filled up with zeros. -/
def bytesOfBits (bits : List Bool) : List UInt8 := (packBits bits #[]).toList

/-! ## The block -/

/-- The lengths of the code words. -/
def spelledLengths : List Nat := List.replicate 255 8 ++ [9, 9]

/-- The code word of a byte, or of the end of the block. -/
def spelledWord (symbol : Nat) : List Bool :=
  if symbol < 255 then wordBits 8 symbol else wordBits 9 (symbol + 255)

/-- The lengths of the words that the lengths are written in, as far as they are listed. -/
def listedLengths : List Nat := [2, 0, 0, 2, 2, 0, 2]

/-- The word in which a length is written, of those that occur: 0, 8 and 9. -/
def lengthWord (length : Nat) : List Bool := wordBits 2 (length - 7)

/-- Six lengths more like the latest one. -/
def sixMore : List Bool := wordBits 2 3 ++ bitsOfNumber 2 3

/-- The lengths of the code words, and the length zero of the only distance. -/
def writtenLengths : List Bool :=
  [8].flatMap lengthWord ++
    ((List.replicate 42 sixMore).flatten ++ [8, 8, 9, 9, 0].flatMap lengthWord)

/-- Describes the code: by how many more than the fewest there are of literals, distances and
listed lengths, and then by the lengths. -/
def spelledCode : List Bool :=
  bitsOfNumber 5 0 ++ (bitsOfNumber 5 0 ++ (bitsOfNumber 4 3
    ++ (listedLengths.flatMap (bitsOfNumber 3) ++ writtenLengths)))

/-- The only block of a stream, in which all bytes are spelled out. -/
def spelledBlock (bytes : List UInt8) : List UInt8 :=
  bytesOfBits (bitsOfNumber 3 5 ++ (spelledCode
    ++ (bytes.flatMap (fun b => spelledWord b.toNat) ++ spelledWord 256)))

end RealmDirectory.Deflate
