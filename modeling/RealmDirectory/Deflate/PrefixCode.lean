import RealmDirectory.Deflate.Bits
/-!
# Canonical prefix codes

A block of a compressed stream describes its code by the length of the code word of each symbol;
zero means that the symbol does not occur. The words are then fixed: words of one length are
consecutive numbers in the order of their symbols, and they follow the shorter words. A code is
complete if its words fill the whole space of bit sequences. A code without words and one with a
single word of a single bit are not, but may be used where nothing else is needed.

A code is kept as the two subtrees below its root, so that reading a symbol takes at least one bit.

## Main results

* `PrefixCode.size_decode` — reading a symbol leaves fewer bits.
-/

namespace RealmDirectory.Deflate

/-- Why reading stops before the end of a stream. -/
inductive Halt where
  /-- The bytes end first. -/
  | truncated
  /-- The bytes are not a compressed stream. -/
  | corrupt
  deriving DecidableEq, Repr

/-- A decision tree over bits with symbols at its leaves. -/
inductive CodeTree where
  | empty
  | leaf (symbol : Nat)
  | node (zero one : CodeTree)

namespace CodeTree

/-- Adds a code word; a word that runs through a shorter one is lost. -/
def insert (symbol : Nat) : List Bool → CodeTree → CodeTree
  | [], _ => leaf symbol
  | _ :: _, leaf s => leaf s
  | false :: word, node zero one => node (insert symbol word zero) one
  | true :: word, node zero one => node zero (insert symbol word one)
  | false :: word, empty => node (insert symbol word empty) empty
  | true :: word, empty => node empty (insert symbol word empty)

/-- Follows the bits of a reader down to a symbol. -/
def decode : CodeTree → BitReader → Except Halt (Nat × BitReader)
  | leaf symbol, r => .ok (symbol, r)
  | empty, _ => .error .corrupt
  | node zero one, r =>
    match r.next with
    | none => .error .truncated
    | some (bit, r) => if bit then one.decode r else zero.decode r

theorem size_decode {tree : CodeTree} {r r' : BitReader} {symbol : Nat}
    (h : tree.decode r = .ok (symbol, r')) : r'.size ≤ r.size := by
  induction tree generalizing r with
  | empty => cases h
  | leaf s => cases h; exact Nat.le_refl _
  | node zero one ihZero ihOne =>
    unfold decode at h
    split at h
    · cases h
    · next hnext =>
      have hsize := BitReader.size_next hnext
      split at h
      · have := ihOne h; omega
      · have := ihZero h; omega

end CodeTree

/-- A prefix code: the subtrees for a first bit of zero and of one. -/
structure PrefixCode where
  zero : CodeTree
  one : CodeTree

namespace PrefixCode

/-- The longest code word. -/
def maxLength : Nat := 15

/-- Adds a code word that has at least one bit. -/
def insert (symbol : Nat) (word : List Bool) (code : PrefixCode) : PrefixCode :=
  match word with
  | [] => code
  | false :: rest => { code with zero := code.zero.insert symbol rest }
  | true :: rest => { code with one := code.one.insert symbol rest }

/-- The `length` low bits of a number, most significant first. -/
def wordBits (length value : Nat) : List Bool :=
  (List.range length).reverse.map value.testBit

/-- The symbols whose code words have a given length, in ascending order. -/
def symbolsOfLength (lengths : List Nat) (length : Nat) : List Nat :=
  (lengths.zipIdx.filter (·.1 == length)).map (·.2)

/-- The code words from a given length up to `maxLength`, where `first` is the first word of that
length as a number. -/
def words (lengths : List Nat) (length first : Nat) : List (Nat × List Bool) :=
  if length ≤ maxLength then
    let symbols := symbolsOfLength lengths length
    symbols.mapIdx (fun i symbol => (symbol, wordBits length (first + i)))
      ++ words lengths (length + 1) (2 * (first + symbols.length))
  else []
  termination_by maxLength + 1 - length

/-- The part of the space of bit sequences that the words leave free, in units of the longest
words; negative if the words overlap. -/
def freeSpace (lengths : List Nat) : Int :=
  lengths.foldl (fun free length =>
    if length = 0 then free else free - Nat.pow 2 (maxLength - length)) (Nat.pow 2 maxLength)

/-- The code given by the lengths of its words. -/
def ofLengths (lengths : List Nat) : PrefixCode :=
  (words lengths 1 0).foldl (fun code (symbol, word) => code.insert symbol word) ⟨.empty, .empty⟩

/-- The code given by the lengths of its words, if it is complete. -/
def complete? (lengths : List Nat) : Option PrefixCode :=
  if freeSpace lengths = 0 then some (ofLengths lengths) else none

/-- The code given by the lengths of its words, if it is complete or its words have at most one bit
between them. -/
def usable? (lengths : List Nat) : Option PrefixCode :=
  if lengths.foldl (· + ·) 0 ≤ 1 then some (ofLengths lengths) else complete? lengths

/-- Reads one symbol. -/
def decode (code : PrefixCode) (r : BitReader) : Except Halt (Nat × BitReader) :=
  match r.next with
  | none => .error .truncated
  | some (bit, r) => if bit then code.one.decode r else code.zero.decode r

/-- A symbol takes at least one bit. -/
theorem size_decode {code : PrefixCode} {r r' : BitReader} {symbol : Nat}
    (h : code.decode r = .ok (symbol, r')) : r'.size < r.size := by
  unfold decode at h
  split at h
  · cases h
  · next hnext =>
    have hsize := BitReader.size_next hnext
    split at h
    · have := CodeTree.size_decode h; omega
    · have := CodeTree.size_decode h; omega

end PrefixCode

end RealmDirectory.Deflate
