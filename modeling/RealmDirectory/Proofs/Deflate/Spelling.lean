import RealmDirectory.Proofs.Deflate.Trailing

/-!
# What is written can be read

A stream is written as one block, stored or spelled out, and either is read back. For the block
that is spelled out this goes by the bits: `Spells` says that a reader gives some bits one after
another, the packed bits are given by the bytes they were packed into, and a code word that is
given leads the decoder to its symbol. The code that the header describes and the places of its
words are found by evaluation.

No stream is much longer than what it holds. Of a block that is spelled out, only the bytes 255
take more than eight bits, so that every eighth of them costs a byte.

## Main results

* `Deflate.spells_bytesOfBits` — packed bits are given in their order.
* `Zlib.isStream_store` — what is written is a stream of the bytes it was written from.
* `Zlib.length_store_le` — how much longer it is.
-/

namespace RealmDirectory

namespace Deflate

open BitReader (ofBytes)

/-- Some bits are the next that a reader gives, and what is left behind them. -/
inductive Spells : BitReader → List Bool → BitReader → Prop where
  | nil (r : BitReader) : Spells r [] r
  | cons {r r₁ r' : BitReader} {bit : Bool} {bits : List Bool} (first : r.next = some (bit, r₁))
      (rest : Spells r₁ bits r') : Spells r (bit :: bits) r'

theorem Spells.append {r r₁ r' : BitReader} {left right : List Bool} (h : Spells r left r₁)
    (hright : Spells r₁ right r') : Spells r (left ++ right) r' := by
  induction h with
  | nil => exact hright
  | cons first _ ih => exact .cons first (ih hright)

theorem Spells.split {r r' : BitReader} {left right : List Bool}
    (h : Spells r (left ++ right) r') : ∃ r₁, Spells r left r₁ ∧ Spells r₁ right r' := by
  induction left generalizing r with
  | nil => exact ⟨r, .nil r, h⟩
  | cons bit left ih =>
    cases h with
    | cons first rest =>
      obtain ⟨r₁, hleft, hright⟩ := ih rest
      exact ⟨r₁, .cons first hleft, hright⟩

/-! ## Packed bits -/

private theorem numberOfBits_lt (bits : List Bool) : numberOfBits bits < Nat.pow 2 bits.length := by
  induction bits with
  | nil => decide
  | cons bit bits ih =>
    have hbit : bit.toNat ≤ 1 := bit.toNat_le
    have hdouble : Nat.pow 2 (bits.length + 1) = Nat.pow 2 bits.length * 2 := rfl
    rw [numberOfBits, List.length_cons, hdouble]
    omega

private theorem testBit_numberOfBits (bits : List Bool) (i : Nat) :
    (numberOfBits bits).testBit i = bits[i]?.getD false := by
  induction bits generalizing i with
  | nil => exact Nat.zero_testBit i
  | cons bit bits ih =>
    rw [numberOfBits]
    cases i with
    | zero => cases bit <;> simp [Nat.testBit_zero, Nat.add_mod]
    | succ i =>
      have hhalf : (bit.toNat + 2 * numberOfBits bits) / 2 = numberOfBits bits := by
        have hbit : bit.toNat ≤ 1 := bit.toNat_le
        omega
      rw [Nat.testBit_succ, hhalf, ih, List.getElem?_cons_succ]

/-- A byte has the bits it is packed from, and zeros behind them. -/
theorem bitsOfByte_ofNat_numberOfBits {bits : List Bool} (h : bits.length ≤ 8) :
    bitsOfByte (UInt8.ofNat (numberOfBits bits)) =
      bits ++ List.replicate (8 - bits.length) false := by
  have hfits : numberOfBits bits < 256 :=
    Nat.lt_of_lt_of_le (numberOfBits_lt bits) (Nat.pow_le_pow_right (by decide) h)
  have hnumber : (UInt8.ofNat (numberOfBits bits)).toNat = numberOfBits bits := by
    rw [UInt8.toNat_ofNat', Nat.mod_eq_of_lt hfits]
  unfold bitsOfByte
  rw [hnumber]
  apply List.ext_getElem
  · simp only [List.length_map, List.length_range, List.length_append, List.length_replicate]
    omega
  · intro i _ _
    rw [List.getElem_map, List.getElem_range, testBit_numberOfBits]
    by_cases hbit : i < bits.length
    · rw [List.getElem_append_left hbit, List.getElem?_eq_getElem hbit, Option.getD_some]
    · have hpast : bits.length ≤ i := Nat.le_of_not_lt hbit
      rw [List.getElem_append_right hpast, List.getElem_replicate, List.getElem?_eq_none hpast,
        Option.getD_none]

/-- What is packed already stays in front. -/
theorem toList_packBits (bits : List Bool) (packed : Array UInt8) :
    (packBits bits packed).toList = packed.toList ++ bytesOfBits bits := by
  unfold bytesOfBits
  cases bits with
  | nil => rw [packBits, packBits, Array.toList_empty, List.append_nil]
  | cons bit bits =>
    rw [packBits, packBits, toList_packBits (bits.drop 7), toList_packBits (bits.drop 7),
      Array.toList_push, Array.toList_push, Array.toList_empty, List.nil_append, List.append_assoc]
  termination_by bits.length
  decreasing_by all_goals simp only [List.length_drop, List.length_cons]; omega

private theorem bytesOfBits_nil : bytesOfBits [] = [] := by
  rw [bytesOfBits, packBits, Array.toList_empty]

private theorem bytesOfBits_cons (bit : Bool) (bits : List Bool) : bytesOfBits (bit :: bits) =
    UInt8.ofNat (numberOfBits (bit :: bits.take 7)) :: bytesOfBits (bits.drop 7) := by
  rw [bytesOfBits, packBits, toList_packBits]
  rfl

/-- Every eight bits begun take a byte. -/
theorem length_bytesOfBits (bits : List Bool) :
    (bytesOfBits bits).length = (bits.length + 7) / 8 := by
  cases bits with
  | nil => rw [bytesOfBits_nil]; rfl
  | cons bit bits =>
    rw [bytesOfBits_cons, List.length_cons, length_bytesOfBits (bits.drop 7), List.length_drop,
      List.length_cons]
    omega
  termination_by bits.length
  decreasing_by simp only [List.length_drop, List.length_cons]; omega

private theorem spells_pending (bits rest : List Bool) (bytes : List UInt8) :
    Spells ⟨bits ++ rest, bytes⟩ bits ⟨rest, bytes⟩ := by
  induction bits with
  | nil => exact .nil _
  | cons bit bits ih => exact .cons rfl ih

/-- The bits of a byte, as far as they are asked for. -/
theorem spells_byte {b : UInt8} {bit : Bool} {bits rest : List Bool} (bytes : List UInt8)
    (h : bitsOfByte b = bit :: (bits ++ rest)) :
    Spells (ofBytes (b :: bytes)) (bit :: bits) ⟨rest, bytes⟩ := by
  have hfirst : b.toNat.testBit 0 :: (bitsOfByte b).tail = bitsOfByte b := rfl
  rw [h, List.tail_cons, List.cons.injEq] at hfirst
  refine .cons ?_ (spells_pending bits rest bytes)
  rw [ofBytes, BitReader.next, hfirst.1, h, List.tail_cons]

/-- Packed bits are given in their order, and whatever stands behind their bytes is left. -/
theorem spells_bytesOfBits (bits : List Bool) (tail : List UInt8) :
    ∃ padding, Spells (ofBytes (bytesOfBits bits ++ tail)) bits ⟨padding, tail⟩ := by
  cases bits with
  | nil => exact ⟨[], bytesOfBits_nil ▸ .nil _⟩
  | cons bit bits =>
    have hshort : (bit :: bits.take 7).length ≤ 8 := by
      rw [List.length_cons, List.length_take]
      omega
    have hbyte := bitsOfByte_ofNat_numberOfBits hshort
    rw [bytesOfBits_cons, List.cons_append]
    by_cases hlast : bits.length ≤ 7
    · rw [List.take_of_length_le hlast] at hbyte ⊢
      rw [List.drop_of_length_le hlast, bytesOfBits_nil]
      exact ⟨_, spells_byte tail hbyte⟩
    · have hfull : (bit :: bits.take 7).length = 8 := by
        rw [List.length_cons, List.length_take]
        omega
      rw [hfull, Nat.sub_self] at hbyte
      obtain ⟨padding, hrest⟩ := spells_bytesOfBits (bits.drop 7) tail
      have hall := (spells_byte (bytesOfBits (bits.drop 7) ++ tail) hbyte).append hrest
      rw [List.cons_append, List.take_append_drop] at hall
      exact ⟨padding, hall⟩
  termination_by bits.length
  decreasing_by simp only [List.length_drop, List.length_cons]; omega

/-! ## Numbers -/

private theorem bitsOfNumber_succ (count n : Nat) :
    bitsOfNumber (count + 1) n = n.testBit 0 :: bitsOfNumber count (n / 2) := by
  unfold bitsOfNumber
  rw [List.range_succ_eq_map, List.map_cons, List.map_map]
  congr 1
  apply List.map_congr_left
  intro i _
  exact Nat.testBit_succ n i

/-- A number is read from its bits. -/
theorem Spells.number {count n : Nat} {r r' : BitReader} (h : Spells r (bitsOfNumber count n) r')
    (hn : n < Nat.pow 2 count) : numberOr count r = .ok (n, r') := by
  apply numberOr_eq_ok_iff.mpr
  induction count generalizing n r with
  | zero =>
    obtain rfl : n = 0 := Nat.lt_one_iff.mp hn
    cases h
    rfl
  | succ count ih =>
    rw [bitsOfNumber_succ] at h
    cases h with
    | cons first rest =>
      have hhalf : (n.testBit 0).toNat + 2 * (n / 2) = n := by
        rw [Nat.testBit_zero]
        rcases Nat.mod_two_eq_zero_or_one n with hmod | hmod
        · simp only [hmod, Nat.zero_ne_one, decide_false, Bool.toNat_false]
          omega
        · simp only [hmod, decide_true, Bool.toNat_true]
          omega
      have hdouble : Nat.pow 2 (count + 1) = Nat.pow 2 count * 2 := rfl
      rw [BitReader.number, first]
      dsimp only
      rw [ih rest (by omega)]
      dsimp only
      rw [hhalf]

/-- Lengths of three bits each are read. -/
theorem Spells.readLengths {lengths : List Nat} {r r' : BitReader}
    (h : Spells r (lengths.flatMap (bitsOfNumber 3)) r') (hshort : ∀ n ∈ lengths, n < 8) :
    readLengths lengths.length r = .ok (lengths, r') := by
  induction lengths generalizing r with
  | nil =>
    cases h
    rfl
  | cons n lengths ih =>
    rw [List.flatMap_cons] at h
    obtain ⟨r₁, hfirst, hrest⟩ := h.split
    have hn := hshort n List.mem_cons_self
    rw [List.length_cons, Deflate.readLengths, hfirst.number hn]
    dsimp only
    rw [ih hrest fun m hm => hshort m (List.mem_cons_of_mem n hm)]

/-! ## Code words -/

/-- The symbol that a code word leads to. -/
def CodeTree.symbolAt? : CodeTree → List Bool → Option Nat
  | leaf symbol, [] => some symbol
  | node zero one, bit :: word => if bit then one.symbolAt? word else zero.symbolAt? word
  | _, _ => none

/-- The symbol of a code word. -/
def PrefixCode.symbolAt? (code : PrefixCode) : List Bool → Option Nat
  | [] => none
  | bit :: word => if bit then code.one.symbolAt? word else code.zero.symbolAt? word

private theorem Spells.treeDecode {tree : CodeTree} {word : List Bool} {symbol : Nat}
    {r r' : BitReader} (h : Spells r word r') (hsymbol : tree.symbolAt? word = some symbol) :
    tree.decode r = .ok (symbol, r') := by
  induction h generalizing tree with
  | nil r =>
    cases tree with
    | leaf s => cases hsymbol; rfl
    | empty => cases hsymbol
    | node zero one => cases hsymbol
  | @cons r r₁ r' bit word first _ ih =>
    cases tree with
    | leaf s => cases hsymbol
    | empty => cases hsymbol
    | node zero one =>
      rw [CodeTree.decode, first]
      cases bit with
      | true => exact ih hsymbol
      | false => exact ih hsymbol

/-- A code word that is given is read as its symbol. -/
theorem Spells.decode {code : PrefixCode} {word : List Bool} {symbol : Nat} {r r' : BitReader}
    (h : Spells r word r') (hsymbol : code.symbolAt? word = some symbol) :
    code.decode r = .ok (symbol, r') := by
  cases h with
  | nil => cases hsymbol
  | @cons _ r₁ _ bit word first rest =>
    rw [PrefixCode.decode, first]
    cases bit with
    | true => exact rest.treeDecode hsymbol
    | false => exact rest.treeDecode hsymbol

/-! ## The code of a block that is spelled out -/

/-- The code that the lengths are written in. -/
def writtenCode : PrefixCode :=
  PrefixCode.ofLengths ((List.range 19).map (describedLength listedLengths))

/-- Lengths that are written out, of which the latest is known first. -/
theorem Spells.describedLengths_words {total : Nat} {lengths known : List Nat}
    {r r' : BitReader} (h : Spells r (lengths.flatMap lengthWord) r')
    (hlengths : ∀ length ∈ lengths, length ∈ [0, 8, 9])
    (hroom : known.length + lengths.length ≤ total) :
    describedLengths writtenCode total known r =
      describedLengths writtenCode total (lengths.reverse ++ known) r' := by
  induction lengths generalizing known r with
  | nil =>
    cases h
    rfl
  | cons length lengths ih =>
    rw [List.flatMap_cons] at h
    obtain ⟨r₁, hfirst, hrest⟩ := h.split
    have hword : ∀ length ∈ [0, 8, 9], length < 16 ∧
        writtenCode.symbolAt? (lengthWord length) = some length := by
      decide +kernel
    obtain ⟨hlength, hsymbol⟩ := hword length (hlengths length List.mem_cons_self)
    rw [List.length_cons] at hroom
    have hgrown : (length :: known).length + lengths.length ≤ total := by
      rw [List.length_cons]
      omega
    rw [describedLengths_symbol (by omega) (by omega) (hfirst.decode hsymbol) hlength,
      ih hrest (fun n hn => hlengths n (List.mem_cons_of_mem length hn)) hgrown,
      List.reverse_cons, List.append_assoc]
    rfl

/-- A word for six lengths more. -/
theorem Spells.describedLengths_sixMore {total length : Nat} {known : List Nat}
    {r r' : BitReader} (h : Spells r sixMore r') (hroom : known.length < total)
    (hlatest : known.head? = some length) :
    describedLengths writtenCode total known r =
      describedLengths writtenCode total (List.replicate 6 length ++ known) r' := by
  obtain ⟨r₁, hword, hextra⟩ := h.split
  have hsymbol : writtenCode.symbolAt? (PrefixCode.wordBits 2 3) = some 16 := by decide +kernel
  have hhead : known.headD 0 = length := by
    rw [List.headD_eq_head?_getD, hlatest, Option.getD_some]
  have hknown : ¬ (16 = 16 ∧ known = []) := by
    rintro ⟨-, rfl⟩
    cases hlatest
  rw [describedLengths_run (by omega) (by omega) (hword.decode hsymbol) (by decide) hknown rfl
    (hextra.number (by decide)), if_pos rfl, hhead]
  rfl

/-- Six lengths more, as often as it is written. -/
theorem Spells.describedLengths_sixMores {total times length : Nat} {known : List Nat}
    {r r' : BitReader} (h : Spells r (List.replicate times sixMore).flatten r')
    (hroom : known.length + 6 * times ≤ total) (hlatest : known.head? = some length) :
    describedLengths writtenCode total known r =
      describedLengths writtenCode total (List.replicate (6 * times) length ++ known) r' := by
  induction times generalizing known r with
  | zero =>
    cases h
    rfl
  | succ times ih =>
    rw [List.replicate_succ, List.flatten_cons] at h
    obtain ⟨r₁, hfirst, hrest⟩ := h.split
    have hgrown : (List.replicate 6 length ++ known).length = known.length + 6 := by
      rw [List.length_append, List.length_replicate, Nat.add_comm]
    rw [hfirst.describedLengths_sixMore (by omega) hlatest, ih hrest (by omega) rfl,
      ← List.append_assoc, List.replicate_append_replicate, Nat.mul_succ]

/-- The lengths that are written are those of the code, and a zero. -/
theorem Spells.writtenLengths {r r' : BitReader} (h : Spells r writtenLengths r') :
    describedLengths writtenCode 258 [] r = .ok ((spelledLengths ++ [0]).reverse, r') := by
  obtain ⟨r₁, hfirst, h⟩ := h.split
  obtain ⟨r₂, hmore, hrest⟩ := h.split
  have hlast : [8, 8, 9, 9, 0].reverse ++ (List.replicate (6 * 42) 8 ++ [8].reverse) =
      (spelledLengths ++ [0]).reverse := by
    decide +kernel
  have hcount : (spelledLengths ++ [0]).reverse.length = 258 := by decide +kernel
  rw [hfirst.describedLengths_words (by decide) (by decide), List.append_nil,
    hmore.describedLengths_sixMores (by decide) rfl,
    hrest.describedLengths_words (by decide) (by decide +kernel), hlast, describedLengths,
    if_neg (by omega), if_pos hcount]

/-- The code that is described. -/
theorem Spells.describedCodes {r r' : BitReader} (h : Spells r spelledCode r') :
    describedCodes r =
      .ok (PrefixCode.ofLengths spelledLengths, PrefixCode.ofLengths [0], r') := by
  obtain ⟨r₁, hliterals, h⟩ := h.split
  obtain ⟨r₂, hdistances, h⟩ := h.split
  obtain ⟨r₃, hlisted, h⟩ := h.split
  obtain ⟨r₄, hlengths, hwritten⟩ := h.split
  have hseven : Deflate.readLengths (3 + 4) r₃ = .ok (listedLengths, r₄) :=
    hlengths.readLengths (by decide)
  have hcomplete : PrefixCode.complete? ((List.range 19).map (describedLength listedLengths)) =
      some writtenCode := if_pos (by decide +kernel)
  have hall : describedLengths writtenCode (0 + 257 + (0 + 1)) [] r₄ = _ :=
    hwritten.writtenLengths
  have hlength : spelledLengths.length = 0 + 257 := by
    rw [spelledLengths, List.length_append, List.length_replicate]
    rfl
  have husable : PrefixCode.usable? spelledLengths =
      some (PrefixCode.ofLengths spelledLengths) := by
    have hfree : PrefixCode.freeSpace spelledLengths = 0 := by decide +kernel
    have hmany : ¬ spelledLengths.foldl (· + ·) 0 ≤ 1 := by decide +kernel
    rw [PrefixCode.usable?, if_neg hmany, PrefixCode.complete?, if_pos hfree]
  unfold Deflate.describedCodes
  rw [hliterals.number (by decide)]
  dsimp only
  rw [hdistances.number (by decide)]
  dsimp only
  rw [hlisted.number (by decide)]
  dsimp only
  rw [if_neg (by decide), hseven]
  dsimp only
  rw [hcomplete]
  dsimp only
  rw [hall]
  dsimp only
  rw [List.reverse_reverse, List.take_left' hlength, List.drop_left' hlength, husable]
  rfl

/-- Every symbol of the code has its word. -/
theorem symbolAt_spelledWord {symbol : Nat} (h : symbol < 257) :
    (PrefixCode.ofLengths spelledLengths).symbolAt? (spelledWord symbol) = some symbol := by
  have hall : ∀ symbol < 257, (PrefixCode.ofLengths spelledLengths).symbolAt?
      (spelledWord symbol) = some symbol := by
    decide +kernel
  exact hall symbol h

private theorem length_spelledWord (symbol : Nat) :
    (spelledWord symbol).length = if symbol < 255 then 8 else 9 := by
  have hlength : ∀ length n, (PrefixCode.wordBits length n).length = length := by
    intro length n
    rw [PrefixCode.wordBits, List.length_map, List.length_reverse, List.length_range]
  unfold spelledWord
  split
  · exact hlength 8 symbol
  · exact hlength 9 (symbol + 255)

/-! ## The block -/

section Block

variable {distances : PrefixCode} {r r' : BitReader} {out : Array UInt8}

/-- The word of a byte is read as this byte. -/
theorem Spells.readToken_literal {b : UInt8} (h : Spells r (spelledWord b.toNat) r') :
    readToken (PrefixCode.ofLengths spelledLengths) distances r = .ok (.literal b, r') := by
  have hbyte : b.toNat < 256 := b.toNat_lt
  have hsymbol := h.decode (symbolAt_spelledWord (by omega))
  rw [readToken, hsymbol]
  dsimp only
  rw [if_pos hbyte, UInt8.ofNat_toNat]

private theorem Spells.readToken_endOfBlock (h : Spells r (spelledWord 256) r') :
    readToken (PrefixCode.ofLengths spelledLengths) distances r = .ok (.endOfBlock, r') := by
  have hsymbol := h.decode (symbolAt_spelledWord (by decide))
  rw [readToken, hsymbol]
  rfl

/-- Bytes that are spelled out are the literals of their block. -/
theorem Spells.tokensHold {bytes : List UInt8}
    (h : Spells r (bytes.flatMap (fun b => spelledWord b.toNat) ++ spelledWord 256) r') :
    TokensHold (PrefixCode.ofLengths spelledLengths) distances r out r'
      (out ++ bytes.toArray) := by
  induction bytes generalizing r out with
  | nil =>
    rw [Array.append_empty]
    exact .endOfBlock h.readToken_endOfBlock
  | cons b bytes ih =>
    rw [List.flatMap_cons, List.append_assoc] at h
    obtain ⟨r₁, hfirst, hrest⟩ := h.split
    rw [append_cons]
    exact .literal hfirst.readToken_literal (ih hrest)

/-- The only block of a stream, in which the bytes are spelled out. -/
theorem blocksHold_spelledBlock (bytes tail : List UInt8) : ∃ padding,
    BlocksHold (ofBytes (spelledBlock bytes ++ tail)) #[] ⟨padding, tail⟩ bytes.toArray := by
  obtain ⟨padding, hbits⟩ := spells_bytesOfBits
    (bitsOfNumber 3 5 ++ (spelledCode ++
      (bytes.flatMap (fun b => spelledWord b.toNat) ++ spelledWord 256))) tail
  obtain ⟨r₁, hmarks, hbits⟩ := hbits.split
  obtain ⟨r₂, hcode, hwords⟩ := hbits.split
  have hkind : BitReader.number 3 _ = some (2 * 2 + 1, r₁) :=
    numberOr_eq_ok_iff.mp (hmarks.number (by decide))
  have htokens : TokensHold _ (PrefixCode.ofLengths [0]) r₂ #[] _ (#[] ++ bytes.toArray) :=
    hwords.tokensHold
  rw [Array.empty_append] at htokens
  exact ⟨padding, .last hkind (.coded (by decide) hcode.describedCodes htokens)⟩

end Block

/-- Nine bits for the byte 255, eight for every other one. -/
theorem length_spelledWords (bytes : List UInt8) :
    (bytes.flatMap (fun b => spelledWord b.toNat)).length = 8 * bytes.length + bytes.count 255 := by
  induction bytes with
  | nil => rfl
  | cons b bytes ih =>
    rw [List.flatMap_cons, List.length_append, length_spelledWord, ih, List.length_cons]
    by_cases hlast : b = 255
    · rw [hlast, if_neg (by decide), List.count_cons_self]
      omega
    · have hle : b.toNat < 256 := b.toNat_lt
      have hne : b.toNat ≠ 255 := fun h => hlast (UInt8.toNat_inj.mp h)
      rw [if_pos (by omega), List.count_cons_of_ne hlast]
      omega

/-- The description of the code and the end of the block take thirty bytes at most. -/
theorem length_spelledBlock_le (bytes : List UInt8) :
    (spelledBlock bytes).length ≤ bytes.length + bytes.count 255 / 8 + 30 := by
  have hwords := length_spelledWords bytes
  have hcode : (bitsOfNumber 3 5).length + spelledCode.length = 218 := by decide +kernel
  have hend : (spelledWord 256).length = 9 := length_spelledWord 256
  rw [spelledBlock, length_bytesOfBits]
  simp only [List.length_append, hwords, hend]
  omega

end Deflate

/-! ## Streams -/

namespace Zlib

open Deflate (BitReader BlocksHold BodyHolds)

/-- A stored block gives back its bytes, and is the last one. -/
theorem blocksHold_storedBlock {bytes : List UInt8} (h : bytes.length ≤ maxStored)
    (tail : List UInt8) :
    BlocksHold (BitReader.ofBytes (storedBlock bytes ++ tail)) #[] (BitReader.ofBytes tail)
      bytes.toArray := by
  obtain ⟨sizes, hsizes⟩ : ∃ sizes, Payload.littleEndian 2 bytes.length ++
      (Payload.littleEndian 2 (maxStored - bytes.length) ++ (bytes ++ tail)) = sizes := ⟨_, rfl⟩
  have hblock : storedBlock bytes ++ tail = 1 :: sizes := by
    rw [storedBlock, List.cons_append, List.append_assoc, List.append_assoc, hsizes]
  -- the other bits of the byte of the marks are not used
  have hmarks : BitReader.number 3 (BitReader.ofBytes (1 :: sizes)) =
      some (2 * 0 + 1, ⟨List.replicate 5 false, sizes⟩) := rfl
  have hbody : BodyHolds 0 ⟨List.replicate 5 false, sizes⟩ #[] (BitReader.ofBytes tail)
      (#[] ++ bytes.toArray) := .stored h hsizes.symm
  rw [Array.empty_append] at hbody
  rw [hblock]
  exact .last hmarks hbody

/-- What is written is a stream of the bytes it was written from. -/
theorem isStream_store (raw : List UInt8) : IsStream (store raw) raw := by
  have hheader : headerValid 0x78 0x01 = true := by decide
  obtain ⟨padding, hblocks⟩ : ∃ padding, BlocksHold (BitReader.ofBytes
      ((if raw.length ≤ maxStored then storedBlock raw else Deflate.spelledBlock raw) ++
        adlerBytes raw)) #[] ⟨padding, adlerBytes raw⟩ raw.toArray := by
    split
    · next hfits => exact ⟨[], blocksHold_storedBlock hfits _⟩
    · exact Deflate.blocksHold_spelledBlock raw _
  have hchecksum : BitReader.bytes (BitReader.align ⟨padding, adlerBytes raw⟩) =
      adlerBytes raw.toArray.toList ++ [] := (List.append_nil _).symm
  exact .intro hheader hblocks hchecksum

/-- A stream is hardly longer than what it holds. -/
theorem length_store_le (raw : List UInt8) :
    (store raw).length ≤ raw.length + raw.count 255 / 8 + 36 := by
  have hspelled := Deflate.length_spelledBlock_le raw
  unfold store
  split
  · simp only [storedBlock, adlerBytes, List.length_append, List.length_cons, List.length_nil,
      Payload.length_littleEndian]
    omega
  · simp only [adlerBytes, List.length_append, List.length_cons, List.length_nil]
    omega

end Zlib

end RealmDirectory
