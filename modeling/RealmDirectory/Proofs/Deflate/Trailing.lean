import RealmDirectory.Proofs.Deflate.Stream

/-!
# Bytes behind a stream

A stream ends where its checksum ends. No part of the inflater looks at bytes it does not need:
whatever it reads from some bytes it reads from these with others behind them, and leaves the
others behind what it leaves. So bytes that begin with a stream still do when more are appended.

## Main results

* `Zlib.IsStream.append` — appended bytes do not change what a stream holds.
-/

namespace RealmDirectory

namespace Deflate

open BitReader (ofBytes)

/-- A reader with more bytes behind those it has. -/
def BitReader.extend (r : BitReader) (tail : List UInt8) : BitReader :=
  { r with bytes := r.bytes ++ tail }

private theorem extend_ofBytes (bytes tail : List UInt8) :
    (ofBytes bytes).extend tail = ofBytes (bytes ++ tail) := rfl

private theorem bytes_align_extend (r : BitReader) (tail : List UInt8) :
    (r.extend tail).align.bytes = r.align.bytes ++ tail := rfl

/-! ## Reading -/

section Reading

variable {r r' : BitReader} (tail : List UInt8)

/-- The next bit is the same with more bytes behind it. -/
theorem next_extend {bit : Bool} (h : r.next = some (bit, r')) :
    (r.extend tail).next = some (bit, r'.extend tail) := by
  unfold BitReader.next at h
  split at h <;> cases h <;> rfl

private theorem number_extend {count n : Nat} (h : r.number count = some (n, r')) :
    (r.extend tail).number count = some (n, r'.extend tail) := by
  induction count generalizing n r with
  | zero => cases h; rfl
  | succ count ih =>
    unfold BitReader.number at h
    split at h
    · cases h
    · next hnext =>
      split at h
      · cases h
      · next hrest =>
        cases h
        rw [BitReader.number, next_extend tail hnext]
        dsimp only
        rw [ih hrest]

private theorem numberOr_extend {count n : Nat} (h : numberOr count r = .ok (n, r')) :
    numberOr count (r.extend tail) = .ok (n, r'.extend tail) :=
  numberOr_eq_ok_iff.mpr (number_extend tail (numberOr_eq_ok_iff.mp h))

private theorem treeDecode_extend {tree : CodeTree} {symbol : Nat}
    (h : tree.decode r = .ok (symbol, r')) :
    tree.decode (r.extend tail) = .ok (symbol, r'.extend tail) := by
  induction tree generalizing r with
  | empty => cases h
  | leaf s => cases h; rfl
  | node zero one ihZero ihOne =>
    unfold CodeTree.decode at h
    split at h
    · cases h
    · next hnext =>
      rw [CodeTree.decode, next_extend tail hnext]
      dsimp only
      split at h
      · next hbit => rw [if_pos hbit, ihOne h]
      · next hbit => rw [if_neg hbit, ihZero h]

private theorem codeDecode_extend {code : PrefixCode} {symbol : Nat}
    (h : code.decode r = .ok (symbol, r')) :
    code.decode (r.extend tail) = .ok (symbol, r'.extend tail) := by
  unfold PrefixCode.decode at h
  split at h
  · cases h
  · next hnext =>
    rw [PrefixCode.decode, next_extend tail hnext]
    dsimp only
    split at h
    · next hbit => rw [if_pos hbit, treeDecode_extend tail h]
    · next hbit => rw [if_neg hbit, treeDecode_extend tail h]

private theorem tableValue_extend {table : Array (Nat × Nat)} {index n : Nat}
    (h : tableValue table index r = .ok (n, r')) :
    tableValue table index (r.extend tail) = .ok (n, r'.extend tail) := by
  unfold tableValue at h ⊢
  split at h
  · cases h
  · split at h
    · cases h
    · next hread =>
      cases h
      rw [numberOr_extend tail hread]

/-- A token is read the same way with more bytes behind it. -/
theorem readToken_extend {literals distances : PrefixCode} {token : Token}
    (h : readToken literals distances r = .ok (token, r')) :
    readToken literals distances (r.extend tail) = .ok (token, r'.extend tail) := by
  unfold readToken at h ⊢
  split at h
  · cases h
  · next hsymbol =>
    rw [codeDecode_extend tail hsymbol]
    dsimp only
    split at h
    · next hliteral =>
      cases h
      rw [if_pos hliteral]
    · next hliteral =>
      rw [if_neg hliteral]
      split at h
      · next hend =>
        cases h
        rw [if_pos hend]
      · next hend =>
        rw [if_neg hend]
        split at h
        · cases h
        · next hlength =>
          rw [tableValue_extend tail hlength]
          dsimp only
          split at h
          · cases h
          · next hdistance =>
            rw [codeDecode_extend tail hdistance]
            dsimp only
            split at h
            · cases h
            · next hvalue =>
              cases h
              rw [tableValue_extend tail hvalue]

private theorem readLengths_extend {count : Nat} {lengths : List Nat}
    (h : readLengths count r = .ok (lengths, r')) :
    readLengths count (r.extend tail) = .ok (lengths, r'.extend tail) := by
  induction count generalizing lengths r with
  | zero => cases h; rfl
  | succ count ih =>
    unfold readLengths at h
    split at h
    · cases h
    · next hn =>
      split at h
      · cases h
      · next hrest =>
        cases h
        rw [readLengths, numberOr_extend tail hn]
        dsimp only
        rw [ih hrest]

/-- A symbol that is a length is the latest one known. -/
theorem describedLengths_symbol {code : PrefixCode} {total symbol : Nat} {known : List Nat}
    {r r₁ : BitReader} (hmany : ¬ total < known.length) (htotal : ¬ known.length = total)
    (hsymbol : code.decode r = .ok (symbol, r₁)) (hlength : symbol < 16) :
    describedLengths code total known r = describedLengths code total (symbol :: known) r₁ := by
  rw [describedLengths, if_neg hmany, if_neg htotal]
  split
  · next hread =>
    rw [hsymbol] at hread
    cases hread
  · next hread =>
    rw [hsymbol] at hread
    cases hread
    exact if_pos hlength

/-- A symbol that stands for a run of lengths is followed by the extra bits of the run. -/
theorem describedLengths_run {code : PrefixCode} {total symbol n : Nat} {run : Nat × Nat}
    {known : List Nat} {r r₁ r₂ : BitReader} (hmany : ¬ total < known.length)
    (htotal : ¬ known.length = total) (hsymbol : code.decode r = .ok (symbol, r₁))
    (hlength : ¬ symbol < 16) (hlatest : ¬ (symbol = 16 ∧ known = []))
    (hrun : (if symbol = 16 then (2, 3) else if symbol = 17 then (3, 3) else (7, 11)) = run)
    (hn : numberOr run.1 r₁ = .ok (n, r₂)) :
    describedLengths code total known r = describedLengths code total
      (List.replicate (run.2 + n) (if symbol = 16 then known.headD 0 else 0) ++ known) r₂ := by
  cases hrun
  rw [describedLengths, if_neg hmany, if_neg htotal]
  split
  · next hread =>
    rw [hsymbol] at hread
    cases hread
  · next hread =>
    rw [hsymbol] at hread
    cases hread
    rw [if_neg hlength, if_neg hlatest]
    dsimp only
    split
    · next hextra =>
      rw [hn] at hextra
      cases hextra
    · next hextra =>
      rw [hn] at hextra
      cases hextra
      rfl

private theorem describedLengths_extend {code : PrefixCode} {total : Nat} {known lengths : List Nat}
    (h : describedLengths code total known r = .ok (lengths, r')) :
    describedLengths code total known (r.extend tail) = .ok (lengths, r'.extend tail) := by
  fun_induction describedLengths code total known r with
  | case1 => cases h
  | case2 known r hmany htotal =>
    cases h
    rw [describedLengths, if_neg hmany, if_pos htotal]
  | case3 => cases h
  | case4 known r hmany htotal symbol r₁ hsymbol hlength ih =>
    rw [describedLengths_symbol hmany htotal (codeDecode_extend tail hsymbol) hlength]
    exact ih h
  | case5 => cases h
  | case6 => cases h
  | case7 known r hmany htotal symbol r₁ hsymbol hlength hlatest extra base hrun n r₂ hn _ ih =>
    rw [describedLengths_run hmany htotal (codeDecode_extend tail hsymbol) hlength hlatest hrun
      (numberOr_extend tail hn)]
    exact ih h

/-- A description of the codes ends by itself, whatever comes behind it. -/
theorem describedCodes_extend {literals distances : PrefixCode}
    (h : describedCodes r = .ok (literals, distances, r')) :
    describedCodes (r.extend tail) = .ok (literals, distances, r'.extend tail) := by
  unfold describedCodes at h ⊢
  split at h
  · cases h
  · next h1 =>
    rw [numberOr_extend tail h1]
    dsimp only
    split at h
    · cases h
    · next h2 =>
      rw [numberOr_extend tail h2]
      dsimp only
      split at h
      · cases h
      · next h3 =>
        rw [numberOr_extend tail h3]
        dsimp only
        split at h
        · cases h
        · next hcounts =>
          rw [if_neg hcounts]
          split at h
          · cases h
          · next h4 =>
            rw [readLengths_extend tail h4]
            dsimp only
            split at h
            · cases h
            · split at h
              · cases h
              · next h5 =>
                rw [describedLengths_extend tail h5]
                dsimp only at h ⊢
                split at h
                · cases h; rfl
                · cases h

private theorem blockCodes_extend {kind : Nat} {literals distances : PrefixCode}
    (h : blockCodes kind r = .ok (literals, distances, r')) :
    blockCodes kind (r.extend tail) = .ok (literals, distances, r'.extend tail) := by
  unfold blockCodes at h ⊢
  split at h
  · cases h; rfl
  · exact describedCodes_extend tail h
  · cases h

end Reading

/-! ## What a stream holds -/

section Holds

variable {r r' : BitReader} {out out' : Array UInt8}

/-- A coded block ends with its own symbol, whatever comes behind it. -/
theorem TokensHold.extend {literals distances : PrefixCode} (tail : List UInt8)
    (h : TokensHold literals distances r out r' out') :
    TokensHold literals distances (r.extend tail) out (r'.extend tail) out' := by
  induction h with
  | endOfBlock token => exact .endOfBlock (readToken_extend tail token)
  | literal token _ ih => exact .literal (readToken_extend tail token) ih
  | backReference token _ ih => exact .backReference (readToken_extend tail token) ih

private theorem BodyHolds.extend {kind : Nat} (tail : List UInt8)
    (h : BodyHolds kind r out r' out') :
    BodyHolds kind (r.extend tail) out (r'.extend tail) out' := by
  cases h with
  | stored fits bytes =>
    rw [extend_ofBytes]
    refine .stored fits ?_
    rw [bytes_align_extend, bytes, List.append_assoc, List.append_assoc, List.append_assoc]
  | coded notStored codes tokens =>
    exact .coded notStored (blockCodes_extend tail codes) (tokens.extend tail)

/-- The last block ends the stream, whatever comes behind it. -/
theorem BlocksHold.extend (tail : List UInt8) (h : BlocksHold r out r' out') :
    BlocksHold (r.extend tail) out (r'.extend tail) out' := by
  induction h with
  | last marks body => exact .last (number_extend tail marks) (body.extend tail)
  | more marks body _ ih => exact .more (number_extend tail marks) (body.extend tail) ih

end Holds

end Deflate

/-! ## Streams -/

namespace Zlib

/-- Appended bytes do not change what a stream holds. -/
theorem IsStream.append {bytes raw : List UInt8} (h : IsStream bytes raw) (tail : List UInt8) :
    IsStream (bytes ++ tail) raw := by
  obtain @⟨method, flags, body, rest, r, out, header, blocks, checksum⟩ := h
  have hchecksum : (r.extend tail).align.bytes = adlerBytes out.toList ++ (rest ++ tail) := by
    rw [Deflate.bytes_align_extend, checksum, List.append_assoc]
  exact .intro header (blocks.extend tail) hchecksum

end Zlib

end RealmDirectory
