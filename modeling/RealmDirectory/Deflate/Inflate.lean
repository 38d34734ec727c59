import RealmDirectory.Deflate.PrefixCode
/-!
# Inflating a compressed stream

A compressed stream is a sequence of blocks, the last of which is marked. A block is stored (its
bytes follow as they are) or coded: then it is a sequence of literal bytes and of matches, which
repeat earlier output, ended by its own symbol. The code is the fixed one or is described at the
start of the block.

A match may reach back `windowSize` bytes. What lies before the first byte of the output counts as
zeros, so that a match may begin there.

The output is produced in windows. Whoever inflates says how many bytes are asked for, and before
the first byte of a new window the decoder stops with `Stop.full` if there are as many. Whatever
goes wrong before that byte counts, even if all bytes asked for are there.

Every loop reads at least one bit per turn, so the bits left bound the number of turns.
-/

namespace RealmDirectory.Deflate

open BitReader (ofBytes)

/-- What reading gives, or why it halts. -/
abbrev Result (α : Type) := Except Halt α

/-- Why inflating stops before the end of a stream. -/
inductive Stop where
  /-- The bytes end first; this much was put out. -/
  | truncated (output : Array UInt8)
  /-- The bytes are not a compressed stream. -/
  | corrupt
  /-- As many bytes as were asked for were put out. -/
  | full (output : Array UInt8)

/-- What inflating gives, or why it stops. -/
abbrev Progress (α : Type) := Except Stop α

/-- Stops after some output because reading halts. -/
def Halt.stop (output : Array UInt8) : Halt → Stop
  | truncated => .truncated output
  | corrupt => .corrupt

/-- A number of bits that has to be there. -/
def numberOr (count : Nat) (r : BitReader) : Result (Nat × BitReader) :=
  match r.number count with
  | none => .error .truncated
  | some read => .ok read

theorem size_numberOr {count n : Nat} {r r' : BitReader} (h : numberOr count r = .ok (n, r')) :
    r'.size + count = r.size := by
  unfold numberOr at h
  split at h
  · cases h
  · next hread => cases h; exact BitReader.size_number hread

/-! ## Output -/

/-- How far back a match may reach. -/
def windowSize : Nat := 32768

/-- Adds a byte of output, unless it would begin a new window and as many bytes as asked for are
there. -/
def emit (asked : Nat) (out : Array UInt8) (b : UInt8) : Progress (Array UInt8) :=
  if out.size % windowSize = 0 ∧ asked ≤ out.size then .error (.full out) else .ok (out.push b)

/-- Adds bytes one after another. -/
def emitAll (asked : Nat) : Array UInt8 → List UInt8 → Progress (Array UInt8)
  | out, [] => .ok out
  | out, b :: rest =>
    match emit asked out b with
    | .error stop => .error stop
    | .ok out => emitAll asked out rest

/-- The byte that lies some way before the end of the output. -/
def byteBack (out : Array UInt8) (distance : Nat) : UInt8 :=
  if distance ≤ out.size then out.getD (out.size - distance) 0 else 0

/-- Repeats `length` bytes that begin `distance` bytes before the end of the output; the repetition
may run into the bytes it produces. -/
def emitMatch (asked distance : Nat) : Nat → Array UInt8 → Progress (Array UInt8)
  | 0, out => .ok out
  | length + 1, out =>
    match emit asked out (byteBack out distance) with
    | .error stop => .error stop
    | .ok out => emitMatch asked distance length out

/-! ## Coded blocks -/

/-- The shortest length of each length symbol from 257 on, and the number of extra bits. -/
def lengthTable : Array (Nat × Nat) := #[
  (3, 0), (4, 0), (5, 0), (6, 0), (7, 0), (8, 0), (9, 0), (10, 0), (11, 1), (13, 1), (15, 1),
  (17, 1), (19, 2), (23, 2), (27, 2), (31, 2), (35, 3), (43, 3), (51, 3), (59, 3), (67, 4),
  (83, 4), (99, 4), (115, 4), (131, 5), (163, 5), (195, 5), (227, 5), (258, 0)]

/-- The shortest distance of each distance symbol, and the number of extra bits. -/
def distanceTable : Array (Nat × Nat) := #[
  (1, 0), (2, 0), (3, 0), (4, 0), (5, 1), (7, 1), (9, 2), (13, 2), (17, 3), (25, 3), (33, 4),
  (49, 4), (65, 5), (97, 5), (129, 6), (193, 6), (257, 7), (385, 7), (513, 8), (769, 8),
  (1025, 9), (1537, 9), (2049, 10), (3073, 10), (4097, 11), (6145, 11), (8193, 12), (12289, 12),
  (16385, 13), (24577, 13)]

/-- The value of a table entry with its extra bits. -/
def tableValue (table : Array (Nat × Nat)) (index : Nat) (r : BitReader) :
    Result (Nat × BitReader) :=
  match table[index]? with
  | none => .error .corrupt
  | some (base, extra) =>
    match numberOr extra r with
    | .error halt => .error halt
    | .ok (n, r) => .ok (base + n, r)

theorem size_tableValue {table : Array (Nat × Nat)} {index n : Nat} {r r' : BitReader}
    (h : tableValue table index r = .ok (n, r')) : r'.size ≤ r.size := by
  unfold tableValue at h
  split at h
  · cases h
  · split at h
    · cases h
    · next hread => cases h; have := size_numberOr hread; omega

/-- One symbol of a coded block. -/
inductive Token where
  | literal (b : UInt8)
  | backReference (length distance : Nat)
  | endOfBlock

/-- Reads one token: a literal, the end, or a length followed by a distance. -/
def readToken (literals distances : PrefixCode) (r : BitReader) : Result (Token × BitReader) :=
  match literals.decode r with
  | .error halt => .error halt
  | .ok (symbol, r) =>
    if symbol < 256 then .ok (.literal (UInt8.ofNat symbol), r)
    else if symbol = 256 then .ok (.endOfBlock, r)
    else
      match tableValue lengthTable (symbol - 257) r with
      | .error halt => .error halt
      | .ok (length, r) =>
        match distances.decode r with
        | .error halt => .error halt
        | .ok (symbol, r) =>
          match tableValue distanceTable symbol r with
          | .error halt => .error halt
          | .ok (distance, r) => .ok (.backReference length distance, r)

theorem size_readToken {literals distances : PrefixCode} {r r' : BitReader} {token : Token}
    (h : readToken literals distances r = .ok (token, r')) : r'.size < r.size := by
  unfold readToken at h
  split at h
  · cases h
  · next hsym =>
    have h1 := PrefixCode.size_decode hsym
    split at h
    · cases h; exact h1
    · split at h
      · cases h; exact h1
      · split at h
        · cases h
        · next hlen =>
          have h2 := size_tableValue hlen
          split at h
          · cases h
          · next hdist =>
            have h3 := PrefixCode.size_decode hdist
            split at h
            · cases h
            · next hval => cases h; have h4 := size_tableValue hval; omega

/-- The tokens of a coded block up to its end. -/
def codedBlock (asked : Nat) (literals distances : PrefixCode) (r : BitReader)
    (out : Array UInt8) : Progress (BitReader × Array UInt8) :=
  match _h : readToken literals distances r with
  | .error halt => .error (halt.stop out)
  | .ok (.endOfBlock, r') => .ok (r', out)
  | .ok (.literal b, r') =>
    match emit asked out b with
    | .error stop => .error stop
    | .ok out => codedBlock asked literals distances r' out
  | .ok (.backReference length distance, r') =>
    match emitMatch asked distance length out with
    | .error stop => .error stop
    | .ok out => codedBlock asked literals distances r' out
  termination_by r.size
  decreasing_by all_goals exact size_readToken ‹_›

theorem size_codedBlock {asked : Nat} {literals distances : PrefixCode} {r r' : BitReader}
    {out out' : Array UInt8} (h : codedBlock asked literals distances r out = .ok (r', out')) :
    r'.size < r.size := by
  fun_induction codedBlock asked literals distances r out with
  | case1 => cases h
  | case2 r out r'' hread => cases h; exact size_readToken hread
  | case3 => cases h
  | case4 r out b r'' hread out'' hemit ih =>
    have := ih h
    have := size_readToken hread
    omega
  | case5 => cases h
  | case6 r out length distance r'' hread out'' hemit ih =>
    have := ih h
    have := size_readToken hread
    omega

/-- The code word lengths of the fixed literal code. -/
def fixedLiteralLengths : List Nat :=
  List.replicate 144 8 ++ List.replicate 112 9 ++ List.replicate 24 7 ++ List.replicate 8 8

/-- The code word lengths of the fixed distance code. -/
def fixedDistanceLengths : List Nat := List.replicate 32 5

/-! ## Described codes -/

/-- The order in which the lengths of the description's own code are listed. -/
def describedOrder : List Nat := [16, 17, 18, 0, 8, 7, 9, 6, 10, 5, 11, 4, 12, 3, 13, 2, 14, 1, 15]

/-- Reads `count` three-bit lengths. -/
def readLengths : Nat → BitReader → Result (List Nat × BitReader)
  | 0, r => .ok ([], r)
  | count + 1, r =>
    match numberOr 3 r with
    | .error halt => .error halt
    | .ok (n, r) =>
      match readLengths count r with
      | .error halt => .error halt
      | .ok (rest, r) => .ok (n :: rest, r)

theorem size_readLengths {count : Nat} {lengths : List Nat} {r r' : BitReader}
    (h : readLengths count r = .ok (lengths, r')) : r'.size ≤ r.size := by
  induction count generalizing lengths r with
  | zero => cases h; exact Nat.le_refl _
  | succ count ih =>
    unfold readLengths at h
    split at h
    · cases h
    · next hn =>
      split at h
      · cases h
      · next hrest =>
        cases h
        have := ih hrest
        have := size_numberOr hn
        omega

/-- The length at a symbol's place in the listing order; zero if it is not listed. -/
def describedLength (listed : List Nat) (symbol : Nat) : Nat :=
  ((describedOrder.zip listed).find? (·.1 == symbol)).elim 0 (·.2)

/-- Reads code word lengths, the latest first, until `total` of them are known. A symbol up to 15
is a length; 16 repeats the latest length, of which there has to be one; 17 and 18 stand for runs
of zeros. -/
def describedLengths (code : PrefixCode) (total : Nat) (known : List Nat) (r : BitReader) :
    Result (List Nat × BitReader) :=
  if total < known.length then .error .corrupt
  else if known.length = total then .ok (known, r)
  else
    match _h : code.decode r with
    | .error halt => .error halt
    | .ok (symbol, r') =>
      if symbol < 16 then describedLengths code total (symbol :: known) r'
      else if symbol = 16 ∧ known = [] then .error .corrupt
      else
        let (extra, base) := if symbol = 16 then (2, 3) else if symbol = 17 then (3, 3) else (7, 11)
        match _hn : numberOr extra r' with
        | .error halt => .error halt
        | .ok (n, r'') =>
          let repeated := if symbol = 16 then known.headD 0 else 0
          describedLengths code total (List.replicate (base + n) repeated ++ known) r''
  termination_by r.size
  decreasing_by
    all_goals
      have := PrefixCode.size_decode ‹code.decode r = _›
      first
        | assumption
        | (have hextra := size_numberOr ‹numberOr _ _ = _›; omega)

theorem size_describedLengths {code : PrefixCode} {total : Nat} {known lengths : List Nat}
    {r r' : BitReader} (h : describedLengths code total known r = .ok (lengths, r')) :
    r'.size ≤ r.size := by
  fun_induction describedLengths code total known r <;>
    first
    | (cases h; done)
    | (cases h; exact Nat.le_refl _)
    | (rename_i ih
       have := ih h
       have := PrefixCode.size_decode ‹_›
       first
         | omega
         | (have hextra := size_numberOr ‹numberOr _ _ = _›; omega))

/-- Reads the two codes of a block that describes them. -/
def describedCodes (r : BitReader) : Result (PrefixCode × PrefixCode × BitReader) :=
  match numberOr 5 r with
  | .error halt => .error halt
  | .ok (moreLiterals, r) =>
    match numberOr 5 r with
    | .error halt => .error halt
    | .ok (moreDistances, r) =>
      match numberOr 4 r with
      | .error halt => .error halt
      | .ok (moreLengths, r) =>
        if 286 < moreLiterals + 257 ∨ 30 < moreDistances + 1 then .error .corrupt
        else
          match readLengths (moreLengths + 4) r with
          | .error halt => .error halt
          | .ok (listed, r) =>
            match PrefixCode.complete? ((List.range 19).map (describedLength listed)) with
            | none => .error .corrupt
            | some code =>
              match describedLengths code (moreLiterals + 257 + (moreDistances + 1)) [] r with
              | .error halt => .error halt
              | .ok (latestFirst, r) =>
                let lengths := latestFirst.reverse
                match PrefixCode.usable? (lengths.take (moreLiterals + 257)),
                    PrefixCode.usable? (lengths.drop (moreLiterals + 257)) with
                | some literals, some distances => .ok (literals, distances, r)
                | _, _ => .error .corrupt

theorem size_describedCodes {literals distances : PrefixCode} {r r' : BitReader}
    (h : describedCodes r = .ok (literals, distances, r')) : r'.size ≤ r.size := by
  unfold describedCodes at h
  split at h
  · cases h
  · next h1 =>
    split at h
    · cases h
    · next h2 =>
      split at h
      · cases h
      · next h3 =>
        split at h
        · cases h
        · split at h
          · cases h
          · next h4 =>
            split at h
            · cases h
            · split at h
              · cases h
              · next h5 =>
                simp only at h
                split at h
                · cases h
                  have := size_numberOr h1
                  have := size_numberOr h2
                  have := size_numberOr h3
                  have := size_readLengths h4
                  have := size_describedLengths h5
                  omega
                · cases h

/-! ## Blocks -/

/-- A stored block: at the next byte boundary its length, the complement of the length, and the
bytes. What is there of the bytes is put out before their end is missed. -/
def storedBlock (asked : Nat) (r : BitReader) (out : Array UInt8) :
    Progress (BitReader × Array UInt8) :=
  match r.align.bytes with
  | l0 :: l1 :: n0 :: n1 :: rest =>
    let length := l0.toNat + 256 * l1.toNat
    if length + (n0.toNat + 256 * n1.toNat) = 65535 then
      let stored := rest.take length
      match emitAll asked out stored with
      | .error stop => .error stop
      | .ok out =>
        if stored.length < length then .error (.truncated out)
        else .ok (ofBytes (rest.drop length), out)
    else .error .corrupt
  | _ => .error (.truncated out)

theorem size_storedBlock {asked : Nat} {r r' : BitReader} {out out' : Array UInt8}
    (h : storedBlock asked r out = .ok (r', out')) : r'.size ≤ r.size := by
  unfold storedBlock at h
  split at h
  · next l0 l1 n0 n1 rest hbytes =>
    simp only at h
    split at h
    · split at h
      · cases h
      · split at h
        · cases h
        · cases h
          have halign := BitReader.size_align_le r
          have hsize : r.align.size = 8 * (rest.length + 4) := by
            simp [BitReader.size, hbytes, show r.align.pending = [] from rfl]
          have hrest : (ofBytes (rest.drop (l0.toNat + 256 * l1.toNat))).size
              = 8 * (rest.length - (l0.toNat + 256 * l1.toNat)) := by
            simp [ofBytes, BitReader.size]
          omega
    · cases h
  · cases h

/-- The two codes of a coded block, of which the two type bits were read. -/
def blockCodes (kind : Nat) (r : BitReader) : Result (PrefixCode × PrefixCode × BitReader) :=
  match kind with
  | 1 =>
    .ok (PrefixCode.ofLengths fixedLiteralLengths, PrefixCode.ofLengths fixedDistanceLengths, r)
  | 2 => describedCodes r
  | _ => .error .corrupt

theorem size_blockCodes {kind : Nat} {literals distances : PrefixCode} {r r' : BitReader}
    (h : blockCodes kind r = .ok (literals, distances, r')) : r'.size ≤ r.size := by
  unfold blockCodes at h
  split at h
  · cases h; exact Nat.le_refl _
  · exact size_describedCodes h
  · cases h

/-- The body of a block whose two type bits were read. -/
def blockBody (asked kind : Nat) (r : BitReader) (out : Array UInt8) :
    Progress (BitReader × Array UInt8) :=
  if kind = 0 then storedBlock asked r out
  else
    match blockCodes kind r with
    | .error halt => .error (halt.stop out)
    | .ok (literals, distances, r) => codedBlock asked literals distances r out

theorem size_blockBody {asked kind : Nat} {r r' : BitReader} {out out' : Array UInt8}
    (h : blockBody asked kind r out = .ok (r', out')) : r'.size ≤ r.size := by
  unfold blockBody at h
  split at h
  · exact size_storedBlock h
  · split at h
    · cases h
    · next hcodes =>
      have := size_codedBlock h
      have := size_blockCodes hcodes
      omega

/-- The blocks of a stream up to the last one. -/
def blocks (asked : Nat) (r : BitReader) (out : Array UInt8) :
    Progress (BitReader × Array UInt8) :=
  match _h : numberOr 3 r with
  | .error halt => .error (halt.stop out)
  | .ok (header, r') =>
    match _hb : blockBody asked (header / 2) r' out with
    | .error stop => .error stop
    | .ok (r'', out') => if header % 2 = 1 then .ok (r'', out') else blocks asked r'' out'
  termination_by r.size
  decreasing_by
    have := size_numberOr ‹numberOr 3 r = _›
    have := size_blockBody ‹blockBody _ _ _ _ = _›
    omega

end RealmDirectory.Deflate
