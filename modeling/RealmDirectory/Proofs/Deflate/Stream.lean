import RealmDirectory.Deflate.Zlib

/-!
# What a compressed stream holds

The inflater knows how many bytes are asked for, puts its output out in windows and may stop
between two of them. What a stream holds depends on none of that, and is said here by relations
that follow the format: the tokens of a coded block, the bytes of a stored one, block after block
up to the last, and for a zlib stream its header in front and its checksum behind. Only what reads
without a bound, such as tokens and code descriptions, is taken over from the inflater.

The inflater and the relations are compared by two statements about each of its parts. `Sound` is
what follows from what a part gives; `Comes` is what a part gives where the relation holds: the
value, or a stop with as many bytes as asked for, all of them the front of the output. Both pass
through a bind, so each part is settled by its equation as a bind.

## Main results

* `Zlib.IsStream` — which bytes begin with a stream, and what it holds.
* `Zlib.IsStream.inflate_eq` — a stream gives as much of what it holds as is asked for.
* `Zlib.isStream_of_inflate` — where less comes out than is asked for, there is a stream.
-/

namespace RealmDirectory

namespace Deflate

open BitReader (ofBytes)

/-- The output with some bytes repeated that begin `distance` bytes before its end. -/
def repeatBack (distance : Nat) : Nat → Array UInt8 → Array UInt8
  | 0, out => out
  | length + 1, out => repeatBack distance length (out.push (byteBack out distance))

/-- The tokens of a coded block up to its end. What is read and what is put out before the block
comes first, what is left and put out after it second. -/
inductive TokensHold (literals distances : PrefixCode) :
    BitReader → Array UInt8 → BitReader → Array UInt8 → Prop where
  | endOfBlock {r r' : BitReader} {out : Array UInt8}
      (token : readToken literals distances r = .ok (.endOfBlock, r')) :
      TokensHold literals distances r out r' out
  | literal {r r₁ r' : BitReader} {out out' : Array UInt8} {b : UInt8}
      (token : readToken literals distances r = .ok (.literal b, r₁))
      (rest : TokensHold literals distances r₁ (out.push b) r' out') :
      TokensHold literals distances r out r' out'
  | backReference {r r₁ r' : BitReader} {out out' : Array UInt8} {length distance : Nat}
      (token : readToken literals distances r = .ok (.backReference length distance, r₁))
      (rest : TokensHold literals distances r₁ (repeatBack distance length out) r' out') :
      TokensHold literals distances r out r' out'

/-- The body of one block, of the kind its type bits name. -/
inductive BodyHolds : Nat → BitReader → Array UInt8 → BitReader → Array UInt8 → Prop where
  | stored {r : BitReader} {out : Array UInt8} {piece rest : List UInt8}
      (fits : piece.length ≤ Zlib.maxStored)
      (bytes : r.align.bytes = Payload.littleEndian 2 piece.length ++
        (Payload.littleEndian 2 (Zlib.maxStored - piece.length) ++ (piece ++ rest))) :
      BodyHolds 0 r out (ofBytes rest) (out ++ piece.toArray)
  | coded {kind : Nat} {r r₁ r' : BitReader} {out out' : Array UInt8}
      {literals distances : PrefixCode} (notStored : kind ≠ 0)
      (codes : blockCodes kind r = .ok (literals, distances, r₁))
      (tokens : TokensHold literals distances r₁ out r' out') :
      BodyHolds kind r out r' out'

/-- The blocks up to the one that is marked as the last. -/
inductive BlocksHold : BitReader → Array UInt8 → BitReader → Array UInt8 → Prop where
  | last {r r₁ r' : BitReader} {out out' : Array UInt8} {kind : Nat}
      (marks : r.number 3 = some (2 * kind + 1, r₁)) (body : BodyHolds kind r₁ out r' out') :
      BlocksHold r out r' out'
  | more {r r₁ r₂ r' : BitReader} {out out₁ out' : Array UInt8} {kind : Nat}
      (marks : r.number 3 = some (2 * kind, r₁)) (body : BodyHolds kind r₁ out r₂ out₁)
      (rest : BlocksHold r₂ out₁ r' out') :
      BlocksHold r out r' out'

/-! ## What is put out stays -/

private theorem toList_prefix_push (out : Array UInt8) (b : UInt8) :
    out.toList <+: (out.push b).toList := by
  rw [Array.toList_push]
  exact List.prefix_append _ _

private theorem prefix_repeatBack (distance length : Nat) (out : Array UInt8) :
    out.toList <+: (repeatBack distance length out).toList := by
  induction length generalizing out with
  | zero => exact List.prefix_refl _
  | succ length ih => exact (toList_prefix_push out _).trans (ih _)

private theorem TokensHold.grows {literals distances : PrefixCode} {r r' : BitReader}
    {out out' : Array UInt8} (h : TokensHold literals distances r out r' out') :
    out.toList <+: out'.toList := by
  induction h with
  | endOfBlock _ => exact List.prefix_refl _
  | literal _ _ ih => exact (toList_prefix_push _ _).trans ih
  | backReference _ _ ih => exact (prefix_repeatBack _ _ _).trans ih

private theorem BodyHolds.grows {kind : Nat} {r r' : BitReader} {out out' : Array UInt8}
    (h : BodyHolds kind r out r' out') : out.toList <+: out'.toList := by
  cases h with
  | stored _ _ =>
    rw [Array.toList_append]
    exact List.prefix_append _ _
  | coded _ _ tokens => exact tokens.grows

/-- No block takes back what was put out before it. -/
theorem BlocksHold.grows {r r' : BitReader} {out out' : Array UInt8}
    (h : BlocksHold r out r' out') : out.toList <+: out'.toList := by
  induction h with
  | last _ body => exact body.grows
  | more _ body _ ih => exact body.grows.trans ih

/-! ## What inflating gives, and what follows from it -/

section Calculus

variable {α β : Type} {asked : Nat}

/-- What a part of the inflater gives satisfies a predicate, and it stops with enough only where
there is as much as is asked for. -/
structure Sound (asked : Nat) (progress : Progress α) (P : α → Prop) : Prop where
  ok : ∀ value, progress = .ok value → P value
  full : ∀ early, progress = .error (.full early) → asked ≤ early.size

/-- A part of the inflater gives a value, or it stops with as many bytes as are asked for, which
are the front of some output. -/
def Comes (asked : Nat) (progress : Progress α) (value : α) (out : Array UInt8) : Prop :=
  progress = .ok value ∨
    ∃ early, progress = .error (.full early) ∧ asked ≤ early.size ∧ early.toList <+: out.toList

private theorem sound_ok {P : α → Prop} {value : α} (h : P value) : Sound asked (.ok value) P where
  ok := by
    intro value' hvalue
    cases hvalue
    exact h
  full := by
    intro early hearly
    cases hearly

private theorem sound_halt {P : α → Prop} (halt : Halt) (out : Array UInt8) :
    Sound asked (.error (halt.stop out)) P where
  ok := by
    intro value hvalue
    cases hvalue
  full := by
    intro early hearly
    cases halt <;> cases hearly

/-- Two parts that are sound are sound one after the other. -/
theorem Sound.bind {progress : Progress β} {next : β → Progress α} {P : β → Prop}
    {Q : α → Prop} (h : Sound asked progress P) (hnext : ∀ v, P v → Sound asked (next v) Q) :
    Sound asked (progress >>= next) Q := by
  cases hprogress : progress with
  | ok v => exact hnext v (h.ok v hprogress)
  | error stop =>
    refine ⟨?_, ?_⟩
    · intro value hvalue
      cases hvalue
    · intro early hearly
      cases hearly
      exact h.full early hprogress

private theorem Sound.weaken {progress : Progress α} {P Q : α → Prop} (h : Sound asked progress P)
    (hweaker : ∀ v, P v → Q v) : Sound asked progress Q where
  ok := fun v hv => hweaker v (h.ok v hv)
  full := h.full

theorem Sound.and {progress : Progress α} {P Q : α → Prop} (h : Sound asked progress P)
    (hQ : ∀ v, progress = .ok v → Q v) : Sound asked progress (fun v => P v ∧ Q v) where
  ok := fun v hv => ⟨h.ok v hv, hQ v hv⟩
  full := h.full

private theorem comes_ok (value : α) (out : Array UInt8) : Comes asked (.ok value) value out :=
  .inl rfl

/-- If the first part stops with enough, what it put out is the front of what both would have. -/
theorem Comes.bind {progress : Progress β} {next : β → Progress α} {v : β} {value : α}
    {out out' : Array UInt8} (h : Comes asked progress v out)
    (hnext : Comes asked (next v) value out') (hgrows : out.toList <+: out'.toList) :
    Comes asked (progress >>= next) value out' := by
  obtain rfl | ⟨early, rfl, henough, hfront⟩ := h
  · exact hnext
  · exact .inr ⟨early, rfl, henough, hfront.trans hgrows⟩

end Calculus

/-! ## Output -/

section Output

variable {asked : Nat} {out : Array UInt8}

/-- A byte that is put out is the last of the output. -/
theorem sound_emit (asked : Nat) (out : Array UInt8) (b : UInt8) :
    Sound asked (emit asked out b) (· = out.push b) := by
  unfold emit
  split
  · next hfull =>
    refine ⟨?_, ?_⟩
    · intro value hvalue
      cases hvalue
    · intro early hearly
      cases hearly
      exact hfull.2
  · exact sound_ok rfl

/-- A byte is put out unless there is enough already. -/
theorem comes_emit (asked : Nat) (out : Array UInt8) (b : UInt8) :
    Comes asked (emit asked out b) (out.push b) (out.push b) := by
  unfold emit
  split
  · next hfull => exact .inr ⟨out, rfl, hfull.2, toList_prefix_push out b⟩
  · exact comes_ok _ _

private theorem emitAll_cons (asked : Nat) (out : Array UInt8) (b : UInt8) (rest : List UInt8) :
    emitAll asked out (b :: rest) = emit asked out b >>= fun out => emitAll asked out rest := by
  rw [emitAll]
  cases emit asked out b <;> rfl

theorem append_cons (out : Array UInt8) (b : UInt8) (rest : List UInt8) :
    out ++ (b :: rest).toArray = out.push b ++ rest.toArray := by
  apply Array.toList_inj.mp
  rw [Array.toList_append, Array.toList_append, Array.toList_push, List.append_assoc]
  rfl

private theorem sound_emitAll (asked : Nat) (out : Array UInt8) (bytes : List UInt8) :
    Sound asked (emitAll asked out bytes) (· = out ++ bytes.toArray) := by
  induction bytes generalizing out with
  | nil => exact sound_ok Array.append_empty.symm
  | cons b rest ih =>
    rw [emitAll_cons, append_cons]
    apply (sound_emit asked out b).bind
    rintro _ rfl
    exact ih (out.push b)

private theorem comes_emitAll (asked : Nat) (out : Array UInt8) (bytes : List UInt8) :
    Comes asked (emitAll asked out bytes) (out ++ bytes.toArray) (out ++ bytes.toArray) := by
  induction bytes generalizing out with
  | nil => exact .inl (congrArg Except.ok Array.append_empty.symm)
  | cons b rest ih =>
    rw [emitAll_cons, append_cons]
    refine (comes_emit asked out b).bind (ih (out.push b)) ?_
    rw [Array.toList_append]
    exact List.prefix_append _ _

private theorem emitMatch_succ (asked distance length : Nat) (out : Array UInt8) :
    emitMatch asked distance (length + 1) out =
      emit asked out (byteBack out distance) >>= emitMatch asked distance length := by
  rw [emitMatch]
  cases emit asked out (byteBack out distance) <;> rfl

private theorem sound_emitMatch (asked distance length : Nat) (out : Array UInt8) :
    Sound asked (emitMatch asked distance length out) (· = repeatBack distance length out) := by
  induction length generalizing out with
  | zero => exact sound_ok rfl
  | succ length ih =>
    rw [emitMatch_succ]
    apply (sound_emit asked out _).bind
    rintro _ rfl
    exact ih _

private theorem comes_emitMatch (asked distance length : Nat) (out : Array UInt8) :
    Comes asked (emitMatch asked distance length out) (repeatBack distance length out)
      (repeatBack distance length out) := by
  induction length generalizing out with
  | zero => exact comes_ok _ _
  | succ length ih =>
    rw [emitMatch_succ]
    exact (comes_emit asked out _).bind (ih _) (prefix_repeatBack distance length _)

end Output

/-! ## Coded blocks -/

section Coded

variable {asked : Nat} {literals distances : PrefixCode} {r r' : BitReader} {out : Array UInt8}

private theorem codedBlock_halt {halt : Halt} (h : readToken literals distances r = .error halt) :
    codedBlock asked literals distances r out = .error (halt.stop out) := by
  unfold codedBlock
  split <;> next hread => rw [h] at hread; cases hread <;> rfl

private theorem codedBlock_endOfBlock (h : readToken literals distances r = .ok (.endOfBlock, r')) :
    codedBlock asked literals distances r out = .ok (r', out) := by
  unfold codedBlock
  split <;> next hread => rw [h] at hread; cases hread <;> rfl

private theorem codedBlock_literal {b : UInt8}
    (h : readToken literals distances r = .ok (.literal b, r')) :
    codedBlock asked literals distances r out =
      emit asked out b >>= codedBlock asked literals distances r' := by
  rw [codedBlock]
  split <;> next hread => rw [h] at hread; cases hread <;> cases emit asked out b <;> rfl

private theorem codedBlock_backReference {length distance : Nat}
    (h : readToken literals distances r = .ok (.backReference length distance, r')) :
    codedBlock asked literals distances r out =
      emitMatch asked distance length out >>= codedBlock asked literals distances r' := by
  rw [codedBlock]
  split <;> next hread =>
    rw [h] at hread
    cases hread <;> cases emitMatch asked distance length out <;> rfl

/-- What a coded block puts out is what its tokens hold. -/
theorem sound_codedBlock (asked : Nat) (literals distances : PrefixCode) (r : BitReader)
    (out : Array UInt8) :
    Sound asked (codedBlock asked literals distances r out)
      (fun left => TokensHold literals distances r out left.1 left.2) := by
  cases htoken : readToken literals distances r with
  | error halt =>
    rw [codedBlock_halt htoken]
    exact sound_halt halt out
  | ok read =>
    obtain ⟨token, r₁⟩ := read
    cases token with
    | endOfBlock =>
      rw [codedBlock_endOfBlock htoken]
      exact sound_ok (.endOfBlock htoken)
    | literal b =>
      rw [codedBlock_literal htoken]
      apply (sound_emit asked out b).bind
      rintro _ rfl
      exact (sound_codedBlock asked literals distances r₁ _).weaken
        fun _ rest => .literal htoken rest
    | backReference length distance =>
      rw [codedBlock_backReference htoken]
      apply (sound_emitMatch asked distance length out).bind
      rintro _ rfl
      exact (sound_codedBlock asked literals distances r₁ _).weaken
        fun _ rest => .backReference htoken rest
  termination_by r.size
  decreasing_by all_goals exact size_readToken htoken

/-- What its tokens hold is put out by a coded block. -/
theorem TokensHold.comes {r r' : BitReader} {out out' : Array UInt8}
    (h : TokensHold literals distances r out r' out') :
    Comes asked (codedBlock asked literals distances r out) (r', out') out' := by
  induction h with
  | endOfBlock token =>
    rw [codedBlock_endOfBlock token]
    exact comes_ok _ _
  | literal token rest ih =>
    rw [codedBlock_literal token]
    exact (comes_emit asked _ _).bind ih rest.grows
  | backReference token rest ih =>
    rw [codedBlock_backReference token]
    exact (comes_emitMatch asked _ _ _).bind ih rest.grows

end Coded

/-! ## Stored blocks -/

section Stored

open Payload

variable {asked : Nat} {r : BitReader} {out : Array UInt8}

private theorem littleEndian_two (n : Nat) :
    littleEndian 2 n = [UInt8.ofNat n, UInt8.ofNat (n / 256)] := rfl

/-- A stored block puts out what is there of its bytes before it misses the others. -/
theorem storedBlock_eq {length : Nat} {rest : List UInt8} (hfits : length ≤ Zlib.maxStored)
    (hbytes : r.align.bytes =
      littleEndian 2 length ++ (littleEndian 2 (Zlib.maxStored - length) ++ rest)) :
    storedBlock asked r out = emitAll asked out (rest.take length) >>= fun out =>
      if (rest.take length).length < length then .error (.truncated out)
      else .ok (ofBytes (rest.drop length), out) := by
  have hlength :
      (UInt8.ofNat length).toNat + 256 * (UInt8.ofNat (length / 256)).toNat = length := by
    rw [UInt8.toNat_ofNat', UInt8.toNat_ofNat']
    unfold Zlib.maxStored at hfits
    omega
  have hcomplement : (UInt8.ofNat (Zlib.maxStored - length)).toNat +
      256 * (UInt8.ofNat ((Zlib.maxStored - length) / 256)).toNat = Zlib.maxStored - length := by
    rw [UInt8.toNat_ofNat', UInt8.toNat_ofNat']
    unfold Zlib.maxStored
    omega
  have hsum : length + (Zlib.maxStored - length) = 65535 := Nat.add_sub_cancel' hfits
  rw [littleEndian_two, littleEndian_two] at hbytes
  rw [storedBlock, hbytes]
  dsimp only [List.cons_append, List.nil_append]
  rw [hlength, hcomplement, if_pos hsum]
  cases emitAll asked out (rest.take length) <;> rfl

/-- A stored block begins with a length and its complement, or it puts nothing out. -/
theorem storedBlock_cases (asked : Nat) (r : BitReader) (out : Array UInt8) :
    (∃ halt : Halt, storedBlock asked r out = .error (halt.stop out)) ∨
    ∃ length rest, length ≤ Zlib.maxStored ∧ r.align.bytes =
      littleEndian 2 length ++ (littleEndian 2 (Zlib.maxStored - length) ++ rest) := by
  rcases hbytes : r.align.bytes with _ | ⟨l0, _ | ⟨l1, _ | ⟨n0, _ | ⟨n1, rest⟩⟩⟩⟩
  case cons.cons.cons.cons =>
    by_cases hsum : l0.toNat + 256 * l1.toNat + (n0.toNat + 256 * n1.toNat) = 65535
    · have hlength : littleEndian 2 (l0.toNat + 256 * l1.toNat) = [l0, l1] :=
        littleEndian_ofLittleEndian [l0, l1]
      have hcomplement : littleEndian 2 (n0.toNat + 256 * n1.toNat) = [n0, n1] :=
        littleEndian_ofLittleEndian [n0, n1]
      refine .inr ⟨l0.toNat + 256 * l1.toNat, rest, ?_, ?_⟩
      · unfold Zlib.maxStored
        omega
      · have hminus : Zlib.maxStored - (l0.toNat + 256 * l1.toNat) = n0.toNat + 256 * n1.toNat := by
          unfold Zlib.maxStored
          omega
        rw [hminus, hlength, hcomplement]
        rfl
    · refine .inl ⟨.corrupt, ?_⟩
      rw [storedBlock, hbytes]
      exact if_neg hsum
  all_goals
    refine .inl ⟨.truncated, ?_⟩
    rw [storedBlock, hbytes]
    rfl

private theorem sound_storedBlock (asked : Nat) (r : BitReader) (out : Array UInt8) :
    Sound asked (storedBlock asked r out) (fun left => BodyHolds 0 r out left.1 left.2) := by
  rcases storedBlock_cases asked r out with ⟨halt, hhalt⟩ | ⟨length, rest, hfits, hbytes⟩
  · rw [hhalt]
    exact sound_halt halt out
  · rw [storedBlock_eq hfits hbytes]
    apply (sound_emitAll asked out _).bind
    rintro _ rfl
    split
    · exact sound_halt .truncated _
    · next hwhole =>
      have hpiece : (rest.take length).length = length :=
        Nat.le_antisymm (List.length_take_le _ _) (Nat.le_of_not_lt hwhole)
      refine sound_ok (.stored (Nat.le_trans (Nat.le_of_eq hpiece) hfits) ?_)
      rw [hbytes, hpiece, List.take_append_drop]

private theorem comes_storedBlock {piece rest : List UInt8} (hfits : piece.length ≤ Zlib.maxStored)
    (hbytes : r.align.bytes = littleEndian 2 piece.length ++
      (littleEndian 2 (Zlib.maxStored - piece.length) ++ (piece ++ rest))) :
    Comes asked (storedBlock asked r out) (ofBytes rest, out ++ piece.toArray)
      (out ++ piece.toArray) := by
  rw [storedBlock_eq hfits hbytes, List.take_left, List.drop_left]
  refine (comes_emitAll asked out piece).bind ?_ (List.prefix_refl _)
  rw [if_neg (Nat.lt_irrefl _)]
  exact comes_ok _ _

end Stored

/-! ## Blocks -/

section Blocks

variable {asked : Nat} {r r' : BitReader} {out out' : Array UInt8}

private theorem sound_blockBody (asked kind : Nat) (r : BitReader) (out : Array UInt8) :
    Sound asked (blockBody asked kind r out)
      (fun left => BodyHolds kind r out left.1 left.2) := by
  unfold blockBody
  split
  · next hstored =>
    cases hstored
    exact sound_storedBlock asked r out
  · next hcoded =>
    split
    · next halt _ => exact sound_halt halt out
    · next literals distances r₁ hcodes =>
      exact (sound_codedBlock asked literals distances r₁ out).weaken
        fun _ tokens => .coded hcoded hcodes tokens

private theorem BodyHolds.comes {kind : Nat} (h : BodyHolds kind r out r' out') :
    Comes asked (blockBody asked kind r out) (r', out') out' := by
  unfold blockBody
  cases h with
  | stored fits bytes => exact comes_storedBlock fits bytes
  | coded notStored codes tokens =>
    rw [if_neg notStored, codes]
    exact tokens.comes

private theorem blocks_halt {halt : Halt} (h : numberOr 3 r = .error halt) :
    blocks asked r out = .error (halt.stop out) := by
  unfold blocks
  split <;> next hmarks => rw [h] at hmarks; cases hmarks <;> rfl

private theorem blocks_bind {marks : Nat} (h : numberOr 3 r = .ok (marks, r')) :
    blocks asked r out = blockBody asked (marks / 2) r' out >>= fun left =>
      if marks % 2 = 1 then .ok left else blocks asked left.1 left.2 := by
  rw [blocks]
  split <;> next hmarks =>
    rw [h] at hmarks
    cases hmarks <;> cases blockBody asked (marks / 2) r' out <;> rfl

theorem numberOr_eq_ok_iff {count n : Nat} :
    numberOr count r = .ok (n, r') ↔ r.number count = some (n, r') := by
  unfold numberOr
  cases r.number count <;> simp

/-- What the blocks put out is what they hold. -/
theorem sound_blocks (asked : Nat) (r : BitReader) (out : Array UInt8) :
    Sound asked (blocks asked r out) (fun left => BlocksHold r out left.1 left.2) := by
  cases hmarks : numberOr 3 r with
  | error halt =>
    rw [blocks_halt hmarks]
    exact sound_halt halt out
  | ok read =>
    obtain ⟨marks, r₁⟩ := read
    have hnumber := numberOr_eq_ok_iff.mp hmarks
    rw [blocks_bind hmarks]
    apply ((sound_blockBody asked (marks / 2) r₁ out).and fun _ h => size_blockBody h).bind
    rintro ⟨r₂, out₁⟩ ⟨hbody, hleft⟩
    split
    · next hlast =>
      have hodd : marks = 2 * (marks / 2) + 1 := by omega
      rw [hodd] at hnumber
      exact sound_ok (.last hnumber hbody)
    · next hmore =>
      have heven : marks = 2 * (marks / 2) := by omega
      rw [heven] at hnumber
      exact (sound_blocks asked r₂ out₁).weaken fun _ rest => .more hnumber hbody rest
  termination_by r.size
  decreasing_by
    have := BitReader.size_number hnumber
    dsimp only at hleft
    omega

/-- What the blocks hold is put out by them. -/
theorem BlocksHold.comes (h : BlocksHold r out r' out') :
    Comes asked (blocks asked r out) (r', out') out' := by
  induction h with
  | @last r r₁ r' out out' kind marks body =>
    have hkind : (2 * kind + 1) / 2 = kind := by omega
    have hlast : (2 * kind + 1) % 2 = 1 := by omega
    rw [blocks_bind (numberOr_eq_ok_iff.mpr marks), hkind]
    refine body.comes.bind ?_ (List.prefix_refl _)
    rw [if_pos hlast]
    exact comes_ok _ _
  | @more r r₁ r₂ r' out out₁ out' kind marks body rest ih =>
    have hkind : 2 * kind / 2 = kind := by omega
    have hmore : ¬ 2 * kind % 2 = 1 := by omega
    rw [blocks_bind (numberOr_eq_ok_iff.mpr marks), hkind]
    refine body.comes.bind ?_ rest.grows
    rw [if_neg hmore]
    exact ih

end Blocks

end Deflate

/-! ## Zlib streams -/

namespace Zlib

open Deflate (BitReader BlocksHold Comes Sound comes_ok sound_blocks sound_halt sound_ok)

/-- Some bytes begin with a whole stream that holds `raw`: a valid header, all blocks, and the
checksum of what they hold. Whatever follows the checksum does not count. -/
inductive IsStream : List UInt8 → List UInt8 → Prop where
  | intro {method flags : UInt8} {body rest : List UInt8} {r : BitReader} {out : Array UInt8}
      (header : headerValid method flags = true)
      (blocks : BlocksHold (BitReader.ofBytes body) #[] r out)
      (checksum : r.align.bytes = adlerBytes out.toList ++ rest) :
      IsStream (method :: flags :: body) out.toList

private theorem length_adlerBytes (bytes : List UInt8) : (adlerBytes bytes).length = 4 := rfl

/-- Behind a valid header the blocks are inflated, and then the checksum is looked at. -/
theorem decode_header {asked : Nat} {method flags : UInt8} {body : List UInt8}
    (h : headerValid method flags = true) :
    decode asked (method :: flags :: body) =
      Deflate.blocks asked (BitReader.ofBytes body) #[] >>= fun left =>
        if (left.1.align.bytes.take 4).length < 4 then .error (.truncated left.2)
        else if left.1.align.bytes.take 4 = adlerBytes left.2.toList then .ok left.2.toList
        else .error .corrupt := by
  rw [decode, if_pos h]
  cases Deflate.blocks asked (BitReader.ofBytes body) #[] <;> rfl

/-- Whatever is decoded was a stream of it. -/
theorem sound_decode (asked : Nat) (bytes : List UInt8) :
    Sound asked (decode asked bytes) (IsStream bytes) := by
  rcases bytes with _ | ⟨method, _ | ⟨flags, body⟩⟩
  · exact sound_halt .truncated #[]
  · exact sound_halt .truncated #[]
  · by_cases hheader : headerValid method flags = true
    · rw [decode_header hheader]
      apply (sound_blocks asked (BitReader.ofBytes body) #[]).bind
      rintro ⟨r, out⟩ hblocks
      split
      · exact sound_halt .truncated out
      · split
        · next hsum =>
          have hchecksum : r.align.bytes = adlerBytes out.toList ++ r.align.bytes.drop 4 := by
            rw [← hsum, List.take_append_drop]
          exact sound_ok (.intro hheader hblocks hchecksum)
        · exact sound_halt .corrupt out
    · rw [decode, if_neg hheader]
      exact sound_halt .corrupt #[]

/-- A stream is decoded, or there is enough before its end. -/
theorem IsStream.comes {bytes raw : List UInt8} (h : IsStream bytes raw) (asked : Nat) :
    Comes asked (decode asked bytes) raw raw.toArray := by
  obtain @⟨method, flags, body, rest, r, out, header, blocks, checksum⟩ := h
  rw [decode_header header]
  refine blocks.comes.bind ?_ (List.prefix_refl _)
  have hsum : r.align.bytes.take 4 = adlerBytes out.toList := by
    rw [checksum]
    exact List.take_left' (length_adlerBytes _)
  have hthere : ¬ (adlerBytes out.toList).length < 4 := Nat.lt_irrefl 4
  dsimp only
  rw [hsum, if_neg hthere, if_pos rfl]
  exact comes_ok _ _

/-- A stream gives as much of what it holds as is asked for. -/
theorem IsStream.inflate_eq {bytes raw : List UInt8} (h : IsStream bytes raw) (asked : Nat) :
    inflate asked bytes = .ok (raw.take asked) := by
  obtain hall | ⟨early, hfull, henough, hfront⟩ := h.comes asked
  · rw [inflate, hall]
  · obtain ⟨later, hlater⟩ := hfront
    change early.toList ++ later = raw at hlater
    have hcut : early.toList.take asked = raw.take asked := by
      rw [← hlater, List.take_append_of_le_length henough]
    rw [inflate, hfull]
    exact congrArg Except.ok hcut

/-- Where less comes out than is asked for, there is a stream, and all it holds came out. -/
theorem isStream_of_inflate {asked : Nat} {bytes raw : List UInt8}
    (h : inflate asked bytes = .ok raw) (hless : raw.length < asked) : IsStream bytes raw := by
  have hcut {early : Array UInt8} (henough : asked ≤ early.size) :
      (early.toList.take asked).length = asked := by
    rw [List.length_take, Array.length_toList, Nat.min_eq_left henough]
  unfold inflate at h
  split at h
  · next out hout =>
    cases h
    have hall : out.take asked = out := by
      rw [List.length_take] at hless
      exact List.take_of_length_le (by omega)
    rw [hall]
    exact (sound_decode asked bytes).ok out hout
  · next early hearly =>
    cases h
    rw [hcut ((sound_decode asked bytes).full early hearly)] at hless
    exact absurd hless (Nat.lt_irrefl asked)
  · split at h
    · next early _ henough =>
      cases h
      rw [hcut henough] at hless
      exact absurd hless (Nat.lt_irrefl asked)
    · cases h
  · split at h
    · next hout =>
      cases h
      rw [length_enoughInPieces? hout] at hless
      exact absurd hless (Nat.lt_irrefl asked)
    · cases h

/-- Some bytes hold at most one stream, whatever was asked for to find it. -/
theorem IsStream.unique {bytes raw raw' : List UInt8} (h : IsStream bytes raw)
    (h' : IsStream bytes raw') : raw = raw' := by
  have hraw := h.inflate_eq (raw.length + raw'.length)
  rw [h'.inflate_eq, List.take_of_length_le (Nat.le_add_left _ _),
    List.take_of_length_le (Nat.le_add_right _ _)] at hraw
  cases hraw
  rfl

end Zlib

end RealmDirectory
