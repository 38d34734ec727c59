import RealmDirectory.Frame.Chunk
import RealmDirectory.Frame.Opcode
import RealmDirectory.Proofs.Payload.Reads

/-!
# Splitting a chunk undoes writing frames one after another

The bytes of a chunk fall into frames in one way only. Taking a frame off the front and writing it
again gives back the bytes that were taken, so the frames of a chunk and what was left of it spell
the chunk; and a frame that was written is taken off as a whole, whatever follows it, so no other
frames with a remainder that is empty or not the start of a frame spell the same bytes.

`Chunk.Spells` is this description of a chunk without its loop, and `Chunk.split_eq_iff` says that
`Chunk.split` computes it. The laws of splitting follow from it, among them that a chunk which is
split without a fault can be cut off the front of a longer one.

## Main results

* `Frame.encode_of_decode` — a frame taken off the front was written there.
* `Chunk.split_eq_iff` — what a split comes to.
* `Chunk.split_inverse` — splitting is the inverse of writing, with a remainder.
-/

namespace RealmDirectory

open Payload (FieldError littleEndian_ofLittleEndian ofLittleEndian_lt)

variable {op : Type} [Opcodes op]

/-! ## Frames one after another -/

namespace Frame

/-- The bytes of frames one after another. -/
def encodeAll : List (Frame op) → Except FieldError (List UInt8)
  | [] => .ok []
  | frame :: rest => do return (← frame.encode) ++ (← encodeAll rest)

/-- A frame that was taken off the front of some bytes had been written there. -/
theorem encode_of_decode {bytes rest : List UInt8} {frame : Frame op}
    (h : decode bytes = .ok (frame, rest)) :
    ∃ head, frame.encode = .ok head ∧ head ++ rest = bytes := by
  unfold decode at h
  split at h
  · cases h
  next code afterCode =>
  dsimp only at h
  split at h
  · cases h
  next hheader =>
  split at h
  · cases h
  next opcode hopcode =>
  split at h
  · cases h
  next hbody =>
  cases h
  have hfield : (afterCode.take (Opcodes.lengthWidth op)).length = Opcodes.lengthWidth op :=
    Nat.le_antisymm (List.length_take_le _ _) (Nat.le_of_not_lt hheader)
  have hpayload : ((afterCode.drop (Opcodes.lengthWidth op)).take
      (Payload.ofLittleEndian (afterCode.take (Opcodes.lengthWidth op)))).length =
      Payload.ofLittleEndian (afterCode.take (Opcodes.lengthWidth op)) :=
    Nat.le_antisymm (List.length_take_le _ _) (Nat.le_of_not_lt hbody)
  have hfits := ofLittleEndian_lt (afterCode.take (Opcodes.lengthWidth op))
  have hlength := littleEndian_ofLittleEndian (afterCode.take (Opcodes.lengthWidth op))
  rw [hfield] at hfits hlength
  refine ⟨_, if_pos (by rw [hpayload]; exact hfits), ?_⟩
  rw [hpayload, hlength, Opcodes.ofCode?_eq_some_iff.mp hopcode, List.cons_append,
    List.append_assoc, List.take_append_drop, List.take_append_drop]

private theorem encodeAll_cons_eq_ok {frame : Frame op} {frames : List (Frame op)}
    {bytes : List UInt8} :
    encodeAll (frame :: frames) = .ok bytes ↔
      ∃ head tail, frame.encode = .ok head ∧ encodeAll frames = .ok tail ∧
        head ++ tail = bytes := by
  rw [encodeAll]
  cases frame.encode with
  | error cause => exact ⟨nofun, fun ⟨_, _, hhead, _⟩ => nomatch hhead⟩
  | ok head =>
    cases encodeAll frames with
    | error cause => exact ⟨nofun, fun ⟨_, _, _, htail, _⟩ => nomatch htail⟩
    | ok tail =>
      constructor
      · intro h
        exact ⟨head, tail, rfl, rfl, Except.ok.inj h⟩
      · rintro ⟨_, _, hhead, htail, rfl⟩
        cases hhead
        cases htail
        rfl

theorem encodeAll_append_eq_ok {frames more : List (Frame op)} {bytes : List UInt8} :
    encodeAll (frames ++ more) = .ok bytes ↔
      ∃ first second, encodeAll frames = .ok first ∧ encodeAll more = .ok second ∧
        first ++ second = bytes := by
  induction frames generalizing bytes with
  | nil =>
    constructor
    · intro h
      exact ⟨[], bytes, rfl, h, rfl⟩
    · rintro ⟨_, _, hfirst, hsecond, rfl⟩
      cases hfirst
      exact hsecond
  | cons frame rest ih =>
    rw [List.cons_append, encodeAll_cons_eq_ok]
    constructor
    · rintro ⟨head, _, hhead, htail, rfl⟩
      obtain ⟨first, second, hfirst, hsecond, rfl⟩ := ih.mp htail
      exact ⟨head ++ first, second, encodeAll_cons_eq_ok.mpr ⟨head, first, hhead, hfirst, rfl⟩,
        hsecond, List.append_assoc _ _ _⟩
    · rintro ⟨_, second, hfirst, hsecond, rfl⟩
      obtain ⟨head, tail, hhead, htail, rfl⟩ := encodeAll_cons_eq_ok.mp hfirst
      exact ⟨head, tail ++ second, hhead, ih.mpr ⟨tail, second, htail, hsecond, rfl⟩,
        (List.append_assoc _ _ _).symm⟩

/-- Frames whose payloads the length field can count can be written. -/
theorem exists_encodeAll {frames : List (Frame op)}
    (h : ∀ frame ∈ frames, frame.payload.length < Nat.pow 256 (Opcodes.lengthWidth op)) :
    ∃ bytes, encodeAll frames = .ok bytes := by
  induction frames with
  | nil => exact ⟨[], rfl⟩
  | cons frame rest ih =>
    obtain ⟨head, hhead⟩ := exists_encode frame (h frame List.mem_cons_self)
    obtain ⟨tail, htail⟩ := ih fun other hmem => h other (List.mem_cons_of_mem _ hmem)
    exact ⟨head ++ tail, encodeAll_cons_eq_ok.mpr ⟨head, tail, hhead, htail, rfl⟩⟩

end Frame

/-! ## What a split comes to -/

namespace Chunk

/-- The bytes of a chunk that were given up. -/
def leftover (chunk : Chunk op) : List UInt8 :=
  match chunk.discarded with
  | none => []
  | some part => part.bytes

/-- The fault that ended the split, if one did. -/
def fault (chunk : Chunk op) : Option FrameError := chunk.discarded.map (·.fault)

/-- The frames and what was left spell some bytes, and what was left is no start of a frame. -/
structure Spells (chunk : Chunk op) (bytes : List UInt8) : Prop where
  whole : ∃ encoded, Frame.encodeAll chunk.frames = .ok encoded ∧ encoded ++ chunk.leftover = bytes
  faulty : ∀ {part : Discarded}, chunk.discarded = some part →
    part.bytes ≠ [] ∧ (Frame.decode part.bytes : Except FrameError (Frame op × List UInt8)) =
      .error part.fault

/-! ### One turn of the loop -/

section Loop

variable {bytes rest : List UInt8} {frame : Frame op} {fault : FrameError}

private theorem splitAfter_nil (found : List (Frame op)) :
    splitAfter found [] = ⟨found.reverse, none⟩ := by
  rw [splitAfter]
  rfl

private theorem splitAfter_of_error (found : List (Frame op)) (hne : bytes ≠ [])
    (h : (Frame.decode bytes : Except FrameError (Frame op × List UInt8)) = .error fault) :
    splitAfter found bytes = ⟨found.reverse, some ⟨fault, bytes⟩⟩ := by
  rw [splitAfter, if_neg (by simpa using hne)]
  split
  · next other hother =>
    rw [h] at hother
    cases hother
    rfl
  · next hother =>
    rw [h] at hother
    cases hother

/-- A frame that is found is put in front of those found before. -/
theorem splitAfter_of_ok (found : List (Frame op)) (h : Frame.decode bytes = .ok (frame, rest)) :
    splitAfter found bytes = splitAfter (frame :: found) rest := by
  have hne : bytes ≠ [] := by
    rintro rfl
    cases h
  rw [splitAfter, if_neg (by simpa using hne)]
  split
  · next other hother =>
    rw [h] at hother
    cases hother
  · next hother =>
    rw [h] at hother
    cases hother
    rfl

end Loop

/-- The frames found so far come first. -/
theorem splitAfter_eq (found : List (Frame op)) (bytes : List UInt8) :
    splitAfter found bytes =
      ⟨found.reverse ++ (split bytes : Chunk op).frames, (split bytes : Chunk op).discarded⟩ := by
  unfold split
  induction h : bytes.length using Nat.strong_induction_on generalizing found bytes with
  | h length ih =>
    cases hdecode : (Frame.decode bytes : Except FrameError (Frame op × List UInt8)) with
    | error fault =>
      by_cases hne : bytes = []
      · rw [hne, splitAfter_nil, splitAfter_nil, List.reverse_nil, List.append_nil]
      · rw [splitAfter_of_error found hne hdecode, splitAfter_of_error [] hne hdecode,
          List.reverse_nil, List.append_nil]
    | ok decoded =>
      obtain ⟨frame, rest⟩ := decoded
      have hlt := h ▸ Frame.length_rest_lt hdecode
      rw [splitAfter_of_ok found hdecode, splitAfter_of_ok [] hdecode, ih _ hlt _ _ rfl,
        ih _ hlt [frame] _ rfl, List.reverse_cons, List.append_assoc]
      rfl

section Split

variable {bytes rest : List UInt8} {frame : Frame op} {fault : FrameError}

theorem split_nil : split [] = (⟨[], none⟩ : Chunk op) := splitAfter_nil []

private theorem split_of_error (hne : bytes ≠ [])
    (h : (Frame.decode bytes : Except FrameError (Frame op × List UInt8)) = .error fault) :
    split bytes = (⟨[], some ⟨fault, bytes⟩⟩ : Chunk op) := splitAfter_of_error [] hne h

private theorem split_of_ok (h : Frame.decode bytes = .ok (frame, rest)) :
    split bytes = ⟨frame :: (split rest).frames, (split rest : Chunk op).discarded⟩ := by
  unfold split
  rw [splitAfter_of_ok [] h, splitAfter_eq]
  rfl

end Split

/-! ### The description is met, and by nothing else -/

/-- A split describes the bytes it was made from. -/
theorem spells_split (bytes : List UInt8) : (split bytes : Chunk op).Spells bytes := by
  induction h : bytes.length using Nat.strong_induction_on generalizing bytes with
  | h length ih =>
    cases hdecode : (Frame.decode bytes : Except FrameError (Frame op × List UInt8)) with
    | error fault =>
      by_cases hne : bytes = []
      · rw [hne, split_nil]
        exact ⟨⟨[], rfl, rfl⟩, nofun⟩
      · rw [split_of_error hne hdecode]
        refine ⟨⟨[], rfl, rfl⟩, fun hpart => ?_⟩
        cases hpart
        exact ⟨hne, hdecode⟩
    | ok decoded =>
      obtain ⟨frame, rest⟩ := decoded
      obtain ⟨head, hhead, hbytes⟩ := Frame.encode_of_decode hdecode
      obtain ⟨⟨encoded, hencoded, hrest⟩, hfaulty⟩ :=
        ih _ (h ▸ Frame.length_rest_lt hdecode) rest rfl
      rw [split_of_ok hdecode]
      refine ⟨⟨head ++ encoded, ?_, ?_⟩, hfaulty⟩
      · exact Frame.encodeAll_cons_eq_ok.mpr ⟨head, encoded, hhead, hencoded, rfl⟩
      · rw [List.append_assoc]
        exact (congrArg (head ++ ·) hrest).trans hbytes

/-- Only one chunk spells the bytes: a frame that was written is taken off as a whole. -/
theorem Spells.split_eq {chunk : Chunk op} {bytes : List UInt8} (h : chunk.Spells bytes) :
    split bytes = chunk := by
  obtain ⟨frames, discarded⟩ := chunk
  induction frames generalizing bytes with
  | nil =>
    obtain ⟨_, hencoded, hbytes⟩ := h.whole
    cases hencoded
    cases discarded with
    | none =>
      cases hbytes
      exact split_nil
    | some part =>
      obtain ⟨hne, hdecode⟩ := h.faulty rfl
      cases hbytes
      exact split_of_error hne hdecode
  | cons frame frames ih =>
    obtain ⟨_, hencoded, hbytes⟩ := h.whole
    obtain ⟨head, tail, hhead, htail, rfl⟩ := Frame.encodeAll_cons_eq_ok.mp hencoded
    rw [List.append_assoc] at hbytes
    have hdecode := Frame.decode_encode hhead (tail ++ leftover ⟨frame :: frames, discarded⟩)
    rw [hbytes] at hdecode
    have hrest : (⟨frames, discarded⟩ : Chunk op).Spells
        (tail ++ leftover ⟨frame :: frames, discarded⟩) := ⟨⟨tail, htail, rfl⟩, h.faulty⟩
    rw [split_of_ok hdecode, ih hrest]

/-- A split comes to the one chunk that spells the bytes. -/
theorem split_eq_iff {chunk : Chunk op} {bytes : List UInt8} :
    split bytes = chunk ↔ chunk.Spells bytes :=
  ⟨fun h => h ▸ spells_split bytes, Spells.split_eq⟩

/-! ## Laws of splitting -/

section Laws

variable {chunk : Chunk op} {bytes encoded tail first second : List UInt8}

/-- Some bytes are left over exactly if there is a fault in them. -/
theorem Spells.leftover_pos_iff (h : chunk.Spells bytes) :
    0 < chunk.leftover.length ↔ chunk.fault.isSome := by
  obtain ⟨frames, discarded⟩ := chunk
  cases discarded with
  | none => exact ⟨nofun, nofun⟩
  | some part => exact ⟨fun _ => rfl, fun _ => List.length_pos_iff.mpr (h.faulty rfl).1⟩

/-- The fault is the one that reading a frame from the leftover gives. -/
theorem Spells.decode_leftover (h : chunk.Spells bytes) {fault : FrameError}
    (hfault : chunk.fault = some fault) :
    (Frame.decode chunk.leftover : Except FrameError (Frame op × List UInt8)) = .error fault := by
  obtain ⟨frames, discarded⟩ := chunk
  cases discarded with
  | none => cases hfault
  | some part =>
    cases hfault
    exact (h.faulty rfl).2

/-- Frames that were written are found again. -/
theorem split_eq_of_encodeAll {frames : List (Frame op)}
    (h : Frame.encodeAll frames = .ok encoded) : split encoded = ⟨frames, none⟩ :=
  Spells.split_eq ⟨⟨encoded, h, List.append_nil _⟩, nofun⟩

/-- What follows frames that were written, and is no start of one, is given up. -/
theorem split_encodeAll {frames : List (Frame op)} (hframes : Frame.encodeAll frames = .ok encoded)
    (htail : tail = [] ∨ ∃ fault,
      (Frame.decode tail : Except FrameError (Frame op × List UInt8)) = .error fault) :
    (split (encoded ++ tail) : Chunk op).frames = frames ∧
      (split (encoded ++ tail) : Chunk op).leftover = tail := by
  by_cases hnil : tail = []
  · rw [hnil, List.append_nil, split_eq_of_encodeAll hframes]
    exact ⟨rfl, rfl⟩
  · obtain ⟨fault, hfault⟩ := htail.resolve_left hnil
    have hspells : (⟨frames, some ⟨fault, tail⟩⟩ : Chunk op).Spells (encoded ++ tail) :=
      ⟨⟨encoded, hframes, rfl⟩, fun hpart => by cases hpart; exact ⟨hnil, hfault⟩⟩
    rw [hspells.split_eq]
    exact ⟨rfl, rfl⟩

/-- A split without a fault found everything there is. -/
theorem encodeAll_of_fault_eq_none (h : (split bytes : Chunk op).fault = none) :
    Frame.encodeAll (split bytes : Chunk op).frames = .ok bytes := by
  have hspells : (split bytes : Chunk op).Spells bytes := spells_split bytes
  obtain ⟨encoded, hencoded, hbytes⟩ := hspells.whole
  have hempty : (split bytes : Chunk op).leftover = [] := by
    unfold leftover
    rw [Option.map_eq_none_iff.mp h]
  rw [hempty, List.append_nil] at hbytes
  rw [hbytes] at hencoded
  exact hencoded

/-- A chunk that is split without a fault can be cut off the front of a longer one. -/
theorem split_append (h : (split first : Chunk op).fault = none) :
    split (first ++ second) =
      (⟨(split first).frames ++ (split second).frames, (split second : Chunk op).discarded⟩ :
        Chunk op) := by
  have hspells : (split second : Chunk op).Spells second := spells_split second
  obtain ⟨encoded, hencoded, hsecond⟩ := hspells.whole
  refine Spells.split_eq ⟨⟨first ++ encoded, ?_, ?_⟩, hspells.faulty⟩
  · exact Frame.encodeAll_append_eq_ok.mpr
      ⟨first, encoded, encodeAll_of_fault_eq_none h, hencoded, rfl⟩
  · rw [List.append_assoc]
    exact congrArg (first ++ ·) hsecond

end Laws

/-- Splitting a chunk into envelopes is the inverse of writing them one after another, with a
remainder that is empty or no start of an envelope. -/
theorem split_inverse :
    (∀ bytes : List UInt8,
      let chunk : Chunk RealmOpcode := split bytes
      (∃ encoded, Frame.encodeAll chunk.frames = .ok encoded ∧
        encoded ++ chunk.leftover = bytes) ∧
      (0 < chunk.leftover.length ↔ chunk.fault.isSome) ∧
      ∀ fault, chunk.fault = some fault →
        (Frame.decode chunk.leftover : Except FrameError (Envelope × List UInt8)) =
          .error fault) ∧
    (∀ (envelopes : List Envelope) (tail : List UInt8),
      (∀ envelope ∈ envelopes, envelope.payload.length ≤ 65535) →
      (tail = [] ∨ ∃ fault,
        (Frame.decode tail : Except FrameError (Envelope × List UInt8)) = .error fault) →
      ∃ encoded, Frame.encodeAll envelopes = .ok encoded ∧
        (split (encoded ++ tail) : Chunk RealmOpcode).frames = envelopes ∧
        (split (encoded ++ tail) : Chunk RealmOpcode).leftover = tail) ∧
    (∀ first second : List UInt8, (split first : Chunk RealmOpcode).fault = none →
      let whole : Chunk RealmOpcode := split (first ++ second)
      whole.frames = (split first).frames ++ (split second).frames ∧
      whole.fault = (split second : Chunk RealmOpcode).fault ∧
      whole.leftover = (split second : Chunk RealmOpcode).leftover) := by
  refine ⟨fun bytes => ?_, fun envelopes tail hfits htail => ?_, fun first second hfirst => ?_⟩
  · have hspells : (split bytes : Chunk RealmOpcode).Spells bytes := spells_split bytes
    exact ⟨hspells.whole, hspells.leftover_pos_iff, fun _ => hspells.decode_leftover⟩
  · obtain ⟨encoded, hencoded⟩ := Frame.exists_encodeAll fun envelope hmem =>
      Nat.lt_succ_of_le (hfits envelope hmem)
    exact ⟨encoded, hencoded, split_encodeAll hencoded htail⟩
  · rw [split_append hfirst]
    exact ⟨rfl, rfl, rfl⟩

example : (split [10, 0, 0, 200, 0, 0, 10, 0, 0] : Chunk RealmOpcode) =
    ⟨[Envelope.heartbeat], some ⟨.unknownOpcode 200, [200, 0, 0, 10, 0, 0]⟩⟩ := by
  decide +kernel

end Chunk

end RealmDirectory
