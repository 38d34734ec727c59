import Mathlib.Data.List.TakeWhile
import RealmDirectory.Frame.Opcode
import RealmDirectory.Payload.Code
import RealmDirectory.Payload.Count

/-!
# Reading back what was written

`Reads reader bytes value` says that the reader takes exactly these bytes off the front of a
payload and gives this value, whatever comes behind them. Readers are put together by binding, so
what a message reads is put together by `Reads.bind` from what its fields read; the only field
that needs a condition is a text, which must not hold the character NUL.

## Main results

* `Reads.bind`, `reads_times` — sequences of fields, and of items.
* `text_append_zero`, `reads_text` — texts, and that one without NUL is read back.
* `Frame.decode_encode` — a frame is taken off the front of a stream as a whole.
-/

namespace RealmDirectory.Payload

/-- The reader takes `bytes` off the front of a payload and gives `value`. -/
def Reads {α : Type} (reader : Reader α) (bytes : List UInt8) (value : α) : Prop :=
  ∀ rest, reader (bytes ++ rest) = .ok (value, rest)

section Reads

variable {α β : Type} {reader : Reader α} {bytes : List UInt8} {value : α}

theorem reads_pure (value : α) : Reads (pure value) [] value := fun _ => rfl

/-- Fields are read one after another. -/
theorem Reads.bind {next : α → Reader β} {more : List UInt8} {result : β}
    (h : Reads reader bytes value) (hnext : Reads (next value) more result) :
    Reads (reader >>= next) (bytes ++ more) result := by
  intro rest
  rw [List.append_assoc]
  show (reader (bytes ++ (more ++ rest)) >>= fun (a, left) => next a left) = .ok (result, rest)
  rw [h]
  exact hnext rest

theorem Reads.map (f : α → β) (h : Reads reader bytes value) :
    Reads (f <$> reader) bytes (f value) := by
  intro rest
  show (reader (bytes ++ rest) >>= fun (a, left) => pure (f a, left)) = .ok (f value, rest)
  rw [h]
  rfl

/-- With nothing behind them, the bytes are read to the end. -/
theorem Reads.read_all (h : Reads reader bytes value) : reader bytes = .ok (value, []) := by
  have hall := h []
  rwa [List.append_nil] at hall

/-! ## Fields -/

theorem reads_byte (field : String) (b : UInt8) : Reads (Reader.byte field) [b] b := fun _ => rfl

private theorem reads_take (field : String) {width : Nat} (hlength : bytes.length = width) :
    Reads (Reader.take field width) bytes bytes := by
  intro rest
  unfold Reader.take
  rw [List.take_left' hlength, List.drop_left' hlength]
  exact if_pos hlength

theorem reads_word (field : String) (w : UInt32) : Reads (Reader.word field) (word32 w) w := by
  have htake := reads_take field (length_word32 w)
  intro rest
  show (Reader.take field 4 (word32 w ++ rest) >>= fun (a, left) => pure (ofWord32 a, left)) = _
  rw [htake]
  show Except.ok (ofWord32 (word32 w), rest) = _
  rw [ofWord32_word32]

/-- A number is read back bit by bit, not-a-numbers included. -/
theorem reads_float (field : String) (x : Binary32) :
    Reads (Reader.float field) (word32 x.bits) x := by
  intro rest
  show (Reader.word field (word32 x.bits ++ rest) >>=
    fun (a, left) => pure ((⟨a⟩ : Binary32), left)) = _
  rw [reads_word]
  rfl

theorem reads_code [Coded α] (value : α) : Reads (Coded.read α) [Coded.code value] value := by
  intro rest
  show (Coded.ofByte (Coded.code value)).map (·, rest) = .ok (value, rest)
  rw [Coded.ofByte_code]
  rfl

/-! ## Texts -/

/-- The text does not hold the character NUL. -/
def NulFree (text : String) : Prop := Char.ofNat 0 ∉ text.toList

instance (text : String) : Decidable (NulFree text) :=
  inferInstanceAs (Decidable (¬ Char.ofNat 0 ∈ text.toList))

/-- Only the character NUL is written with a zero byte. -/
theorem zero_not_mem_utf8EncodeChar {c : Char} (hc : c ≠ Char.ofNat 0) :
    0 ∉ String.utf8EncodeChar c := by
  have hval : 0 < c.val.toNat := by
    apply Nat.pos_of_ne_zero
    intro hzero
    exact hc (Char.ext (UInt32.toNat_inj.mp hzero))
  have hbyte : ∀ {n : Nat}, 0 < n → n < 256 → (0 : UInt8) ≠ UInt8.ofNat n := by
    intro n hpos hlt heq
    have hnat := congrArg UInt8.toNat heq
    rw [UInt8.toNat_ofNat'] at hnat
    have hzero : (0 : UInt8).toNat = 0 := rfl
    omega
  unfold String.utf8EncodeChar
  dsimp only
  split
  · simp only [List.mem_cons, List.not_mem_nil, or_false]
    exact hbyte hval (by omega)
  split
  · simp only [List.mem_cons, List.not_mem_nil, or_false, not_or]
    exact ⟨hbyte (by omega) (by omega), hbyte (by omega) (by omega)⟩
  split
  · simp only [List.mem_cons, List.not_mem_nil, or_false, not_or]
    exact ⟨hbyte (by omega) (by omega), hbyte (by omega) (by omega), hbyte (by omega) (by omega)⟩
  · simp only [List.mem_cons, List.not_mem_nil, or_false, not_or]
    exact ⟨hbyte (by omega) (by omega), hbyte (by omega) (by omega), hbyte (by omega) (by omega),
      hbyte (by omega) (by omega)⟩

/-- A text is written character by character. -/
theorem utf8_eq_flatMap (text : String) :
    utf8 text = text.toList.flatMap String.utf8EncodeChar := by
  unfold utf8
  rw [← String.utf8Encode_toList, List.utf8Encode]
  simp

/-- No byte of a text without NUL is zero. -/
theorem ne_zero_of_mem_utf8 {text : String} (h : NulFree text) {b : UInt8} (hb : b ∈ utf8 text) :
    b ≠ 0 := by
  rintro rfl
  rw [utf8_eq_flatMap] at hb
  obtain ⟨c, hc, hzero⟩ := List.mem_flatMap.mp hb
  refine zero_not_mem_utf8EncodeChar ?_ hzero
  rintro rfl
  exact h hc

/-- A text without NUL is written as a whole. -/
theorem terminated_eq {text : String} (h : NulFree text) : terminated text = utf8 text ++ [0] := by
  have hall : ∀ b ∈ utf8 text, (b != 0) = true := fun b hb =>
    bne_iff_ne.mpr (ne_zero_of_mem_utf8 h hb)
  rw [terminated, List.takeWhile_eq_self_iff.mpr hall]

/-- A text is read from the bytes in front of the first zero byte. -/
theorem text_append_zero (field : String) {front : List UInt8} (h : 0 ∉ front)
    (rest : List UInt8) :
    Reader.text field (front ++ 0 :: rest) =
      match ofUtf8? front with
      | none => .error (.invalidUtf8 field)
      | some text => .ok (text, rest) := by
  have hall : ∀ b ∈ front, (b != 0) = true := fun b hb =>
    bne_iff_ne.mpr (ne_of_mem_of_not_mem hb h)
  have hdrop : (front ++ 0 :: rest).dropWhile (· != 0) = 0 :: rest := by
    rw [List.dropWhile_append_of_pos hall]
    rfl
  have htake : (front ++ 0 :: rest).takeWhile (· != 0) = front := by
    rw [List.takeWhile_append_of_pos hall]
    exact List.append_nil _
  unfold Reader.text
  rewrite [hdrop, htake]
  rfl

/-- Without a zero byte, the bytes are not looked at. -/
theorem text_of_not_mem (field : String) {bytes : List UInt8} (h : 0 ∉ bytes) :
    Reader.text field bytes = .error (.unterminatedText field) := by
  have hdrop : bytes.dropWhile (· != 0) = [] := by
    rw [List.dropWhile_eq_nil_iff]
    exact fun b hb => bne_iff_ne.mpr (ne_of_mem_of_not_mem hb h)
  unfold Reader.text
  rw [hdrop]

/-- A text without NUL is read back up to the zero behind it. -/
theorem reads_text (field : String) {text : String} (h : NulFree text) :
    Reads (Reader.text field) (terminated text) text := by
  intro rest
  have hzero : 0 ∉ utf8 text := fun hb => ne_zero_of_mem_utf8 h hb rfl
  rw [terminated_eq h, List.append_assoc, List.singleton_append, text_append_zero field hzero,
    ofUtf8?_utf8]

end Reads

/-! ## Repeated items -/

section Times

variable {α : Type} {item : Reader α} {encode : α → List UInt8}

private theorem reads_times_go {items : List α} (h : ∀ a ∈ items, Reads item (encode a) a)
    (seen : List α) (rest : List UInt8) :
    Reader.times.go item items.length seen (items.flatMap encode ++ rest) =
      .ok (seen.reverse ++ items, rest) := by
  induction items generalizing seen with
  | nil => simp [Reader.times.go]
  | cons first others ih =>
    have hfirst := h first List.mem_cons_self
    have hothers := ih (fun a ha => h a (List.mem_cons_of_mem _ ha)) (first :: seen)
    rw [List.length_cons, List.flatMap_cons, List.append_assoc]
    unfold Reader.times.go
    rw [hfirst]
    dsimp only
    rw [hothers, List.reverse_cons, List.append_assoc, List.singleton_append]

/-- Items that are read back one by one are read back in a counted loop. -/
theorem reads_times {items : List α} (h : ∀ a ∈ items, Reads item (encode a) a) :
    Reads (Reader.times items.length item) (items.flatMap encode) items :=
  fun rest => reads_times_go h [] rest

/-- Items that take up some room each, and so much of it together. -/
theorem mul_length_le_length_flatMap {room : Nat} (hroom : ∀ a, room ≤ (encode a).length)
    (items : List α) : room * items.length ≤ (items.flatMap encode).length := by
  induction items with
  | nil => exact Nat.le_refl 0
  | cons first rest ih =>
    have hfirst := hroom first
    rw [List.flatMap_cons, List.length_append, List.length_cons, Nat.mul_succ]
    omega

end Times

/-! ## Counts -/

theorem toNat_ofNat_length {α : Type} {l : List α} (h : l.length < 4294967296) :
    (UInt32.ofNat l.length).toNat = l.length := by
  rw [UInt32.toNat_ofNat']
  exact Nat.mod_eq_of_lt h

/-- Items behind their number. -/
theorem reads_counted {α : Type} {item : Reader α} {encode : α → List UInt8} {items : List α}
    (h : ∀ a ∈ items, Reads item (encode a) a) (hcount : items.length < 4294967296)
    (field : String) :
    Reads (Reader.word field >>= fun count => Reader.times count.toNat item)
      (word32 (UInt32.ofNat items.length) ++ items.flatMap encode) items := by
  apply (reads_word field _).bind
  rw [toNat_ofNat_length hcount]
  exact reads_times h

theorem toNat_ofNat_of_le {n : Nat} (h : n ≤ 255) : (UInt8.ofNat n).toNat = n := by
  rw [UInt8.toNat_ofNat']
  exact Nat.mod_eq_of_lt (Nat.lt_succ_of_le h)

/-- Builds are read back, as many as a byte can count. -/
theorem reads_builds {builds : List UInt32} (h : builds.length ≤ 255) :
    Reads (Reader.builds (UInt8.ofNat builds.length)) (builds.flatMap word32) builds := by
  unfold Reader.builds
  rw [toNat_ofNat_of_le h]
  exact reads_times fun build _ => reads_word "build_id" build

end RealmDirectory.Payload

/-! ## Frames -/

namespace RealmDirectory.Frame

open Payload (littleEndian ofLittleEndian_littleEndian length_littleEndian)

variable {op : Type} [Opcodes op]

/-- A payload that fits the length field is framed. -/
theorem exists_encode (frame : Frame op)
    (h : frame.payload.length < Nat.pow 256 (Opcodes.lengthWidth op)) :
    ∃ bytes, frame.encode = .ok bytes := ⟨_, if_pos h⟩

/-- Only the length of its payload can keep a frame from being written. -/
theorem exists_encode_iff {frame : Frame op} : (∃ bytes, frame.encode = .ok bytes) ↔
    frame.payload.length < Nat.pow 256 (Opcodes.lengthWidth op) := by
  refine ⟨?_, exists_encode frame⟩
  rintro ⟨bytes, h⟩
  unfold encode at h
  dsimp only at h
  split at h
  · assumption
  · cases h

/-- A frame that could be written is taken off the front of a stream as a whole. -/
theorem decode_encode {frame : Frame op} {bytes : List UInt8} (h : frame.encode = .ok bytes)
    (rest : List UInt8) : decode (bytes ++ rest) = .ok (frame, rest) := by
  unfold encode at h
  dsimp only at h
  split at h
  · next hfits =>
    cases h
    have hwidth := length_littleEndian (Opcodes.lengthWidth op) frame.payload.length
    have hopcode : Opcodes.ofCode? (Opcodes.code frame.opcode) = some frame.opcode :=
      Opcodes.ofCode?_eq_some_iff.mpr rfl
    have hdeclared : Payload.ofLittleEndian
        (littleEndian (Opcodes.lengthWidth op) frame.payload.length) = frame.payload.length := by
      rw [ofLittleEndian_littleEndian]
      exact Nat.mod_eq_of_lt hfits
    rw [List.cons_append, List.append_assoc]
    unfold decode
    dsimp only
    rw [List.take_left' hwidth, List.drop_left' hwidth, if_neg (by omega), hopcode]
    dsimp only
    rw [hdeclared, List.take_left, List.drop_left, if_neg (Nat.lt_irrefl _)]
  · cases h

end RealmDirectory.Frame
