import RealmDirectory.Payload.Field
import RealmDirectory.Proofs.Payload.Accepts
import RealmDirectory.Proofs.Payload.Utf8

/-!
# Terminated texts

A text is read up to a zero byte, which belongs to no character but NUL. So there are three cases,
told apart by the bytes that are left of a payload: none of them is zero, and the text has no end;
those in front of the first zero byte are the characters of a text, which has no NUL; or they are
no characters, and the payload is refused for that. A read that fails moves nowhere.

The same fact makes a text that is written end at its first NUL between two characters, wherever
that is, and so what is written is always read back.

## Main results

* `textOutcome` — the three cases of a read.
* `text_eq_ok_iff`, `text_eq_unterminated_iff`, `text_eq_invalid_iff` — which one it is.
* `upToNul_eq_of_split` — what is kept of a text with a NUL.
* `terminated_texts` — reading at any place of a payload, and writing any text.
-/

namespace RealmDirectory.Payload

variable {field : String} {bytes : List UInt8}

/-! ## Reading -/

/-- What the read of a text can come to, and the bytes for which it does. -/
inductive TextOutcome (field : String) (bytes : List UInt8) :
    Except FieldError (String × List UInt8) → Prop where
  | given {text : String} {rest : List UInt8} (hplain : NulFree text)
      (hbytes : bytes = utf8 text ++ 0 :: rest) : TextOutcome field bytes (.ok (text, rest))
  | unterminated (hnone : 0 ∉ bytes) : TextOutcome field bytes (.error (.unterminatedText field))
  | invalid {front rest : List UInt8} (hbytes : bytes = front ++ 0 :: rest) (hfront : 0 ∉ front)
      (hinvalid : ¬ IsUtf8 front) : TextOutcome field bytes (.error (.invalidUtf8 field))

/-- Reading a text has one of three outcomes. -/
theorem textOutcome (field : String) (bytes : List UInt8) :
    TextOutcome field bytes (Reader.text field bytes) := by
  by_cases hzero : 0 ∈ bytes
  · obtain ⟨front, rest, rfl, hfront⟩ := List.eq_append_cons_of_mem hzero
    rw [text_append_zero field hfront]
    cases htext : ofUtf8? front with
    | none => exact .invalid rfl hfront (ofUtf8?_eq_none_iff.mp htext)
    | some text =>
      obtain rfl := ofUtf8?_eq_some_iff.mp htext
      exact .given (nulFree_iff.mpr hfront) rfl
  · rw [text_of_not_mem field hzero]
    exact .unterminated hzero

/-- A text is given for its bytes and its terminator. -/
theorem text_eq_ok_iff {text : String} {rest : List UInt8} :
    Reader.text field bytes = .ok (text, rest) ↔
      NulFree text ∧ bytes = utf8 text ++ 0 :: rest := by
  constructor
  · intro h
    have houtcome := textOutcome field bytes
    rw [h] at houtcome
    cases houtcome with
    | given hplain hbytes => exact ⟨hplain, hbytes⟩
  · rintro ⟨hplain, rfl⟩
    rw [text_append_zero field (nulFree_iff.mp hplain), ofUtf8?_utf8]

/-- A text without an end is refused for that, whatever its bytes are. -/
theorem text_eq_unterminated_iff :
    Reader.text field bytes = .error (.unterminatedText field) ↔ 0 ∉ bytes := by
  constructor
  · intro h
    have houtcome := textOutcome field bytes
    rw [h] at houtcome
    cases houtcome with
    | unterminated hnone => exact hnone
  · exact text_of_not_mem field

/-- A text with an end is refused if something else than characters stands in front of it. -/
theorem text_eq_invalid_iff :
    Reader.text field bytes = .error (.invalidUtf8 field) ↔
      ∃ front rest, bytes = front ++ 0 :: rest ∧ 0 ∉ front ∧ ¬ IsUtf8 front := by
  constructor
  · intro h
    have houtcome := textOutcome field bytes
    rw [h] at houtcome
    cases houtcome with
    | invalid hbytes hfront hinvalid => exact ⟨_, _, hbytes, hfront, hinvalid⟩
  · rintro ⟨front, rest, rfl, hfront, hinvalid⟩
    rw [text_append_zero field hfront, ofUtf8?_eq_none_iff.mpr hinvalid]

/-- A text and its terminator come next. -/
def StartsText (bytes : List UInt8) : Prop :=
  ∃ text rest, NulFree text ∧ bytes = utf8 text ++ 0 :: rest

/-- A text is refused for its bytes exactly if it has an end, and yet none comes next. -/
theorem text_eq_invalid_iff_not_startsText :
    Reader.text field bytes = .error (.invalidUtf8 field) ↔ 0 ∈ bytes ∧ ¬ StartsText bytes := by
  constructor
  · intro h
    obtain ⟨front, rest, rfl, -, -⟩ := text_eq_invalid_iff.mp h
    refine ⟨List.mem_append_right front List.mem_cons_self, ?_⟩
    rintro ⟨text, behind, hplain, hbytes⟩
    rw [text_eq_ok_iff.mpr ⟨hplain, hbytes⟩] at h
    cases h
  · rintro ⟨hzero, hnone⟩
    have houtcome := textOutcome field bytes
    generalize Reader.text field bytes = result at houtcome
    cases houtcome with
    | given hplain hbytes => exact absurd ⟨_, _, hplain, hbytes⟩ hnone
    | unterminated habsent => exact absurd hzero habsent
    | invalid => rfl

/-- What the read of a text comes to at some place of a payload. -/
structure TextReading (field : String) (payload : List UInt8) (position : Nat) : Prop where
  /-- A text is given if its bytes come next and a zero byte behind them, whatever comes then. The
  reading goes on right behind the zero byte. -/
  given_iff : ∀ {text rest}, Reader.text field (payload.drop position) = .ok (text, rest) ↔
    (NulFree text ∧ ∃ behind, payload.drop position = utf8 text ++ 0 :: behind) ∧
      rest = payload.drop (position + ((utf8 text).length + 1))
  unterminated_iff : Reader.text field (payload.drop position) =
    .error (.unterminatedText field) ↔ 0 ∉ payload.drop position
  /-- In all other cases the bytes are those of no text. -/
  otherwise_iff : Reader.text field (payload.drop position) = .error (.invalidUtf8 field) ↔
    0 ∈ payload.drop position ∧ ¬ StartsText (payload.drop position)
  /-- They are something else than characters in front of the first zero byte. -/
  invalid_iff : Reader.text field (payload.drop position) = .error (.invalidUtf8 field) ↔
    ∃ front behind, payload.drop position = front ++ 0 :: behind ∧ 0 ∉ front ∧ ¬ IsUtf8 front
  /-- Whatever is read after a failed read is read from where that one began, and the fault is one
  of the two. -/
  unmoved : ∀ {cause}, Reader.text field (payload.drop position) = .error cause →
    (cause = .unterminatedText field ∨ cause = .invalidUtf8 field) ∧
      ∀ more, attemptAll ((.text, field) :: more) (payload.drop position) =
        ⟨.error cause, (payload.drop position).length⟩ :: attemptAll more (payload.drop position)

/-- A text and its terminator take up one byte more than the text. -/
theorem drop_text (text : String) (rest : List UInt8) :
    (utf8 text ++ 0 :: rest).drop ((utf8 text).length + 1) = rest := by
  rw [List.drop_append, List.drop_of_length_le (Nat.le_succ _), Nat.add_sub_cancel_left]
  rfl

/-- What reading a text gives, and where it leaves the position. -/
theorem textReading (field : String) (payload : List UInt8) (position : Nat) :
    TextReading field payload position where
  given_iff := by
    intro text rest
    rw [text_eq_ok_iff, ← List.drop_drop]
    constructor
    · rintro ⟨hplain, hbytes⟩
      refine ⟨⟨hplain, rest, hbytes⟩, ?_⟩
      rw [hbytes, drop_text]
    · rintro ⟨⟨hplain, behind, hbytes⟩, hrest⟩
      rw [hbytes, drop_text] at hrest
      rw [hrest]
      exact ⟨hplain, hbytes⟩
  unterminated_iff := text_eq_unterminated_iff
  otherwise_iff := text_eq_invalid_iff_not_startsText
  invalid_iff := text_eq_invalid_iff
  unmoved := by
    intro cause h
    constructor
    · have houtcome := textOutcome field (payload.drop position)
      rw [h] at houtcome
      cases houtcome with
      | unterminated => exact .inl rfl
      | invalid => exact .inr rfl
    · intro more
      have hread : FieldKind.read field .text (payload.drop position) = .error cause := by
        show (Reader.text field (payload.drop position) >>= _) = .error cause
        rw [h]
        rfl
      rw [attemptAll, hread]

/-! ## Writing -/

/-- All of a text is kept that has no NUL. -/
theorem upToNul_eq_self {text : String} (h : NulFree text) : upToNul text = text := by
  have hall : ∀ c ∈ text.toList, (c != Char.ofNat 0) = true := fun c hc =>
    bne_iff_ne.mpr (ne_of_mem_of_not_mem hc h)
  unfold upToNul
  rw [List.takeWhile_eq_self_iff.mpr hall, String.ofList_toList]

/-- What stands in front of the first NUL is kept, and nothing from there on. -/
theorem upToNul_eq_of_split {text : String} {front behind : List Char}
    (h : text.toList = front ++ Char.ofNat 0 :: behind) (hfront : Char.ofNat 0 ∉ front) :
    upToNul text = String.ofList front := by
  have hall : ∀ c ∈ front, (c != Char.ofNat 0) = true := fun c hc =>
    bne_iff_ne.mpr (ne_of_mem_of_not_mem hc hfront)
  unfold upToNul
  rw [h, List.takeWhile_append_of_pos hall]
  exact congrArg String.ofList (List.append_nil front)

/-- What follows the first zero byte of a text, and that byte, are characters of the text. -/
theorem dropWhile_utf8 (text : String) :
    (utf8 text).dropWhile (· != 0) =
      utf8 (String.ofList (text.toList.dropWhile (· != Char.ofNat 0))) := by
  have hsplit : utf8 text = utf8 (upToNul text) ++
      utf8 (String.ofList (text.toList.dropWhile (· != Char.ofNat 0))) := by
    rw [upToNul, utf8_eq_flatMap, utf8_eq_flatMap, utf8_eq_flatMap, String.toList_ofList,
      String.toList_ofList, ← List.flatMap_append, List.takeWhile_append_dropWhile]
  have hfront : (utf8 text).takeWhile (· != 0) ++ (utf8 text).dropWhile (· != 0) =
      (utf8 text).takeWhile (· != 0) ++
        utf8 (String.ofList (text.toList.dropWhile (· != Char.ofNat 0))) := by
    rw [List.takeWhile_append_dropWhile, ← utf8_upToNul]
    exact hsplit
  exact List.append_cancel_left hfront

/-- What is written of a text, and what is read from that. -/
structure TextWriting (text : String) : Prop where
  /-- The characters up to the first NUL, and a zero byte. -/
  written : terminated text = utf8 (upToNul text) ++ [0]
  whole : NulFree text → upToNul text = text
  cut : ∀ {front behind}, text.toList = front ++ Char.ofNat 0 :: behind → Char.ofNat 0 ∉ front →
    upToNul text = String.ofList front
  /-- The first zero byte of the whole text stands between two characters. -/
  between : IsUtf8 ((utf8 text).takeWhile (· != 0)) ∧ IsUtf8 ((utf8 text).dropWhile (· != 0))
  readBack : ∀ field rest, Reader.text field (terminated text ++ rest) = .ok (upToNul text, rest)

/-- What is written of a text, and what is read of that. -/
theorem textWriting (text : String) : TextWriting text where
  written := by rw [terminated, utf8_upToNul]
  whole := upToNul_eq_self
  cut := upToNul_eq_of_split
  between := by
    rw [← utf8_upToNul, dropWhile_utf8]
    exact ⟨isUtf8_utf8 _, isUtf8_utf8 _⟩
  readBack := by
    intro field rest
    rw [← terminated_upToNul]
    exact reads_text field (nulFree_upToNul text) rest

/-- A text is read at any place of a payload where one with a terminator stands, and it is written
so that this is the case. -/
theorem terminated_texts (field : String) (payload : List UInt8) (position : Nat) (text : String) :
    TextReading field payload position ∧ TextWriting text :=
  ⟨textReading field payload position, textWriting text⟩

end RealmDirectory.Payload
