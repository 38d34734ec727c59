import RealmDirectory.Proofs.Payload.Reads

/-!
# The bytes of texts

A text is written character by character, and each character takes one to four bytes. Which byte
sequences these are is said here without the code of any character: a lead byte, as many bytes that
go on as it announces, and three restrictions that leave every character one form only and leave no
form to what is no character.

A sequence of such forms is what a text can be read from, and nothing else is: overlong forms,
surrogates, codes past the last one and forms that are cut short are all refused.

## Main definitions

* `IsCharacter` — the forms of characters.
* `IsUtf8` — sequences of them.

## Main results

* `isCharacter_iff` — the forms are what characters are written as.
* `isUtf8_iff`, `ofUtf8?_eq_none_iff` — the sequences are what texts are written as and read from.
-/

namespace RealmDirectory.Payload

/-- A byte that goes on a character. -/
def GoesOn (b : UInt8) : Prop := 0x80 ≤ b.toNat ∧ b.toNat < 0xc0

/-- The forms of characters, by the number of their bytes. -/
inductive IsCharacter : List UInt8 → Prop where
  | one {a : UInt8} (lead : a.toNat < 0x80) : IsCharacter [a]
  /-- The lead bytes `0xc0` and `0xc1` would write again what fits one byte. -/
  | two {a b : UInt8} (lead : 0xc2 ≤ a.toNat ∧ a.toNat < 0xe0) (hb : GoesOn b) : IsCharacter [a, b]
  /-- No form of a character that fits two bytes, and none of a surrogate. -/
  | three {a b c : UInt8} (lead : 0xe0 ≤ a.toNat ∧ a.toNat < 0xf0) (hb : GoesOn b) (hc : GoesOn c)
      (shortest : a.toNat = 0xe0 → 0xa0 ≤ b.toNat)
      (noSurrogate : a.toNat = 0xed → b.toNat < 0xa0) : IsCharacter [a, b, c]
  /-- No form of a character that fits three bytes, and none past the last character. -/
  | four {a b c d : UInt8} (lead : 0xf0 ≤ a.toNat ∧ a.toNat < 0xf5) (hb : GoesOn b)
      (hc : GoesOn c) (hd : GoesOn d) (shortest : a.toNat = 0xf0 → 0x90 ≤ b.toNat)
      (inRange : a.toNat = 0xf4 → b.toNat < 0x90) : IsCharacter [a, b, c, d]

/-- Forms of characters, one after another. -/
inductive IsUtf8 : List UInt8 → Prop where
  | nil : IsUtf8 []
  | cons {first rest : List UInt8} (hfirst : IsCharacter first) (hrest : IsUtf8 rest) :
      IsUtf8 (first ++ rest)

/-! ## Characters -/

private theorem goesOn_ofNat (n : Nat) : GoesOn (UInt8.ofNat (n % 64 + 128)) := by
  unfold GoesOn
  rw [toNat_ofNat_of_le (by omega)]
  omega

/-- What a character is written as has its form. -/
theorem isCharacter_encode (c : Char) : IsCharacter (String.utf8EncodeChar c) := by
  have hvalid : c.val.toNat < 0xd800 ∨ 0xdfff < c.val.toNat ∧ c.val.toNat < 0x110000 := c.valid
  unfold String.utf8EncodeChar
  generalize c.val.toNat = v at hvalid
  dsimp only
  split
  · apply IsCharacter.one
    rw [toNat_ofNat_of_le (by omega)]
    omega
  split
  · refine .two ?_ (goesOn_ofNat v)
    rw [toNat_ofNat_of_le (by omega)]
    omega
  split
  · have hlead := toNat_ofNat_of_le (n := v / 4096 % 16 + 224) (by omega)
    have hnext := toNat_ofNat_of_le (n := v / 64 % 64 + 128) (by omega)
    refine .three ?_ (goesOn_ofNat _) (goesOn_ofNat v) ?_ ?_
    · omega
    · omega
    · omega
  · have hlead := toNat_ofNat_of_le (n := v / 262144 % 8 + 240) (by omega)
    have hnext := toNat_ofNat_of_le (n := v / 4096 % 64 + 128) (by omega)
    refine .four ?_ (goesOn_ofNat _) (goesOn_ofNat _) (goesOn_ofNat v) ?_ ?_
    · omega
    · omega
    · omega

private theorem exists_char_of_code {v : Nat} (h : v.isValidChar) :
    ∃ c : Char, c.val.toNat = v := by
  refine ⟨Char.ofNat v, ?_⟩
  unfold Char.ofNat
  rw [dif_pos h]
  rfl

/-- Every form is that of a character: its bytes hold the code in digits to the base 64. -/
theorem exists_char_of_isCharacter {bytes : List UInt8} (h : IsCharacter bytes) :
    ∃ c, String.utf8EncodeChar c = bytes := by
  cases h with
  | @one a lead =>
    obtain ⟨code, hcode⟩ := exists_char_of_code (v := a.toNat) (.inl (by omega))
    refine ⟨code, ?_⟩
    unfold String.utf8EncodeChar
    dsimp only
    rw [hcode, if_pos (by omega), UInt8.ofNat_toNat]
  | @two a b lead hb =>
    unfold GoesOn at hb
    obtain ⟨v, hv⟩ : ∃ v, v = (a.toNat - 192) * 64 + (b.toNat - 128) := ⟨_, rfl⟩
    have hlead : v / 64 % 32 + 192 = a.toNat := by omega
    have hlast : v % 64 + 128 = b.toNat := by omega
    obtain ⟨code, hcode⟩ := exists_char_of_code (v := v) (.inl (by omega))
    refine ⟨code, ?_⟩
    unfold String.utf8EncodeChar
    dsimp only
    rw [hcode, if_neg (by omega), if_pos (by omega), hlead, hlast, UInt8.ofNat_toNat,
      UInt8.ofNat_toNat]
  | @three a b c lead hb hc shortest noSurrogate =>
    unfold GoesOn at hb hc
    obtain ⟨v, hv⟩ : ∃ v, v = (a.toNat - 224) * 4096 + (b.toNat - 128) * 64 + (c.toNat - 128) :=
      ⟨_, rfl⟩
    have hlead : v / 4096 % 16 + 224 = a.toNat := by omega
    have hnext : v / 64 % 64 + 128 = b.toNat := by omega
    have hlast : v % 64 + 128 = c.toNat := by omega
    have hvalid : v.isValidChar := by
      unfold Nat.isValidChar
      omega
    obtain ⟨code, hcode⟩ := exists_char_of_code hvalid
    refine ⟨code, ?_⟩
    unfold String.utf8EncodeChar
    dsimp only
    rw [hcode, if_neg (by omega), if_neg (by omega), if_pos (by omega), hlead, hnext, hlast,
      UInt8.ofNat_toNat, UInt8.ofNat_toNat, UInt8.ofNat_toNat]
  | @four a b c d lead hb hc hd shortest inRange =>
    unfold GoesOn at hb hc hd
    obtain ⟨v, hv⟩ : ∃ v, v = (a.toNat - 240) * 262144 + (b.toNat - 128) * 4096 +
        (c.toNat - 128) * 64 + (d.toNat - 128) := ⟨_, rfl⟩
    have hlead : v / 262144 % 8 + 240 = a.toNat := by omega
    have hnext : v / 4096 % 64 + 128 = b.toNat := by omega
    have hthird : v / 64 % 64 + 128 = c.toNat := by omega
    have hlast : v % 64 + 128 = d.toNat := by omega
    have hvalid : v.isValidChar := by
      unfold Nat.isValidChar
      omega
    obtain ⟨code, hcode⟩ := exists_char_of_code hvalid
    refine ⟨code, ?_⟩
    unfold String.utf8EncodeChar
    dsimp only
    rw [hcode, if_neg (by omega), if_neg (by omega), if_neg (by omega), hlead, hnext, hthird,
      hlast, UInt8.ofNat_toNat, UInt8.ofNat_toNat, UInt8.ofNat_toNat, UInt8.ofNat_toNat]

/-- The forms are what characters are written as, and nothing else. -/
theorem isCharacter_iff {bytes : List UInt8} :
    IsCharacter bytes ↔ ∃ c, String.utf8EncodeChar c = bytes := by
  constructor
  · exact exists_char_of_isCharacter
  · rintro ⟨c, rfl⟩
    exact isCharacter_encode c

/-! ## Texts -/

/-- A text is written in the forms of its characters. -/
theorem isUtf8_utf8 (text : String) : IsUtf8 (utf8 text) := by
  rw [utf8_eq_flatMap]
  induction text.toList with
  | nil => exact .nil
  | cons c rest ih =>
    rw [List.flatMap_cons]
    exact .cons (isCharacter_encode c) ih

theorem IsCharacter.lt_of_mem {bytes : List UInt8} (h : IsCharacter bytes) {b : UInt8}
    (hb : b ∈ bytes) : b.toNat < 0xf5 := by
  cases h with
  | one lead =>
    simp only [List.mem_singleton] at hb
    subst hb
    omega
  | two lead hb' =>
    unfold GoesOn at hb'
    simp only [List.mem_cons, List.not_mem_nil, or_false] at hb
    obtain rfl | rfl := hb <;> omega
  | three lead hb' hc =>
    unfold GoesOn at hb' hc
    simp only [List.mem_cons, List.not_mem_nil, or_false] at hb
    obtain rfl | rfl | rfl := hb <;> omega
  | four lead hb' hc hd =>
    unfold GoesOn at hb' hc hd
    simp only [List.mem_cons, List.not_mem_nil, or_false] at hb
    obtain rfl | rfl | rfl | rfl := hb <;> omega

/-- No byte is larger than the last lead byte. -/
theorem IsUtf8.lt_of_mem {bytes : List UInt8} (h : IsUtf8 bytes) {b : UInt8} (hb : b ∈ bytes) :
    b.toNat < 0xf5 := by
  induction h with
  | nil => cases hb
  | cons hfirst _ ih =>
    rcases List.mem_append.mp hb with hmem | hmem
    · exact hfirst.lt_of_mem hmem
    · exact ih hmem

private theorem exists_text_of_isUtf8 {bytes : List UInt8} (h : IsUtf8 bytes) :
    ∃ text, utf8 text = bytes := by
  induction h with
  | nil => exact ⟨"", rfl⟩
  | cons hfirst _ ih =>
    obtain ⟨c, rfl⟩ := exists_char_of_isCharacter hfirst
    obtain ⟨text, rfl⟩ := ih
    refine ⟨String.ofList (c :: text.toList), ?_⟩
    rw [utf8_eq_flatMap, utf8_eq_flatMap, String.toList_ofList, List.flatMap_cons]

/-- Sequences of the forms of characters are what texts are written as. -/
theorem isUtf8_iff {bytes : List UInt8} : IsUtf8 bytes ↔ ∃ text, utf8 text = bytes := by
  constructor
  · exact exists_text_of_isUtf8
  · rintro ⟨text, rfl⟩
    exact isUtf8_utf8 text

/-- Everything else is refused. -/
theorem ofUtf8?_eq_none_iff {bytes : List UInt8} : ofUtf8? bytes = none ↔ ¬ IsUtf8 bytes := by
  rw [isUtf8_iff, not_exists, Option.eq_none_iff_forall_ne_some]
  exact forall_congr' fun text => not_congr ofUtf8?_eq_some_iff

end RealmDirectory.Payload
