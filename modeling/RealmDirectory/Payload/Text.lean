/-!
# Texts as byte sequences

Texts are UTF-8 everywhere. `utf8` lists the bytes of a text and `ofUtf8?` reads them back,
refusing every byte sequence that is not the encoding of some text: overlong forms, surrogates,
code points past the last one and sequences that are cut short.

On the wire a text ends with a zero byte. A text that itself holds the character NUL is cut there,
so that what is written can be read back.
-/

namespace RealmDirectory.Payload

/-- The UTF-8 bytes of a text. -/
def utf8 (text : String) : List UInt8 := text.toByteArray.data.toList

/-- The text whose UTF-8 bytes are given, if there is one. -/
def ofUtf8? (bytes : List UInt8) : Option String := String.fromUTF8? ⟨bytes.toArray⟩

theorem ofUtf8?_eq_some_iff {bytes : List UInt8} {text : String} :
    ofUtf8? bytes = some text ↔ utf8 text = bytes := by
  constructor
  · intro h
    unfold ofUtf8? String.fromUTF8? at h
    split at h
    · cases h
      simp [utf8, String.fromUTF8]
    · cases h
  · intro h
    subst h
    have hvalid : (⟨(utf8 text).toArray⟩ : ByteArray).IsValidUTF8 := by
      simpa [utf8] using text.isValidUTF8
    unfold ofUtf8? String.fromUTF8?
    rw [dif_pos hvalid]
    congr 1

@[simp] theorem ofUtf8?_utf8 (text : String) : ofUtf8? (utf8 text) = some text :=
  ofUtf8?_eq_some_iff.mpr rfl

/-- The bytes of a text up to its first NUL, then the terminator. -/
def terminated (text : String) : List UInt8 :=
  (utf8 text).takeWhile (· != 0) ++ [0]

end RealmDirectory.Payload
