/-!
# Blank text

The characters with the Unicode property `White_Space`, and the texts that have no others.
-/

namespace RealmDirectory

/-- The first and the last character of each run of `White_Space`. -/
def blankRanges : List (Nat × Nat) :=
  [(0x9, 0xd), (0x20, 0x20), (0x85, 0x85), (0xa0, 0xa0), (0x1680, 0x1680), (0x2000, 0x200a),
    (0x2028, 0x2029), (0x202f, 0x202f), (0x205f, 0x205f), (0x3000, 0x3000)]

/-- A character of `White_Space`. -/
def isBlankChar (c : Char) : Bool :=
  blankRanges.any fun (first, last) => first ≤ c.toNat && c.toNat ≤ last

/-- A text that is empty or nothing but blanks. -/
def isBlank (text : String) : Bool := text.toList.all isBlankChar

end RealmDirectory
