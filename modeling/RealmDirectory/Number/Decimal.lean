import RealmDirectory.Number.Binary64
/-!
# Numbers in text

How a text is read as a number: a whole number is a run of digits behind an optional sign, and a
decimal may have a fraction, an exponent, and the names of infinity and of no number at all. No
blanks, no separators and no other digits than the ten ASCII ones are allowed.
-/

namespace RealmDirectory.Decimal

/-- The value of a run of digits; `none` if there is none or something else among them. -/
def digits? (cs : List Char) : Option Nat :=
  if cs.isEmpty ∨ !cs.all Char.isDigit then none
  else some (cs.foldl (fun n c => n * 10 + (c.toNat - '0'.toNat)) 0)

/-- Splits a sign off; it is negative for a minus. -/
def sign : List Char → Bool × List Char
  | '-' :: rest => (true, rest)
  | '+' :: rest => (false, rest)
  | cs => (false, cs)

/-- A natural number below `2 ^ 64`, with an optional plus in front. -/
def word? (text : String) : Option Nat := do
  let digits := match text.toList with
    | '+' :: rest => rest
    | cs => cs
  let value ← digits? digits
  if value < Nat.pow 2 64 then some value else none

/-- A signed number of 64 bits. -/
def signedWord? (text : String) : Option Int := do
  let (negative, digits) := sign text.toList
  let value ← digits? digits
  if negative then (if value ≤ Nat.pow 2 63 then some (-value) else none)
  else (if value < Nat.pow 2 63 then some value else none)

/-- The exponent behind an `e`, zero if there is none. -/
def exponent? : List Char → Option Int
  | [] => some 0
  | e :: rest =>
    if e = 'e' ∨ e = 'E' then do
      let (negative, digits) := sign rest
      let value ← digits? digits
      some (if negative then -value else value)
    else none

/-- Digits with an optional fraction and an optional exponent; either side of the point may be
empty, but not both. -/
def unsigned? (negative : Bool) (cs : List Char) : Option Binary64 := do
  let whole := cs.takeWhile Char.isDigit
  let rest := cs.dropWhile Char.isDigit
  let (fraction, rest) := match rest with
    | '.' :: rest => (rest.takeWhile Char.isDigit, rest.dropWhile Char.isDigit)
    | rest => ([], rest)
  let value ← digits? (whole ++ fraction)
  let exponent ← exponent? rest
  some (Binary64.ofDecimal negative value (exponent - fraction.length))

/-- A decimal number. -/
def decimal? (text : String) : Option Binary64 :=
  let (negative, rest) := sign text.toList
  match String.ofList (rest.map Char.toLower) with
  | "inf" | "infinity" => some (.infinite negative)
  | "nan" => some .nan
  | _ => unsigned? negative rest

end RealmDirectory.Decimal
