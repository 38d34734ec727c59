import RealmDirectory.Number.Rounding
/-!
# Double-precision numbers

A setting may be written as a decimal fraction, and is then kept as the IEEE 754 binary64 number
nearest to it. A `Binary64` is that number taken apart: a sign, a natural significand below
`2 ^ 53` and the power of two it is multiplied by. All arithmetic is exact, so no floating-point
unit is involved.

A number becomes text by the fewest digits that read back as the same number, and of these the
nearest, of two equally near ones the greater; an exponent is never written.

## Main definitions

* `Binary64.ofDecimal` — the number nearest to a decimal.
* `Binary64.toWord` — the nearest whole number.
* `Binary64.toText` — the shortest text.
-/

namespace RealmDirectory

/-- A binary64 number; a finite one is the significand times two to the exponent. -/
inductive Binary64 where
  | finite (negative : Bool) (significand : Nat) (exponent : Int)
  | infinite (negative : Bool)
  | nan
  deriving DecidableEq, Repr

namespace Binary64

/-- The least exponent of a significand. -/
def minExponent : Int := -1074

/-- The greatest exponent of a significand. -/
def maxExponent : Int := 971

/-- The number of decimal digits of a natural number. -/
def digitCount (n : Nat) : Nat := (Nat.toDigits 10 n).length

/-- The quotient `num / den` of positive numbers rounded to the nearest finite number or
infinity, ties to the even significand. -/
def ofQuotient (negative : Bool) (num den : Nat) : Binary64 :=
  let exponent := max (quotientExponent num den - 52) minExponent
  let significand :=
    if 0 ≤ exponent then roundQuotient num (den * Nat.pow 2 exponent.toNat)
    else roundQuotient (num * Nat.pow 2 (-exponent).toNat) den
  -- A significand that rounds up to `2 ^ 53` has the next exponent.
  let (significand, exponent) :=
    if significand = Nat.pow 2 53 then (Nat.pow 2 52, exponent + 1) else (significand, exponent)
  if maxExponent < exponent then infinite negative else finite negative significand exponent

/-- The number nearest to `digits` times ten to the `scale`. What is beyond the range of the
format by several powers of ten is decided by its size alone. -/
def ofDecimal (negative : Bool) (digits : Nat) (scale : Int) : Binary64 :=
  let size := digitCount digits + scale
  if digits = 0 ∨ size < -330 then finite negative 0 minExponent
  else if 330 < size then infinite negative
  else if 0 ≤ scale then ofQuotient negative (digits * Nat.pow 10 scale.toNat) 1
  else ofQuotient negative digits (Nat.pow 10 (-scale).toNat)

/-- The whole number nearest to this one, a half going away from zero, within the range of a
64-bit word. A number that is none counts as zero. -/
def toWord : Binary64 → Nat
  | finite true _ _ => 0
  | finite false significand exponent =>
    let nearest :=
      if 0 ≤ exponent then significand * Nat.pow 2 exponent.toNat
      else (2 * significand + Nat.pow 2 (-exponent).toNat) / Nat.pow 2 ((-exponent).toNat + 1)
    min nearest (Nat.pow 2 64 - 1)
  | infinite true => 0
  | infinite false => Nat.pow 2 64 - 1
  | nan => 0

/-! ## Shortest text -/

/-- Compares the decimal `digits` times ten to the `scale` with `quarters` times two to the
`exponent`. -/
def compareDecimal (digits : Nat) (scale : Int) (quarters : Nat) (exponent : Int) : Ordering :=
  compare (digits * Nat.pow 10 scale.toNat * Nat.pow 2 (-exponent).toNat)
    (quarters * Nat.pow 2 exponent.toNat * Nat.pow 10 (-scale).toNat)

/-- A decimal rounds to the number with this significand and exponent: it is no farther away than
half the step to the next number. Exactly half counts for an even significand. -/
def roundsTo (significand : Nat) (exponent : Int) (digits : Nat) (scale : Int) : Bool :=
  -- The step below a power of two is half of that above it.
  let below := if significand = Nat.pow 2 52 ∧ minExponent < exponent then 1 else 2
  let low := compareDecimal digits scale (4 * significand - below) (exponent - 2)
  let high := compareDecimal digits scale (4 * significand + 2) (exponent - 2)
  let isEven := significand % 2 = 0
  (low = .gt ∨ (low = .eq ∧ isEven)) ∧ (high = .lt ∨ (high = .eq ∧ isEven))

/-- The multiple of ten to the `scale` that is nearest to a number, the greater of two equally near
ones, if it rounds to that number. -/
def nearestMultiple? (significand : Nat) (exponent scale : Int) : Option Nat :=
  let num := significand * Nat.pow 2 exponent.toNat * Nat.pow 10 (-scale).toNat
  let den := Nat.pow 2 (-exponent).toNat * Nat.pow 10 scale.toNat
  let floor := num / den
  let candidates := if 2 * (num % den) < den then [floor, floor + 1] else [floor + 1, floor]
  candidates.find? fun digits => 0 < digits && roundsTo significand exponent digits scale

/-- The powers of ten that the last digit of a text may stand for, the greatest first. -/
def scales : List Int := (List.range 652).map fun (i : Nat) => 309 - (i : Int)

/-- The shortest decimal that rounds to a positive number, as its digits and a power of ten. -/
def shortest (significand : Nat) (exponent : Int) : Nat × Int :=
  (scales.findSome? fun scale =>
    (nearestMultiple? significand exponent scale).map (·, scale)).getD (0, 0)

/-- The decimal `digits` times ten to the `scale`, written without an exponent. -/
def positional (digits : Nat) (scale : Int) : String :=
  let ds := Nat.toDigits 10 digits
  if 0 ≤ scale then String.ofList (ds ++ List.replicate scale.toNat '0')
  else
    let places := (-scale).toNat
    let padded := List.replicate (places + 1 - ds.length) '0' ++ ds
    let whole := padded.length - places
    String.ofList (padded.take whole ++ ('.' :: padded.drop whole))

/-- The sign in front of a text. -/
def signText (negative : Bool) : String := if negative then "-" else ""

/-- The text of a number. -/
def toText : Binary64 → String
  | finite negative significand exponent =>
    if significand = 0 then signText negative ++ "0"
    else
      let (digits, scale) := shortest significand exponent
      signText negative ++ positional digits scale
  | infinite negative => signText negative ++ "inf"
  | nan => "NaN"

end Binary64

end RealmDirectory
