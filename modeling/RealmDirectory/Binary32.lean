import RealmDirectory.Number.Rounding
/-!
# Single-precision numbers as bit patterns

A population figure travels as an IEEE 754 binary32 number, and the directory passes it on bit by
bit: NaN payloads and signed zeros survive. The type is therefore the 32-bit pattern itself.

The one computed figure is the share of players online, a quotient of two 32-bit counts. Each
count is first rounded to the 24 significant bits of the format, and the quotient of the rounded
counts is rounded once more; every rounding is to the nearest value, ties to the even one. Both
roundings are exact natural-number arithmetic, so no floating-point unit is involved. The counts
are below `2 ^ 33`, so a quotient is never subnormal and never overflows.
-/

namespace RealmDirectory

/-- A binary32 number, given by its bits. -/
structure Binary32 where
  bits : UInt32
  deriving DecidableEq, Repr, Inhabited

namespace Binary32

/-- Positive zero. -/
def zero : Binary32 := ⟨0⟩

/-- The integer with at most 24 significant bits that is nearest to `n`, ties to the even one. -/
def roundCount (n : Nat) : Nat :=
  let excess := (n.log2 + 1) - 24
  roundQuotient n (Nat.pow 2 excess) * Nat.pow 2 excess

/-- The binary32 number nearest to the positive quotient `num / den`; zero if `num` is. -/
def ofQuotient (num den : Nat) : Binary32 :=
  if num = 0 then zero
  else
    let e := quotientExponent num den
    let shift : Int := 23 - e
    let significand :=
      if 0 ≤ shift then roundQuotient (num * Nat.pow 2 shift.toNat) den
      else roundQuotient num (den * Nat.pow 2 (-shift).toNat)
    -- A significand that rounds up to `2 ^ 24` carries into the exponent field.
    ⟨UInt32.ofNat ((e + 126).toNat * Nat.pow 2 23 + significand)⟩

/-- The share of `online` out of `capacity` players; zero when the realm has no capacity. -/
def share (online capacity : UInt32) : Binary32 :=
  if capacity = 0 then zero
  else ofQuotient (roundCount online.toNat) (roundCount capacity.toNat)

end Binary32

end RealmDirectory
