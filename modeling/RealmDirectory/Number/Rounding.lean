/-!
# Rounding quotients

A number that no finite format holds exactly is a quotient of two natural numbers here, and both
the binary formats and the decimal text are reached from it by exact arithmetic.
-/

namespace RealmDirectory

/-- The quotient `num / den` rounded to the nearest integer, a half going to the even neighbour. -/
def roundQuotient (num den : Nat) : Nat :=
  let q := num / den
  let r := num % den
  if 2 * r < den then q
  else if den < 2 * r then q + 1
  else q + q % 2

/-- The exponent `e` for which `2 ^ e ≤ num / den < 2 ^ (e + 1)`, for positive arguments. -/
def quotientExponent (num den : Nat) : Int :=
  let guess : Int := (num.log2 : Int) - (den.log2 : Int)
  let reaches : Bool :=
    if 0 ≤ guess then decide (den * Nat.pow 2 guess.toNat ≤ num)
    else decide (den ≤ num * Nat.pow 2 (-guess).toNat)
  if reaches then guess else guess - 1

end RealmDirectory
