import RealmDirectory.Number.Decimal
import RealmDirectory.Toml.Text
/-!
# TOML numbers

A whole number is decimal, or hexadecimal, octal or binary behind `0x`, `0o` or `0b`, and has 64
bits; a decimal has a fraction, an exponent or both, and is finite unless it is written `inf` or
`nan`. Underscores may stand between two digits. A decimal number has no superfluous zero in
front.
-/

namespace RealmDirectory.Toml

/-- A number. -/
inductive Number where
  | whole (value : Int)
  | decimal (value : Binary64)

/-- The value of a digit in a radix. -/
def digitIn? (radix : Nat) (c : Char) : Option Nat := (hexDigit? c).filter (· < radix)

/-- No two underscores stand side by side. -/
def noTwoUnderscores : List Char → Bool
  | a :: b :: rest => !(a = '_' && b = '_') && noTwoUnderscores (b :: rest)
  | _ => true

/-- The digits at the front, with single underscores between them, and what follows. -/
def digitRun? (radix : Nat) (cs : List Char) : Option (List Nat × List Char) :=
  let isPart (c : Char) : Bool := (digitIn? radix c).isSome || c = '_'
  let part := cs.takeWhile isPart
  if part.isEmpty ∨ part.head? = some '_' ∨ part.getLast? = some '_' ∨ !noTwoUnderscores part then
    none
  else some (part.filterMap (digitIn? radix), cs.dropWhile isPart)

/-- The natural number with some digits. -/
def ofDigits (radix : Nat) (digits : List Nat) : Nat := digits.foldl (fun n d => n * radix + d) 0

/-- A run of decimal digits without a superfluous zero in front. -/
def leadingRun? (cs : List Char) : Option (List Nat × List Char) := do
  let (digits, rest) ← digitRun? 10 cs
  if 1 < digits.length ∧ digits.head? = some 0 then none else some (digits, rest)

/-- Splits a minus off. -/
def minus : List Char → Bool × List Char
  | '-' :: rest => (true, rest)
  | cs => (false, cs)

/-- A whole number in a radix other than ten. -/
def wholeIn? (radix : Nat) (cs : List Char) : Option Number := do
  let (digits, rest) ← digitRun? radix cs
  let value := ofDigits radix digits
  if rest.isEmpty ∧ value < Nat.pow 2 63 then some (.whole value) else none

/-- A decimal whole number. -/
def whole? (cs : List Char) : Option Number := do
  let (negative, cs) := minus cs
  let (digits, rest) ← leadingRun? cs
  let value := ofDigits 10 digits
  if !rest.isEmpty then none
  else if negative then if value ≤ Nat.pow 2 63 then some (.whole (-value)) else none
  else if value < Nat.pow 2 63 then some (.whole value)
  else none

/-- The exponent that begins what is left of a run of key characters; a plus would end that run,
so it is looked for behind it. -/
def exponentOf (suffix : List Char) : Scanner Int := do
  match suffix with
  | [] => return 0
  | e :: digits =>
    if e ≠ 'e' ∧ e ≠ 'E' then StateT.lift none
    let (negative, digits) ← if digits.isEmpty then do
        let _ ← accept '+'
        pure (false, ← someRun isKeyChar)
      else pure (minus digits)
    let (digits, rest) ← StateT.lift (digitRun? 10 digits)
    if !rest.isEmpty then StateT.lift none
    let value : Int := ofDigits 10 digits
    return if negative then -value else value

/-- A decimal, given the run of key characters it begins with and the one behind the point, if
there is one. -/
def decimalOf (front : List Char) (behind : Option (List Char)) : Scanner Number := do
  let (negative, front) := minus front
  let (whole, suffix) ← StateT.lift (leadingRun? front)
  let (fraction, suffix) ← match behind with
    | none => pure ([], suffix)
    | some behind =>
      if !suffix.isEmpty then StateT.lift none
      else StateT.lift (digitRun? 10 behind)
  let exponent ← exponentOf suffix
  match Binary64.ofDecimal negative (ofDigits 10 (whole ++ fraction))
    (exponent - fraction.length) with
  | .finite negative significand exponent => return .decimal (.finite negative significand exponent)
  | _ => StateT.lift none

/-- A number that begins with a run of key characters, which has been read already. -/
def numberOf (front : List Char) : Scanner Number := do
  match front with
  | '0' :: 'x' :: digits => StateT.lift (wholeIn? 16 digits)
  | '0' :: 'o' :: digits => StateT.lift (wholeIn? 8 digits)
  | '0' :: 'b' :: digits => StateT.lift (wholeIn? 2 digits)
  | _ =>
    if front.contains 'e' ∨ front.contains 'E' then decimalOf front none
    else if ← accept '.' then do
      let behind ← someRun isKeyChar
      decimalOf front (some behind)
    else
      match String.ofList front with
      | "inf" => return .decimal (.infinite false)
      | "-inf" => return .decimal (.infinite true)
      | "nan" | "-nan" => return .decimal .nan
      | _ => StateT.lift (whole? front)

end RealmDirectory.Toml
