import RealmDirectory.Number.Decimal
/-!
# Values of settings

A setting comes from a file or from a variable of the environment, and neither knows what kind of
value is wanted. A `SettingValue` is what was written there; `asWord?` and `asText?` turn it into
what is wanted if that makes sense.

## Main definitions

* `SettingValue.ofVariable` — the value of a variable: the most specific kind its text fits.
* `SettingValue.asWord?`, `SettingValue.asText?` — the conversions.
-/

namespace RealmDirectory

/-- A value as it was written. -/
inductive SettingValue where
  | bool (value : Bool)
  | whole (value : Int)
  | decimal (value : Binary64)
  | text (value : String)
  | list
  | table (hasEntries : Bool)
  deriving DecidableEq, Repr

namespace SettingValue

/-- The text of a truth value. -/
def boolText (value : Bool) : String := if value then "true" else "false"

/-- The truth value of a text in any case; the letters are ASCII ones. -/
def bool? (text : String) : Option Bool :=
  match text.toLower with
  | "true" => some true
  | "false" => some false
  | _ => none

/-- The value of a variable of the environment. -/
def ofVariable (text : String) : SettingValue :=
  match bool? text, Decimal.signedWord? text, Decimal.decimal? text with
  | some value, _, _ => bool value
  | none, some value, _ => whole value
  | none, none, some value => decimal value
  | none, none, none => .text text

/-- The natural number below `2 ^ 64` that a text stands for: a switch or a number. -/
def wordOfText? (text : String) : Option Nat :=
  match text.toLower with
  | "true" | "on" | "yes" => some 1
  | "false" | "off" | "no" => some 0
  | _ => Decimal.word? text

/-- A value as a natural number below `2 ^ 64`. -/
def asWord? : SettingValue → Option Nat
  | bool value => some value.toNat
  | whole value => if value < 0 then none else some value.toNat
  | decimal value => some value.toWord
  | text value => wordOfText? value
  | list | table _ => none

/-- A value as a text. -/
def asText? : SettingValue → Option String
  | bool value => some (boolText value)
  | whole value => some (toString value)
  | decimal value => some value.toText
  | text value => some value
  | list | table _ => none

end SettingValue

end RealmDirectory
