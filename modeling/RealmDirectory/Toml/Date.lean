import RealmDirectory.Toml.Text
/-!
# TOML dates

A date, a time of day, or both with an optional offset. A `DateTime` is checked field by field, not
against the calendar, and has one written form.
-/

namespace RealmDirectory.Toml

/-- A day. -/
structure Day where
  year : Nat
  month : Nat
  day : Nat
  deriving DecidableEq, Repr

/-- A time of day. -/
structure Clock where
  hour : Nat
  minute : Nat
  second : Nat
  nanosecond : Nat
  deriving DecidableEq, Repr

/-- How far a clock is ahead. -/
inductive ZoneOffset where
  | zulu
  | ahead (hours : Int) (minutes : Nat)
  deriving DecidableEq, Repr

/-- A date, a time of day, or both. -/
structure DateTime where
  day : Option Day
  clock : Option Clock
  offset : Option ZoneOffset
  deriving DecidableEq, Repr

/-! ## Written form -/

/-- A natural number with at least `width` digits. -/
def padded (width n : Nat) : String :=
  let ds := Nat.toDigits 10 n
  String.ofList (List.replicate (width - ds.length) '0' ++ ds)

/-- The written form of a day. -/
def Day.toText (d : Day) : String :=
  padded 4 d.year ++ "-" ++ padded 2 d.month ++ "-" ++ padded 2 d.day

/-- The written form of a time of day; a fraction has no zeros at its end. -/
def Clock.toText (c : Clock) : String :=
  let fraction := ((padded 9 c.nanosecond).toList.reverse.dropWhile (· = '0')).reverse
  padded 2 c.hour ++ ":" ++ padded 2 c.minute ++ ":" ++ padded 2 c.second ++
    (if fraction.isEmpty then "" else "." ++ String.ofList fraction)

/-- The written form of an offset. -/
def ZoneOffset.toText : ZoneOffset → String
  | zulu => "Z"
  | ahead hours minutes =>
    (if hours < 0 then "-" else "+") ++ padded 2 hours.natAbs ++ ":" ++ padded 2 minutes

/-- The written form of a date, a time of day, or both. -/
def DateTime.toText (t : DateTime) : String :=
  (t.day.map (·.toText)).getD "" ++ (if t.day.isSome ∧ t.clock.isSome then "T" else "") ++
    (t.clock.map (·.toText)).getD "" ++ (t.offset.map (·.toText)).getD ""

/-! ## Reading -/

/-- Reads a number of exactly `width` digits. -/
def fixedNumber (width : Nat) : Scanner Nat := fun cs =>
  let digits := cs.take width
  if digits.length = width ∧ digits.all Char.isDigit then
    some (digits.foldl (fun n c => n * 10 + (c.toNat - '0'.toNat)) 0, cs.drop width)
  else none

/-- Reads a day. -/
def Day.read : Scanner Day := do
  let year ← fixedNumber 4
  expect '-'
  let month ← fixedNumber 2
  expect '-'
  let day ← fixedNumber 2
  if month < 1 ∨ 12 < month ∨ day < 1 ∨ 31 < day then StateT.lift none
  return { year, month, day }

/-- Reads a fraction of a second in nanoseconds; digits beyond the ninth are dropped. -/
def Clock.readFraction : Scanner Nat := do
  if !(← accept '.') then return 0
  let digits ← someRun Char.isDigit
  let nine := (digits ++ List.replicate 9 '0').take 9
  return nine.foldl (fun n c => n * 10 + (c.toNat - '0'.toNat)) 0

/-- Reads a time of day. -/
def Clock.read : Scanner Clock := do
  let hour ← fixedNumber 2
  expect ':'
  let minute ← fixedNumber 2
  expect ':'
  let second ← fixedNumber 2
  let nanosecond ← Clock.readFraction
  if 24 < hour ∨ 59 < minute ∨ 59 < second then StateT.lift none
  return { hour, minute, second, nanosecond }

/-- Reads an offset, if there is anything left. -/
def ZoneOffset.read : Scanner (Option ZoneOffset) := do
  match ← get with
  | [] => return none
  | c :: rest =>
    set rest
    if c = 'Z' ∨ c = 'z' then return some .zulu
    if c ≠ '+' ∧ c ≠ '-' then StateT.lift none
    let hours ← fixedNumber 2
    expect ':'
    let minutes ← fixedNumber 2
    return some (.ahead (if c = '-' then -hours else hours) minutes)

namespace DateTime

/-- Reads a date, with a time of day and an offset if there is more. -/
def readDated : Scanner DateTime := do
  let day ← Day.read
  match ← get with
  | [] => return ⟨some day, none, none⟩
  | c :: rest =>
    if c ≠ 'T' ∧ c ≠ 't' ∧ c ≠ ' ' then StateT.lift none
    set rest
    let clock ← Clock.read
    return ⟨some day, some clock, ← ZoneOffset.read⟩

/-- Reads a time of day alone. -/
def readClock : Scanner DateTime := do
  return ⟨none, some (← Clock.read), none⟩

/-- A whole text as a date, a time of day, or both. -/
def ofText? (cs : List Char) : Option DateTime := do
  match ← (if cs[2]? = some ':' then readClock else readDated) cs with
  | (t, []) => some t
  | _ => none

/-! ## In a document -/

/-- A run of key characters behind a given character. -/
def partAfter (c : Char) : Scanner (List Char) := do
  expect c
  return c :: (← someRun isKeyChar)

/-- A run of key characters behind a given character, if that comes next. -/
def partIfAfter (c : Char) : Scanner (List Char) := do
  if (← get).head? = some c then partAfter c else return []

/-- The hour of a time that a single blank separates from its date. -/
def separateHour : Scanner (List Char) := fun cs =>
  match cs with
  | ' ' :: c :: rest => if isKeyChar c then partAfter ' ' (' ' :: c :: rest) else some ([], cs)
  | _ => some ([], cs)

/-- The text of a date or time that begins with a run of key characters, which has been read
already: what a time adds to it is read. -/
def written (front : List Char) : Scanner (List Char) := do
  let front := front ++ (← separateHour)
  if (← get).head? ≠ some ':' then return front
  let front := front ++ (← partAfter ':')
  let front := front ++ (← partAfter ':')
  let front := front ++ (← partIfAfter '.')
  let front := front ++ (← partIfAfter '+')
  return front ++ (← partIfAfter ':')

end DateTime

end RealmDirectory.Toml
