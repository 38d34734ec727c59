import RealmDirectory.Number.Decimal
/-!
# Paths to settings

The name under which a source gives a value may be a path: a first name, followed by steps into
the value it names, each a point with a further name or a number in square brackets. A path with
steps speaks of something inside the setting at its front, and makes that setting a container
whatever it has been before. A name that is no path stands for itself.
-/

namespace RealmDirectory

namespace SettingPath

/-- A character of a name in a path. -/
def isNameChar (c : Char) : Bool := c.isAlphanum || c = '_' || c = '-' || c = ' '

/-- A blank around a number in square brackets. -/
def isBlankInStep (c : Char) : Bool := c = ' ' || c = '\t'

/-- What follows a name at the front. -/
def afterName? (cs : List Char) : Option (List Char) :=
  if cs.head?.any isNameChar then some (cs.dropWhile isNameChar) else none

/-- What follows a number of 64 bits and a closing bracket, perhaps with blanks around the
number. -/
def afterIndex? (cs : List Char) : Option (List Char) := do
  let cs := cs.dropWhile isBlankInStep
  let minus := cs.takeWhile (· = '-')
  let cs := cs.drop minus.length
  let digits := cs.takeWhile Char.isDigit
  let _ ← if minus.length ≤ 1 then Decimal.signedWord? (String.ofList (minus ++ digits)) else none
  match (cs.drop digits.length).dropWhile isBlankInStep with
  | ']' :: rest => some rest
  | _ => none

/-- What follows a step at the front. -/
def afterStep? : List Char → Option (List Char)
  | '.' :: rest => afterName? rest
  | '[' :: rest => afterIndex? rest
  | _ => none

/-- Nothing but steps, at most `count` of them. -/
def areSteps : Nat → List Char → Bool
  | _, [] => true
  | 0, _ => false
  | count + 1, cs => (afterStep? cs).any (areSteps count)

/-- The setting that a name speaks of, and whether it speaks of something inside that setting. -/
def target (name : String) : String × Bool :=
  let cs := name.toList
  match afterName? cs with
  | some steps =>
    if areSteps steps.length steps then
      (String.ofList (cs.take (cs.length - steps.length)), !steps.isEmpty)
    else (name, false)
  | none => (name, false)

end SettingPath

end RealmDirectory
