/-!
# TOML texts and keys

A text stands in quotation marks or in apostrophes, alone or three in a row. Between quotation
marks a backslash begins an escape; between apostrophes every character stands for itself. Three
marks in a row let a text go over several lines: a line break right after them is left out, and a
backslash at the end of a line leaves out all blanks and line breaks after it. One or two marks
right before the closing three belong to the text.

Line breaks are single line feeds here, as the document's reader provides them.
-/

namespace RealmDirectory.Toml

/-- Reads something from the front of a document; `none` if it is not there. -/
abbrev Scanner := StateT (List Char) Option

/-- A quotation mark. -/
def quotationMark : Char := '\x22'

/-- An apostrophe. -/
def apostrophe : Char := '\x27'

/-- A character that may stand in comments: no control character before the blank but the tab. -/
def isCommentChar (c : Char) : Bool := c = '\t' || ' ' ≤ c

/-- A character that may stand in texts. -/
def isTextChar (c : Char) : Bool := isCommentChar c && c ≠ '\x7f'

/-- A character of a bare key; numbers and dates are made of them too. -/
def isKeyChar (c : Char) : Bool := c.isAlphanum || c = '_' || c = '-'

/-- A blank between parts of a line. -/
def isBlankInLine (c : Char) : Bool := c = ' ' || c = '\t'

/-- Reads a given character. -/
def expect (c : Char) : Scanner Unit := fun cs =>
  match cs with
  | first :: rest => if first = c then some ((), rest) else none
  | [] => none

/-- Reads a given character if it comes next. -/
def accept (c : Char) : Scanner Bool := fun cs =>
  match cs with
  | first :: rest => if first = c then some (true, rest) else some (false, cs)
  | [] => some (false, [])

/-- Reads characters of a class, as many as there are. -/
def run (p : Char → Bool) : Scanner (List Char) := fun cs =>
  some (cs.takeWhile p, cs.dropWhile p)

/-- Reads at least one character of a class. -/
def someRun (p : Char → Bool) : Scanner (List Char) := do
  let cs ← run p
  if cs.isEmpty then StateT.lift none
  return cs

/-- Skips blanks. -/
def blanks : Scanner Unit := do
  let _ ← run isBlankInLine

/-! ## Escapes -/

/-- The value of a hexadecimal digit. -/
def hexDigit? (c : Char) : Option Nat :=
  if c.isDigit then some (c.toNat - '0'.toNat)
  else if 'a' ≤ c ∧ c ≤ 'f' then some (c.toNat - 'a'.toNat + 10)
  else if 'A' ≤ c ∧ c ≤ 'F' then some (c.toNat - 'A'.toNat + 10)
  else none

/-- The character with a code in hexadecimal; surrogates are none. -/
def charOfHex? (digits : List Char) : Option Char := do
  let values ← digits.mapM hexDigit?
  let code := values.foldl (fun n d => n * 16 + d) 0
  if code.isValidChar then some (Char.ofNat code) else none

/-- The character that a letter after a backslash stands for. -/
def escaped? (c : Char) : Option Char :=
  if c = quotationMark ∨ c = '\\' then some c
  else if c = 'b' then some '\x08'
  else if c = 't' then some '\t'
  else if c = 'n' then some '\n'
  else if c = 'f' then some '\x0c'
  else if c = 'r' then some '\r'
  else none

/-- Where the reading of a text with escapes stands. -/
inductive EscapeState where
  /-- Between two characters. -/
  | plain
  /-- After a backslash. -/
  | afterBackslash
  /-- In the blanks after a backslash, before the line break that has to follow. -/
  | awaitingBreak
  /-- In what a backslash at the end of a line leaves out. -/
  | leavingOut
  /-- In a code with this many digits to come. -/
  | inCode (left : Nat) (digits : List Char)

/-- Replaces the escapes of a text. -/
def unescape? (overLines : Bool) : EscapeState → List Char → Option (List Char)
  | .plain, [] | .leavingOut, [] => some []
  | _, [] => none
  | .plain, c :: rest =>
    if c = '\\' then unescape? overLines .afterBackslash rest
    else if isTextChar c ∨ (overLines ∧ c = '\n') then
      (unescape? overLines .plain rest).map (c :: ·)
    else none
  | .afterBackslash, c :: rest =>
    if c = 'u' then unescape? overLines (.inCode 4 []) rest
    else if c = 'U' then unescape? overLines (.inCode 8 []) rest
    else if overLines ∧ c = '\n' then unescape? overLines .leavingOut rest
    else if overLines ∧ isBlankInLine c then unescape? overLines .awaitingBreak rest
    else
      match escaped? c with
      | none => none
      | some c => (unescape? overLines .plain rest).map (c :: ·)
  | .awaitingBreak, c :: rest =>
    if c = '\n' then unescape? overLines .leavingOut rest
    else if isBlankInLine c then unescape? overLines .awaitingBreak rest
    else none
  | .leavingOut, c :: rest =>
    if c = '\n' ∨ isBlankInLine c then unescape? overLines .leavingOut rest
    else if c = '\\' then unescape? overLines .afterBackslash rest
    else if isTextChar c then (unescape? overLines .plain rest).map (c :: ·)
    else none
  | .inCode left digits, c :: rest =>
    if left ≤ 1 then
      match charOfHex? (digits ++ [c]) with
      | none => none
      | some c => (unescape? overLines .plain rest).map (c :: ·)
    else unescape? overLines (.inCode (left - 1) (digits ++ [c])) rest

/-! ## Texts -/

/-- Splits a text off at its closing mark, leaving escapes as they are. -/
def untilMark? (mark : Char) : List Char → Option (List Char × List Char)
  | [] => none
  | c :: rest =>
    if c = mark then some ([], rest)
    else if c = '\\' ∧ mark = quotationMark then
      match rest with
      | [] => none
      | next :: rest =>
        (untilMark? mark rest).map fun (inside, rest) => (c :: next :: inside, rest)
    else (untilMark? mark rest).map fun (inside, rest) => (c :: inside, rest)

/-- Splits a text off at its three closing marks, leaving escapes as they are. -/
def untilThreeMarks? (mark : Char) : List Char → Option (List Char × List Char)
  | [] => none
  | c :: rest =>
    if c = mark ∧ rest.take 2 = [mark, mark] then
      let extra := (rest.drop 2).take 2 |>.takeWhile (· = mark)
      some (extra, rest.drop (2 + extra.length))
    else if c = '\\' ∧ mark = quotationMark then
      match rest with
      | [] => none
      | next :: rest =>
        (untilThreeMarks? mark rest).map fun (inside, rest) => (c :: next :: inside, rest)
    else (untilThreeMarks? mark rest).map fun (inside, rest) => (c :: inside, rest)

/-- The characters that stand between two marks. -/
def inside? (mark : Char) (overLines : Bool) (cs : List Char) : Option String :=
  if mark = quotationMark then (unescape? overLines .plain cs).map String.ofList
  else if cs.all fun c => isTextChar c || (overLines && c = '\n') then some (String.ofList cs)
  else none

/-- Leaves out a line break at the beginning. -/
def dropBreak : List Char → List Char
  | '\n' :: rest => rest
  | cs => cs

/-- Reads a text; tells also whether it may go over several lines. -/
def quoted : Scanner (String × Bool) := fun cs => do
  match cs with
  | [] => none
  | mark :: rest =>
    if mark ≠ quotationMark ∧ mark ≠ apostrophe then none
    else if rest.take 2 = [mark, mark] then
      let (inside, rest) ← untilThreeMarks? mark (dropBreak (rest.drop 2))
      return ((← inside? mark true inside, true), rest)
    else
      let (inside, rest) ← untilMark? mark rest
      return ((← inside? mark false inside, false), rest)

/-! ## Keys -/

/-- Reads one part of a key. -/
def keyPart : Scanner String := fun cs =>
  match cs with
  | [] => none
  | c :: _ =>
    if c = quotationMark ∨ c = apostrophe then
      match quoted cs with
      | some ((key, false), rest) => some (key, rest)
      | _ => none
    else (someRun isKeyChar cs).map fun (key, rest) => (String.ofList key, rest)

/-- Reads the parts of a key after the first one, at most `count` of them. -/
def moreParts : Nat → Scanner (List String)
  | 0 => return []
  | count + 1 => do
    blanks
    if ← accept '.' then
      blanks
      let part ← keyPart
      return part :: (← moreParts count)
    else return []

/-- Reads a key, whose parts are separated by dots. -/
def key : Scanner (List String) := do
  let first ← keyPart
  return first :: (← moreParts (← get).length)

end RealmDirectory.Toml
