import RealmDirectory.Toml.Number
import RealmDirectory.Toml.Section
/-!
# TOML documents

A settings file is a TOML document: lines with a key and a value, and headers that open tables.
`Toml.parse?` gives its entries, or nothing if any of it is not as it should be. Reading gives the
sections of the document first; what they say together is worked out when all of them are there.
-/

namespace RealmDirectory.Toml

/-- Skips blanks, line breaks and comments. -/
def gap (inComment : Bool) : List Char → Option (List Char)
  | [] => some []
  | c :: rest =>
    if c = '\n' then gap false rest
    else if inComment then if isCommentChar c then gap true rest else none
    else if isBlankInLine c then gap false rest
    else if c = '#' then gap true rest
    else some (c :: rest)

/-- Skips blanks, line breaks and comments. -/
def skipGap : Scanner Unit := fun cs => (gap false cs).map ((), ·)

/-- The end of a line, perhaps behind a comment. -/
def lineEnd : Scanner Unit := do
  blanks
  if ← accept '#' then
    let _ ← run isCommentChar
  match ← get with
  | [] => return
  | _ => expect '\n'

/-! ## Items -/

/-- A run of key characters stands for a date rather than for a number. -/
def looksLikeDate (front : List Char) : Bool :=
  let minusExponent : Bool :=
    (front.zip front.tail).any fun (a, b) => (a = 'e' || a = 'E') && b = '-'
  front.contains 'T' || front.contains 't' || (front.tail.contains '-' && !minusExponent)

/-- A number as an item. -/
def Number.toItem : Number → Item
  | .whole value => .whole value
  | .decimal value => .decimal value

/-- Reads a truth value, a number or a date. -/
def bareItem : Scanner Item := do
  let front ← someRun isKeyChar
  match String.ofList front with
  | "true" => return .bool true
  | "false" => return .bool false
  | text =>
    if !(front.head?.any fun c => c.isDigit || c = '-') ∧ text ≠ "inf" ∧ text ≠ "nan" then
      StateT.lift none
    if looksLikeDate front ∨ (← get).head? = some ':' then
      return .date (String.ofList (← DateTime.written front))
    return (← numberOf front).toItem

/-- Reads the rest of an array, at most `count` more items. -/
def listItems (item : Scanner Item) : Nat → List Item → Scanner Item
  | 0, _ => StateT.lift none
  | count + 1, items => do
    skipGap
    if ← accept ']' then return .list items.reverse
    let items := (← item) :: items
    skipGap
    if ← accept ',' then listItems item count items
    else
      expect ']'
      return .list items.reverse

/-- Reads a key, an equals sign and an item. -/
def assignment (item : Scanner Item) : Scanner (List String × Item) := do
  let key ← key
  blanks
  expect '='
  blanks
  return (key, ← item)

/-- Reads the rest of a table in braces, at most `count` more entries. -/
def bracedEntries (item : Scanner Item) : Nat → Entries → Scanner Item
  | 0, _ => StateT.lift none
  | count + 1, entries => do
    let (key, value) ← assignment item
    let entries ← StateT.lift (entries.add? value key)
    blanks
    if ← accept '}' then return .table false entries
    expect ','
    blanks
    bracedEntries item count entries

/-- Reads an item that has at most `depth` levels. -/
def item : Nat → Scanner Item
  | 0 => StateT.lift none
  | depth + 1 => do
    let cs ← get
    match cs with
    | [] => StateT.lift none
    | '[' :: rest =>
      set rest
      listItems (item depth) rest.length []
    | '{' :: rest =>
      set rest
      blanks
      if ← accept '}' then return .table false []
      bracedEntries (item depth) rest.length []
    | '+' :: rest =>
      set rest
      return (← numberOf (← someRun isKeyChar)).toItem
    | c :: _ =>
      if c = quotationMark ∨ c = apostrophe then return .text (← quoted).1
      else bareItem

/-! ## Documents -/

/-- Reads a header behind its opening brackets. -/
def header (double : Bool) : Scanner (List String) := do
  blanks
  let path ← key
  blanks
  expect ']'
  if double then expect ']'
  lineEnd
  return path

/-- Reads at most `count` more lines. The last section read so far is `current`, and `done` are
those before it, the latest first. -/
def document : Nat → List Section → Section → Scanner (List Section)
  | 0, _, _ => StateT.lift none
  | count + 1, done, current => do
    skipGap
    match ← get with
    | [] => return (current :: done).reverse
    | '[' :: rest =>
      set rest
      let double ← accept '['
      document count (current :: done) { path := ← header double, double, entries := [] }
    | cs => do
      let (key, value) ← assignment (item cs.length)
      lineEnd
      let entries ← StateT.lift (current.entries.add? value key)
      document count done { current with entries }

/-- Makes every line break a single line feed. -/
def foldBreaks : List Char → List Char
  | '\r' :: '\n' :: rest => '\n' :: foldBreaks rest
  | c :: rest => c :: foldBreaks rest
  | [] => []

/-- The entries of a document; a byte order mark in front is skipped. The document as a whole is a
table, not a date. -/
def parse? (text : String) : Option Table := do
  let cs := foldBreaks text.toList
  let cs := if cs.head? = some '\ufeff' then cs.tail else cs
  let (sections, _) ← document (cs.length + 1) [] { path := [], double := false, entries := [] } cs
  match ← tableValue? (← Section.entries? sections) with
  | .table entries => some entries
  | _ => none

end RealmDirectory.Toml
