import RealmDirectory.Toml.Date
import RealmDirectory.Toml.Item
/-!
# TOML values

What an item means. Dates become texts in their written form, and no key of a table occurs twice.

A date may also be spelled as a table whose first key is `dateKey`: its value is the text of the
date, and what else the table holds is not looked at.

## Main definitions

* `Item.value?` — the value of an item, if it has one.
-/

namespace RealmDirectory.Toml

/-- A value. -/
inductive Value where
  | bool (value : Bool)
  | whole (value : Int)
  | decimal (value : Binary64)
  | text (value : String)
  | list (items : List Value)
  | table (entries : List (String × Value))
  deriving Repr

/-- Keys with their values; no key occurs twice. -/
abbrev Table := List (String × Value)

/-- The value of a key. -/
def Table.find? (entries : Table) (key : String) : Option Value := entries.lookup key

/-- The first key of a table that stands for a date. -/
def dateKey : String := "$__toml_private_datetime"

/-- No key occurs twice. -/
def distinct : List String → Bool
  | [] => true
  | key :: rest => !rest.contains key && distinct rest

/-- The value of a written date. -/
def dateValue? (written : String) : Option Value :=
  (DateTime.ofText? written.toList).map fun date => .text date.toText

/-- The value of an item that a table spells as a date. -/
def Item.dateValue? : Item → Option Value
  | text written => Toml.dateValue? written
  | _ => none

mutual

/-- The value of an item. -/
def Item.value? : Item → Option Value
  | .bool value => some (.bool value)
  | .whole value => some (.whole value)
  | .decimal value => some (.decimal value)
  | .text value => some (.text value)
  | .date written => dateValue? written
  | .list items => (listValues? items).map .list
  | .table _ entries => tableValue? entries

/-- The values of the items of a list. -/
def listValues? : List Item → Option (List Value)
  | [] => some []
  | item :: rest => do return (← item.value?) :: (← listValues? rest)

/-- The values of the entries of a table. -/
def entryValues? : List (String × Item) → Option Table
  | [] => some []
  | (key, item) :: rest => do return (key, ← item.value?) :: (← entryValues? rest)

/-- The value of a table with the given entries. -/
def tableValue? : List (String × Item) → Option Value
  | [] => some (.table [])
  | (key, item) :: rest =>
    if key = dateKey then item.dateValue?
    else if distinct (key :: rest.map (·.1)) then do
      return .table ((key, ← item.value?) :: (← entryValues? rest))
    else none

end

end RealmDirectory.Toml
