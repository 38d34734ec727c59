import RealmDirectory.Number.Binary64
/-!
# What a TOML document says

An `Item` is what stands behind an equals sign, as it is written: dates are texts still, and keys
may occur twice. A key with dots makes tables on its way, and later keys with dots go on adding to
them; a table in braces is finished.

## Main definitions

* `Item` — what is written behind a key.
* `Entries.add?` — a further key, perhaps with dots, and its item.
-/

namespace RealmDirectory.Toml

/-- What is written behind a key. -/
inductive Item where
  | bool (value : Bool)
  | whole (value : Int)
  | decimal (value : Binary64)
  | text (value : String)
  | date (written : String)
  | list (items : List Item)
  /-- Keys with dots may add to a table that is `extensible`. -/
  | table (extensible : Bool) (entries : List (String × Item))

/-- Keys with their items, in the order of the document. -/
abbrev Entries := List (String × Item)

namespace Entries

/-- Changes the table under a key, a new one if the key does not occur; refused if something else
is there. -/
def extend? (key : String) (change : Entries → Option Entries) : Entries → Option Entries
  | [] => (change []).map fun inner => [(key, .table true inner)]
  | (k, item) :: rest =>
    if k = key then
      match item with
      | .table true inner => (change inner).map fun inner => (k, .table true inner) :: rest
      | _ => none
    else (extend? key change rest).map ((k, item) :: ·)

/-- Adds an item under a key, whose parts but the last name tables. -/
def add? (item : Item) : List String → Entries → Option Entries
  | [], _ => none
  | [key], entries => some (entries ++ [(key, item)])
  | key :: rest, entries => entries.extend? key (add? item rest)

end Entries

end RealmDirectory.Toml
