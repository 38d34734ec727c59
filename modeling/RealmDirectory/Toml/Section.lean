import RealmDirectory.Toml.Item
import RealmDirectory.Toml.Value
/-!
# Sections of a TOML document

A header opens a `Section`: the entries up to the next header belong to the table that the header
names. The sections of a table are those whose path begins with the path of the table, wherever
they stand in the document. One of them, at most, is the table's own; the others belong to tables
inside it. A header in double brackets opens one more table of a list, and the sections after it
belong to that table until the next such header.

A table that stands for a date has its own section and no others. In a list of tables, sections
behind such a table belong to the next one.

## Main definitions

* `Section.entries?` — the entries that the sections of a table give together.
-/

namespace RealmDirectory.Toml

/-- A header and the entries up to the next one. -/
structure Section where
  /-- The parts of the header, without those of the table that the section is looked at from. -/
  path : List String
  /-- The header stands in double brackets. -/
  double : Bool
  entries : Entries

namespace Section

/-- It is the own section of the table it is looked at from. -/
def isOwn (s : Section) : Bool := s.path.isEmpty

/-- Its first key makes its table a date. -/
def isDate (s : Section) : Bool := s.entries.head?.any fun (key, _) => key = dateKey

/-- Adds a section to the group of a key. -/
def addToGroup (key : String) (s : Section) :
    List (String × List Section) → List (String × List Section)
  | [] => [(key, [s])]
  | (k, group) :: rest =>
    if k = key then (k, group ++ [s]) :: rest else (k, group) :: addToGroup key s rest

/-- The sections of the tables inside a table, by the keys of those tables in the order of their
first section. -/
def groups (sections : List Section) : List (String × List Section) :=
  sections.foldl (fun groups s =>
    match s.path with
    | [] => groups
    | key :: rest => addToGroup key { s with path := rest } groups) []

/-- Puts the entries of a table's own section together with the tables inside it, which come first
if any of them does. -/
def join? (sections : List Section) (inner : Entries) : Option Entries :=
  match sections.filter (·.isOwn) with
  | [] => some inner
  | [own] =>
    if own.double then none
    else if sections.head?.any (·.isOwn) then
      if own.isDate ∧ !inner.isEmpty then none else some (own.entries ++ inner)
    else some (inner ++ own.entries)
  | _ => none

/-- The own sections of the tables of a list, each with the sections that follow it. -/
def elements (sections : List Section) : List (Section × List Section) :=
  (sections.foldr (fun s (following, elements) =>
    if s.isOwn && s.double then ([], ({ s with double := false }, following) :: elements)
    else (s :: following, elements)) ([], [])).2

/-- The sections of each table of a list; `carried` is what a date has left to the next table. -/
def settle? (carried : List Section) : List (Section × List Section) → Option (List (List Section))
  | [] => if carried.isEmpty then some [] else none
  | (own, following) :: rest =>
    if own.isDate then (settle? (carried ++ following) rest).map ([own] :: ·)
    else (settle? [] rest).map ((own :: (carried ++ following)) :: ·)

/-- The entries of a table, given those of tables with shorter paths: the sections of a key make a
table, or a list of tables if the first of them opens one. -/
def entriesBy? (entries? : List Section → Option Entries) (sections : List Section) :
    Option Entries := do
  let inner ← (groups sections).mapM fun (key, group) => do
    if group.head?.any fun s => s.isOwn && s.double then
      let tables ← (← settle? [] (elements group)).mapM entries?
      return (key, .list (tables.map (.table false)))
    else return (key, .table false (← entries? group))
  join? sections inner

/-- The entries of a table whose sections have paths of fewer than `depth` parts. -/
def entriesWithin? : Nat → List Section → Option Entries
  | 0 => fun _ => none
  | depth + 1 => entriesBy? (entriesWithin? depth)

/-- The entries of a document with the given sections. -/
def entries? (sections : List Section) : Option Entries :=
  let depth := sections.foldl (fun depth s => max depth s.path.length) 0
  entriesWithin? (depth + 1) sections

end Section

end RealmDirectory.Toml
