/-
# TOML tables

A TOML document is a table of tables and values. A table that a dotted key or
a header only implied may still be added to; one that was written out, with a
header or in braces, may not be written again. The three ways in which a
document adds to its table are here: a key with a value, a header, and a
header of an item of a list.

Numbers and dates are kept without what they are: no setting is one.

Key definitions: `Toml`, `Entries.putKey`, `Entries.openTable`,
`Entries.openItem`.
-/

namespace DeadBranch

/-- How a table came to be, which decides what may be added to it. -/
inductive TableOrigin where
  /-- It has a header of its own. -/
  | header
  /-- A header of a table inside it implied it. -/
  | implied
  /-- A dotted key implied it. -/
  | dotted
  /-- It is written in braces. -/
  | braces
deriving DecidableEq, Repr

/-- A value of a TOML document. -/
inductive Toml where
  | text (value : String)
  | bool (value : Bool)
  | number
  | date
  | list (items : List Toml)
  /-- A list of tables, each with a header. -/
  | tables (items : List Toml)
  | table (origin : TableOrigin) (entries : List (String × Toml))

/-- The keys of a table with what they stand for. -/
abbrev Entries := List (String × Toml)

namespace Entries

/-- Changes what a key stands for, or adds the key. -/
def update (key : String) (change : Option Toml → Option Toml) : Entries → Option Entries
  | [] => (change none).map fun value => [(key, value)]
  | (k, old) :: entries =>
    if k = key then (change (some old)).map fun value => (k, value) :: entries
    else (update key change entries).map ((k, old) :: ·)

/-- Changes the table that is the last of a list. -/
def updateLast (change : Entries → Option Entries) : List Toml → Option (List Toml)
  | [] => none
  | [.table origin entries] => (change entries).map fun entries => [.table origin entries]
  | item :: items => (updateLast change items).map (item :: ·)

/-- Changes the table at a path of keys, which headers may lead through:
tables that are missing are implied, a list of tables stands for its last. -/
def within : List String → (Entries → Option Entries) → Entries → Option Entries
  | [], change => change
  | key :: path, change => update key fun
    | none => (within path change []).map (.table .implied)
    | some (.table .braces _) => none
    | some (.table origin entries) => (within path change entries).map (.table origin)
    | some (.tables items) => (updateLast (within path change) items).map .tables
    | some _ => none

/-- Adds a key that is new. -/
def putNew (key : String) (value : Toml) : Entries → Option Entries :=
  update key fun
    | none => some value
    | some _ => none

/-- Adds a dotted key with its value. The tables on the way are implied ones,
and the last of them is one that a dotted key implied. -/
def putKey (value : Toml) : List String → Entries → Option Entries
  | [] => fun _ => none
  | [key] => putNew key value
  | key :: path => update key fun
    | none => (putKey value path []).map (.table .dotted)
    | some (.table .dotted entries) => (putKey value path entries).map (.table .dotted)
    | some (.table .implied entries) =>
      if path.length = 1 then none else (putKey value path entries).map (.table .implied)
    | some (.tables items) =>
      if path.length = 1 then none else (updateLast (putKey value path) items).map .tables
    | some _ => none

/-- Adds the table that a header names. -/
def openTable (path : List String) : Entries → Option Entries :=
  match path.getLast? with
  | none => fun _ => none
  | some key => within path.dropLast (update key fun
    | none => some (.table .header [])
    | some (.table .implied entries) => some (.table .header entries)
    | some _ => none)

/-- Adds a further table to the list of tables that a header names. -/
def openItem (path : List String) : Entries → Option Entries :=
  match path.getLast? with
  | none => fun _ => none
  | some key => within path.dropLast (update key fun
    | none => some (.tables [.table .header []])
    | some (.tables items) => some (.tables (items ++ [.table .header []]))
    | some _ => none)

end Entries
end DeadBranch
