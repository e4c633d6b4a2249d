import SchemaDocs.Value.Basic
/-!
# TOML documents

The tree of a TOML document, and how tables grow while a document is read.  Numbers with a fraction
or an exponent, dates and times are kept as their literals.
-/

namespace SchemaDocs

inductive Toml where
  | string (t : Text)
  | integer (n : Int)
  | real (literal : Text)
  | boolean (b : Bool)
  | moment (literal : Text)
  | array (items : List Toml)
  | table (entries : List (Text × Toml))

abbrev KeyPath := List Text

namespace Toml

abbrev Entries := List (Text × Toml)

def isContainer : Toml → Bool
  | .array _ => true
  | .table _ => true
  | _ => false

/-- Entries with a change made in the table that keys lead to.  Missing tables are made on the way;
of an array the last item is entered, if that is asked for.  Fails where something else is in the
way. -/
def alter (intoArrays : Bool) (change : Entries → Option Entries) :
    KeyPath → Entries → Option Entries
  | [], entries => change entries
  | key :: rest, entries =>
    match valueAt? key entries with
    | none => (alter intoArrays change rest []).map fun t => insertEntry key (.table t) entries
    | some (.table t) =>
      (alter intoArrays change rest t).map fun t => insertEntry key (.table t) entries
    | some (.array items) =>
      match intoArrays, items.getLast? with
      | true, some (.table t) =>
        (alter intoArrays change rest t).map fun t =>
          insertEntry key (.array (items.dropLast ++ [.table t])) entries
      | _, _ => none
    | some _ => none

/-- Entries with a new one; fails if the key is taken. -/
def addNew (key : Text) (value : Toml) (entries : Entries) : Option Entries :=
  if (valueAt? key entries).isSome then none else some (insertEntry key value entries)

/-- Entries with an empty table added to the array of a key. -/
def addTable (key : Text) (entries : Entries) : Option Entries :=
  match valueAt? key entries with
  | none => some (insertEntry key (.array [.table []]) entries)
  | some (.array items) => some (insertEntry key (.array (items ++ [.table []])) entries)
  | some _ => none

/-- Entries with a value put under keys, the last of which has to be new. -/
def put (intoArrays : Bool) (keys : KeyPath) (value : Toml) (entries : Entries) : Option Entries :=
  match keys.getLast? with
  | none => none
  | some key => alter intoArrays (addNew key value) keys.dropLast entries

end Toml

end SchemaDocs
