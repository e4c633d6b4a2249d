import SchemaDocs.Text.Basic
/-!
# Entries

Lists of keys with their values.  A key is looked up from the front; inserting keeps the place of a
key that is there, and sorting puts the keys into dictionary order.
-/

namespace SchemaDocs

/-- Entries with the value of a key replaced in its place, or a new entry at the end. -/
def insertEntry {α : Type} (key : Text) (value : α) : List (Text × α) → List (Text × α)
  | [] => [(key, value)]
  | (k, v) :: rest =>
    if k = key then (key, value) :: rest else (k, v) :: insertEntry key value rest

/-- The entries of pairs in order: a key stands where it first occurs and has its last value. -/
def entriesOfPairs {α : Type} (pairs : List (Text × α)) : List (Text × α) :=
  pairs.foldl (fun entries (key, value) => insertEntry key value entries) []

def valueAt? {α : Type} (key : Text) : List (Text × α) → Option α
  | [] => none
  | (k, v) :: rest => if k = key then some v else valueAt? key rest

/-- An entry put before the first entry whose key does not come before its own. -/
def insertByKey {α : Type} (e : Text × α) : List (Text × α) → List (Text × α)
  | [] => [e]
  | head :: rest => if e.1.le head.1 then e :: head :: rest else head :: insertByKey e rest

def sortByKey {α : Type} : List (Text × α) → List (Text × α)
  | [] => []
  | head :: rest => insertByKey head (sortByKey rest)

end SchemaDocs
