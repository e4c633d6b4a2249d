import SchemaDocs.Entries
import SchemaDocs.Number.Literal
/-!
# Values

What a schema record holds: scalars, lists, maps from text to values, and foreign objects that only
have a display text.  A container is writable or read-only: `lock` makes the containers of a value
read-only at every depth, and `unlock` makes read-only ones writable again.
-/

namespace SchemaDocs

/-- Whether the holder of a container may change it. -/
inductive Access where
  | writable
  | readOnly
  deriving DecidableEq

inductive Value where
  | null
  | bool (b : Bool)
  | int (n : Int)
  | float (x : Binary64)
  | text (t : Text)
  | list (access : Access) (items : List Value)
  | map (access : Access) (entries : List (Text × Value))
  | foreign (display : Text)

instance : Inhabited Value := ⟨.null⟩

namespace Value

/-- Empty containers, empty text, zero, `false` and `null` count as absent. -/
def isPresent : Value → Bool
  | .null => false
  | .bool b => b
  | .int n => n != 0
  | .float x => !x.isZero
  | .text t => !t.isEmpty
  | .list _ items => !items.isEmpty
  | .map _ entries => !entries.isEmpty
  | .foreign _ => true

def get? (key : Text) : Value → Option Value
  | .map _ entries => valueAt? key entries
  | _ => none

/-- The value of a key of a map, or `null`. -/
def getD (key : Text) (entries : List (Text × Value)) : Value :=
  (valueAt? key entries).getD .null

mutual

/-- A value whose containers are read-only at every depth. -/
def lock : Value → Value
  | .list _ items => .list .readOnly (lockItems items)
  | .map _ entries => .map .readOnly (lockEntries entries)
  | v => v

def lockItems : List Value → List Value
  | [] => []
  | v :: rest => v.lock :: lockItems rest

def lockEntries : List (Text × Value) → List (Text × Value)
  | [] => []
  | (key, v) :: rest => (key, v.lock) :: lockEntries rest

end

mutual

/-- A value whose read-only lists, and maps of either kind, are writable.  A list that is writable
already is taken as it is, whatever it holds. -/
def unlock : Value → Value
  | .list .readOnly items => .list .writable (unlockItems items)
  | .map _ entries => .map .writable (unlockEntries entries)
  | v => v

def unlockItems : List Value → List Value
  | [] => []
  | v :: rest => v.unlock :: unlockItems rest

def unlockEntries : List (Text × Value) → List (Text × Value)
  | [] => []
  | (key, v) :: rest => (key, v.unlock) :: unlockEntries rest

end

end Value

end SchemaDocs
