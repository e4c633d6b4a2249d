import SchemaDocs.Value.Basic
/-!
# JSON documents

The tree of a JSON document, and how values and documents turn into one another.  A number with a
fraction or an exponent is kept as its literal, so that printing what was read loses nothing.  A
value has a document unless it holds a foreign object, a map that may not be changed or a whole
number of more than 4300 digits.
-/

namespace SchemaDocs

inductive Json where
  | null
  | bool (b : Bool)
  | int (n : Int)
  | real (literal : Text)
  | string (t : Text)
  | array (items : List Json)
  | object (members : List (Text × Json))

instance : Inhabited Json := ⟨.null⟩

/-- The most digits that a whole number may have where it is read or written. -/
def Json.maxDigits : Nat := 4300

inductive Unwritable where
  | foreignObject
  | readOnlyMap
  | longInteger
  deriving DecidableEq

def Unwritable.message : Unwritable → Text
  | .foreignObject => "Object of type Opaque is not JSON serializable"
  | .readOnlyMap => "Object of type mappingproxy is not JSON serializable"
  | .longInteger =>
    "Exceeds the limit (4300 digits) for integer string conversion; " ++
      "use sys.set_int_max_str_digits() to increase the limit"

namespace Value

mutual

/-- The value of a document, with writable containers. -/
def ofJson : Json → Value
  | .null => .null
  | .bool b => .bool b
  | .int n => .int n
  | .real literal => .float (.ofLiteral Binary64.jsonSpelling literal)
  | .string t => .text t
  | .array items => .list .writable (ofJsonItems items)
  | .object members => .map .writable (ofJsonMembers members)

def ofJsonItems : List Json → List Value
  | [] => []
  | j :: rest => ofJson j :: ofJsonItems rest

def ofJsonMembers : List (Text × Json) → List (Text × Value)
  | [] => []
  | (key, j) :: rest => (key, ofJson j) :: ofJsonMembers rest

end

/-- The results of successes in order, or the first failure. -/
def collect {ε α : Type} : List (Text × Except ε α) → Except ε (List (Text × α))
  | [] => .ok []
  | (key, result) :: rest => do
    let x ← result
    let xs ← collect rest
    return (key, x) :: xs

mutual

/-- The document of a value, with the members of every object in the order of their keys. -/
def toJson? : Value → Except Unwritable Json
  | .null => .ok .null
  | .bool b => .ok (.bool b)
  | .int n =>
    if (Text.ofNat n.natAbs).length ≤ Json.maxDigits then .ok (.int n) else .error .longInteger
  | .float x => .ok (.real (x.text Binary64.jsonSpelling))
  | .text t => .ok (.string t)
  | .list _ items => (toJsonItems items).map .array
  | .map .writable entries => (collect (sortByKey (toJsonMembers entries))).map .object
  | .map .readOnly _ => .error .readOnlyMap
  | .foreign _ => .error .foreignObject

def toJsonItems : List Value → Except Unwritable (List Json)
  | [] => .ok []
  | v :: rest => do
    let j ← v.toJson?
    let js ← toJsonItems rest
    return j :: js

def toJsonMembers : List (Text × Value) → List (Text × Except Unwritable Json)
  | [] => []
  | (key, v) :: rest => (key, v.toJson?) :: toJsonMembers rest

end

end Value

end SchemaDocs
