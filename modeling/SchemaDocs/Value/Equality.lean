import SchemaDocs.Value.Basic
/-!
# Equality of values

Numbers are compared by value, with `true` and `false` as one and zero.  Lists are equal if they
have the same access and equal items, maps if they have equal values under the same keys, in any
order and with any access.
-/

namespace SchemaDocs.Value

/-- A value as an integer, if it is one or a truth value. -/
def integer? : Value → Option Int
  | .bool b => some (if b then 1 else 0)
  | .int n => some n
  | _ => none

/-- Equality of values that are no containers. -/
def scalarEquals (v w : Value) : Bool :=
  match v, w with
  | .null, .null => true
  | .text s, .text t => s == t
  | .foreign s, .foreign t => s == t
  | .float x, .float y => x.equals y
  | .float x, w => w.integer?.any x.equalsInt
  | v, .float y => v.integer?.any y.equalsInt
  | v, w => v.integer?.isSome && v.integer? == w.integer?

mutual

def equals : Value → Value → Bool
  | .list a items, w =>
    match w with
    | .list b others => a == b && itemsEqual items others
    | _ => false
  | .map _ entries, w =>
    match w with
    | .map _ others => entries.length == others.length && entriesIn entries others
    | _ => false
  | v, w => scalarEquals v w

def itemsEqual : List Value → List Value → Bool
  | [], others => others.isEmpty
  | v :: rest, others =>
    match others with
    | w :: others => v.equals w && itemsEqual rest others
    | [] => false

/-- Whether each entry of one map has an equal value in another. -/
def entriesIn : List (Text × Value) → List (Text × Value) → Bool
  | [], _ => true
  | (key, v) :: rest, others => (valueAt? key others).any v.equals && entriesIn rest others

end

end SchemaDocs.Value
