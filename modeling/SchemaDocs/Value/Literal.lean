import SchemaDocs.Json.Printer
/-!
# Default literals

The text of a default as a schema writes it: texts bare, truth values in lower case, lists in
brackets, and maps as JSON.  Whole numbers have the same limit as there.
-/

namespace SchemaDocs.Value

mutual

/-- The literal of a value.  A map has none if its JSON document cannot be written, and a whole
number has none if it is too long. -/
def literal : Value → Except Unwritable Text
  | .null => .ok "None"
  | .bool b => .ok (if b then "true" else "false")
  | .int n =>
    if (Text.ofNat n.natAbs).length ≤ Json.maxDigits then .ok (Text.ofInt n)
    else .error .longInteger
  | .float x => .ok (x.text Binary64.displaySpelling)
  | .text t => .ok t
  | .list _ items => (itemLiterals items).map fun ls => "[" ++ Text.join ", " ls ++ "]"
  | .map access entries => (Value.map access entries).unlock.toJson?.map Json.text
  | .foreign display => .ok display

def itemLiterals : List Value → Except Unwritable (List Text)
  | [] => .ok []
  | v :: rest => do
    let l ← v.literal
    let ls ← itemLiterals rest
    return l :: ls

end

end SchemaDocs.Value
