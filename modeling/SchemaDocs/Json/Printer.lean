import SchemaDocs.Json.Basic
/-!
# Printing JSON

A document on one line, in printable ASCII: a comma and a colon are followed by a space, and every
code point outside U+0020 to U+007E is escaped, as a surrogate pair beyond U+FFFF.
-/

namespace SchemaDocs.Json

def unicodeEscape (n : Nat) : Text :=
  "\\u" ++ Text.hex 4 n

def escaped (c : CodePoint) : Text :=
  if c = '"' then "\\\""
  else if c = '\\' then "\\\\"
  else if c.value = 0x08 then "\\b"
  else if c.value = 0x09 then "\\t"
  else if c.value = 0x0A then "\\n"
  else if c.value = 0x0C then "\\f"
  else if c.value = 0x0D then "\\r"
  else if 0x20 ≤ c.value && c.value ≤ 0x7E then [c]
  else if c.value < 0x10000 then unicodeEscape c.value
  else
    unicodeEscape (0xD800 + (c.value - 0x10000) / 0x400) ++
      unicodeEscape (0xDC00 + (c.value - 0x10000) % 0x400)

def stringText (t : Text) : Text :=
  ('"' : CodePoint) :: (t.flatMap escaped ++ "\"")

mutual

def text : Json → Text
  | .null => "null"
  | .bool true => "true"
  | .bool false => "false"
  | .int n => Text.ofInt n
  | .real literal => literal
  | .string t => stringText t
  | .array items => ('[' : CodePoint) :: (itemsText items ++ "]")
  | .object members => ('\x7b' : CodePoint) :: (membersText members ++ "\x7d")

def itemsText : List Json → Text
  | [] => []
  | [j] => j.text
  | j :: k :: rest => j.text ++ ", " ++ itemsText (k :: rest)

def membersText : List (Text × Json) → Text
  | [] => []
  | [(key, j)] => stringText key ++ ": " ++ j.text
  | (key, j) :: m :: rest => stringText key ++ ": " ++ j.text ++ ", " ++ membersText (m :: rest)

end

end SchemaDocs.Json
