import SchemaDocs.Text.Numeral
import SchemaDocs.Text.Printable
/-!
# Quoted text

Text between quotes for messages, on one line and with every code point visible.
-/

namespace SchemaDocs.Text

/-- How a code point shows between quotes of a given kind: a backslash and the quote are escaped,
three line characters have short escapes, and what is not printable is written by its number. -/
def quotedOne (quote c : CodePoint) : Text :=
  if c = quote || c = '\\' then ['\\', c]
  else if c = '\n' then "\\n"
  else if c = '\r' then "\\r"
  else if c = '\t' then "\\t"
  else if c.isPrintable then [c]
  else if c.value < 0x100 then "\\x" ++ hex 2 c.value
  else if c.value < 0x10000 then "\\u" ++ hex 4 c.value
  else "\\U" ++ hex 8 c.value

/-- The quote for a text: the single one, unless the text holds it and not the double one. -/
def quoteFor (t : Text) : CodePoint :=
  if t.contains ('\'' : CodePoint) && !t.contains ('"' : CodePoint) then '"' else '\''

def quoted (t : Text) : Text :=
  let quote := quoteFor t
  quote :: (t.flatMap (quotedOne quote) ++ [quote])

end SchemaDocs.Text
