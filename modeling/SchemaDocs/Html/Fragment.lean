import SchemaDocs.Json.Printer
/-!
# Fragments of a page

A page is a list of fragments: markup that the page itself supplies, text that is shown, and data
for scripts.  Only markup reaches the page as it stands.
-/

namespace SchemaDocs.Html

inductive Fragment where
  | markup (t : Text)
  | shown (t : Text)
  | script (data : Json)

/-- A code point of shown text: the five characters with a meaning in markup become entities. -/
def escapedOne (c : CodePoint) : Text :=
  if c = '&' then "&amp;"
  else if c = '<' then "&lt;"
  else if c = '>' then "&gt;"
  else if c = '\'' then "&#39;"
  else if c = '"' then "&#34;"
  else [c]

def escaped (t : Text) : Text :=
  t.flatMap escapedOne

/-- A code point of script data: the four characters that could end the script or an attribute
become escapes.  They occur inside strings only, where an escape means the same. -/
def scriptSafeOne (c : CodePoint) : Text :=
  if c = '<' then "\\u003c"
  else if c = '>' then "\\u003e"
  else if c = '&' then "\\u0026"
  else if c = '\'' then "\\u0027"
  else [c]

def scriptText (data : Json) : Text :=
  data.text.flatMap scriptSafeOne

def Fragment.text : Fragment → Text
  | .markup t => t
  | .shown t => escaped t
  | .script data => scriptText data

def pageText (fragments : List Fragment) : Text :=
  fragments.flatMap Fragment.text

end SchemaDocs.Html
