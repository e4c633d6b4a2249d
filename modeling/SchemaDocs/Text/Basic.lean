/-!
# Text

Text is a list of code points.  A code point may be a surrogate: a schema can spell one with a lone
`\ud800` escape, and such text has to be carried, compared and printed before it is found that it
cannot be written as UTF-8.
-/

namespace SchemaDocs

/-- A Unicode code point, surrogates included. -/
structure CodePoint where
  value : Nat
  isLt : value < 0x110000
  deriving DecidableEq

namespace CodePoint

@[ext] theorem ext {a b : CodePoint} (h : a.value = b.value) : a = b := by
  cases a
  cases b
  cases h
  rfl

def ofChar (c : Char) : CodePoint :=
  ⟨c.toNat, by
    have h := c.valid
    simp only [UInt32.isValidChar, Nat.isValidChar] at h
    simp only [Char.toNat]
    omega⟩

instance : Coe Char CodePoint := ⟨ofChar⟩

def ofNat? (n : Nat) : Option CodePoint :=
  if h : n < 0x110000 then some ⟨n, h⟩ else none

/-- The code point with a given number; U+FFFD when there is none. -/
def ofNatD (n : Nat) : CodePoint :=
  if h : n < 0x110000 then ⟨n, h⟩ else ⟨0xFFFD, by decide⟩

/-- Surrogates have no UTF-8 form. -/
def isSurrogate (c : CodePoint) : Bool :=
  0xD800 ≤ c.value && c.value ≤ 0xDFFF

def isDigit (c : CodePoint) : Bool :=
  0x30 ≤ c.value && c.value ≤ 0x39

/-- Whether a code point is one of the characters of a literal. -/
def isOneOf (c : CodePoint) (choices : String) : Bool :=
  choices.toList.any fun d => c == ofChar d

/-- The code point as a character; U+FFFD stands for a surrogate. -/
def toChar (c : CodePoint) : Char :=
  if c.isSurrogate then '\uFFFD' else Char.ofNat c.value

end CodePoint

/-- Text: a list of code points. -/
abbrev Text := List CodePoint

namespace Text

def ofString (s : String) : Text :=
  s.toList.map CodePoint.ofChar

instance : Coe String Text := ⟨ofString⟩

/-- The string of a text, with U+FFFD for each surrogate. -/
def toString (t : Text) : String :=
  String.ofList (t.map CodePoint.toChar)

def fill (n : Nat) (c : CodePoint) : Text :=
  List.replicate n c

/-- Texts one after the other, with a separator between neighbours. -/
def join (separator : Text) : List Text → Text
  | [] => []
  | [t] => t
  | t :: u :: rest => t ++ separator ++ join separator (u :: rest)

/-- Lines of a fixed text, each ended by a line feed. -/
def ofLines (ls : List String) : Text :=
  ls.flatMap fun l => ofString l ++ ofString "\n"

/-- Every occurrence of one code point replaced by a text. -/
def replace (t : Text) (old : CodePoint) (new : Text) : Text :=
  t.flatMap fun c => if c = old then new else [c]

/-- The parts between the occurrences of a separator; one part more than there are separators. -/
def split (separator : CodePoint) : Text → List Text
  | [] => [[]]
  | c :: rest =>
    if c = separator then [] :: split separator rest
    else
      match split separator rest with
      | [] => [[c]]
      | part :: parts => (c :: part) :: parts

/-- The text up to the first occurrence of a separator and the text after it. -/
def splitFirst? (separator : CodePoint) : Text → Option (Text × Text)
  | [] => none
  | c :: rest =>
    if c = separator then some ([], rest)
    else (splitFirst? separator rest).map fun (before, after) => (c :: before, after)

/-- What follows a given beginning, if the text begins so. -/
def dropStart? : Text → Text → Option Text
  | [], t => some t
  | _ :: _, [] => none
  | p :: ps, c :: t => if p = c then dropStart? ps t else none

def startsWith (t start : Text) : Bool :=
  (dropStart? start t).isSome

/-- Dictionary order by code points. -/
def le : Text → Text → Bool
  | [], _ => true
  | _ :: _, [] => false
  | a :: s, b :: t => a.value < b.value || (a.value == b.value && le s t)

/-- A carriage return, with a line feed after it or alone, counts as one line feed. -/
def unifyNewlines : Text → Text
  | [] => []
  | [c] => if c = '\r' then ['\n'] else [c]
  | c :: d :: rest =>
    if c = '\r' then
      ('\n' : CodePoint) :: if d = '\n' then unifyNewlines rest else unifyNewlines (d :: rest)
    else c :: unifyNewlines (d :: rest)

end Text

end SchemaDocs
