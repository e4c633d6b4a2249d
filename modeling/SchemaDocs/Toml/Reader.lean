import SchemaDocs.Toml.Scalar
/-!
# Reading TOML

A document is a sequence of lines that set a key or open a table.  Tables that are written inline,
and arrays of values, are closed: nothing is added to them later.  A table is opened by a header
once at most, and not after dotted keys of an earlier part of the document have made it.
-/

namespace SchemaDocs.Toml

def isBareKey (c : CodePoint) : Bool :=
  c.isDigit || (0x41 ≤ c.value && c.value ≤ 0x5A) || (0x61 ≤ c.value && c.value ≤ 0x7A) ||
    c.value == 0x2D || c.value == 0x5F

/-- A comment at the start of a text is left out, up to the end of its line. -/
def skipComment (t : Text) : Except Error Text :=
  match t with
  | [] => .ok []
  | c :: rest =>
    if c = '#' then
      let comment := rest.takeWhile fun d => d != ('\n' : CodePoint)
      if comment.any isIllegal then .error .malformed else .ok (rest.drop comment.length)
    else .ok t

/-- Blanks, empty lines and comments at the start of a text are left out.  The first argument bounds
the number of comments. -/
def skipBlankLines : Nat → Text → Except Error Text
  | 0, t => .ok t
  | fuel + 1, t =>
    match t.dropWhile isSpaceOrNewline with
    | [] => .ok []
    | c :: rest =>
      if c = '#' then do
        let after ← skipComment (c :: rest)
        skipBlankLines fuel after
      else .ok (c :: rest)

/-- A key without dots at the start of a text. -/
def readKeyPart (t : Text) : Except Error (Text × Text) :=
  match t with
  | [] => .error .malformed
  | c :: rest =>
    if isBareKey c then .ok (t.takeWhile isBareKey, t.dropWhile isBareKey)
    else if c = '"' then readBasic false 0 [] rest
    else if c = '\'' then readLiteral rest
    else .error .malformed

/-- The parts of a key after its first one.  The first argument bounds their number. -/
def readKeyRest : Nat → KeyPath → Text → Except Error (KeyPath × Text)
  | 0, done, t => .ok (done.reverse, t)
  | fuel + 1, done, t =>
    match skipSpace t with
    | c :: rest =>
      if c = '.' then do
        let (part, after) ← readKeyPart (skipSpace rest)
        readKeyRest fuel (part :: done) after
      else .ok (done.reverse, c :: rest)
    | [] => .ok (done.reverse, [])

/-- A key and the blanks after it.  The first argument bounds the number of its parts. -/
def readKey (fuel : Nat) (t : Text) : Except Error (KeyPath × Text) := do
  let (part, after) ← readKeyPart t
  readKeyRest fuel [part] after

def expect (mark t : Text) : Except Error Text :=
  match Text.dropStart? mark t with
  | some after => .ok after
  | none => .error .malformed

def required {α : Type} : Option α → Except Error α
  | some x => .ok x
  | none => .error .malformed

/-- Whether a container has been closed that a key leads to or into. -/
def isClosed (closed : List KeyPath) (key : KeyPath) : Bool :=
  closed.any fun k => k.isPrefixOf key

mutual

/-- A value at the start of a text.  The first argument bounds the depth of the calls. -/
def readValue : Nat → Text → Except Error (Toml × Text)
  | 0, _ => .error .malformed
  | _ + 1, [] => .error .malformed
  | fuel + 1, c :: rest =>
    if c = '[' then do
      let inside ← skipBlankLines fuel rest
      match Text.dropStart? "]" inside with
      | some after => .ok (.array [], after)
      | none => readItems fuel [] inside
    else if c = '\x7b' then
      let inside := skipSpace rest
      match Text.dropStart? "\x7d" inside with
      | some after => .ok (.table [], after)
      | none => readInline fuel [] [] inside
    else readScalarValue (c :: rest)

/-- The items of an array from one of them on. -/
def readItems : Nat → List Toml → Text → Except Error (Toml × Text)
  | 0, _, _ => .error .malformed
  | fuel + 1, done, t => do
    let (v, afterValue) ← readValue fuel t
    let items := v :: done
    match ← skipBlankLines fuel afterValue with
    | [] => .error .malformed
    | c :: rest =>
      if c = ']' then .ok (.array items.reverse, rest)
      else if c = ',' then do
        let next ← skipBlankLines fuel rest
        match Text.dropStart? "]" next with
        | some after => .ok (.array items.reverse, after)
        | none => readItems fuel items next
      else .error .malformed

/-- The entries of an inline table from one of them on, with the keys of the containers that are
closed in it. -/
def readInline : Nat → List KeyPath → Entries → Text → Except Error (Toml × Text)
  | 0, _, _, _ => .error .malformed
  | fuel + 1, closed, entries, t => do
    let (key, afterKey) ← readKey fuel t
    let afterSign ← expect "=" afterKey
    let (v, afterValue) ← readValue fuel (skipSpace afterSign)
    if isClosed closed key then .error .malformed
    else
      let entries ← required (put false key v entries)
      match skipSpace afterValue with
      | [] => .error .malformed
      | c :: rest =>
        if c = '\x7d' then .ok (.table entries, rest)
        else if c = ',' then
          readInline fuel (if v.isContainer then key :: closed else closed) entries (skipSpace rest)
        else .error .malformed

end

/-- A document that has been read in part. -/
structure Draft where
  entries : Entries := []
  /-- The table that keys are set in. -/
  header : KeyPath := []
  /-- The containers that nothing may be added to. -/
  closed : List KeyPath := []
  /-- The tables that no header may open. -/
  opened : List KeyPath := []
  /-- The tables that dotted keys have made since the last header. -/
  dotted : List KeyPath := []

namespace Draft

/-- The tables that a dotted key leads through, as keys from the top. -/
def passages (header key : KeyPath) : List KeyPath :=
  (List.range (key.length - 1)).map fun i => header ++ key.take (i + 1)

/-- A draft with a key set in its current table. -/
def setKey (d : Draft) (key : KeyPath) (v : Toml) : Option Draft :=
  let passed := passages d.header key
  let full := d.header ++ key
  if passed.any d.opened.contains || isClosed d.closed full.dropLast then none
  else
    (put true full v d.entries).map fun entries =>
      { d with
        entries
        dotted := passed ++ d.dotted
        closed := if v.isContainer then full :: d.closed else d.closed }

/-- A draft at a header: the tables that dotted keys have made are not to be opened any more. -/
def atHeader (d : Draft) : Draft :=
  { d with opened := d.dotted ++ d.opened, dotted := [] }

def openTable (d : Draft) (key : KeyPath) : Option Draft :=
  if d.opened.contains key || isClosed d.closed key then none
  else
    (alter true some key d.entries).map fun entries =>
      { d with entries, header := key, opened := key :: d.opened }

/-- A draft with a table opened that is a new item of an array.  What was opened in the items before
may be opened in this one again. -/
def openItem (d : Draft) (key : KeyPath) : Option Draft :=
  if isClosed d.closed key then none
  else
    match key.getLast? with
    | none => none
    | some last =>
      (alter true (addTable last) key.dropLast d.entries).map fun entries =>
        { d with
          entries
          header := key
          opened := key :: d.opened.filter fun k => !key.isPrefixOf k
          closed := d.closed.filter fun k => !key.isPrefixOf k }

end Draft

def readSetting (fuel : Nat) (d : Draft) (t : Text) : Except Error (Draft × Text) := do
  let (key, afterKey) ← readKey fuel t
  let afterSign ← expect "=" afterKey
  let (v, after) ← readValue fuel (skipSpace afterSign)
  let d ← required (d.setKey key v)
  return (d, after)

/-- A line that opens a table, from the text after its first bracket. -/
def readHeader (fuel : Nat) (d : Draft) (t : Text) : Except Error (Draft × Text) :=
  let d := d.atHeader
  match Text.dropStart? "[" t with
  | some inside => do
    let (key, afterKey) ← readKey fuel (skipSpace inside)
    let d ← required (d.openItem key)
    let after ← expect "]]" afterKey
    return (d, after)
  | none => do
    let (key, afterKey) ← readKey fuel (skipSpace t)
    let d ← required (d.openTable key)
    let after ← expect "]" afterKey
    return (d, after)

/-- A line up to its comment. -/
def readStatement (fuel : Nat) (d : Draft) : Text → Except Error (Draft × Text)
  | [] => .ok (d, [])
  | c :: rest =>
    if isBareKey c || c = '"' || c = '\'' then readSetting fuel d (c :: rest)
    else if c = '[' then readHeader fuel d rest
    else if c = '#' || c = '\n' then .ok (d, c :: rest)
    else .error .malformed

/-- The lines of a document.  The first argument bounds their number and the depth of the calls that
read a line. -/
def readLines : Nat → Draft → Text → Except Error Entries
  | 0, d, _ => .ok d.entries
  | fuel + 1, d, t => do
    let (d, afterStatement) ← readStatement fuel d (skipSpace t)
    match ← skipComment (skipSpace afterStatement) with
    | [] => .ok d.entries
    | c :: rest => if c = '\n' then readLines fuel d rest else .error .malformed

/-- A carriage return before a line feed is left out. -/
def joinNewlines : Text → Text
  | [] => []
  | [c] => [c]
  | c :: d :: rest =>
    if c = '\r' && d = '\n' then joinNewlines (d :: rest) else c :: joinNewlines (d :: rest)

/-- The entries of the document that a text is. -/
def read (t : Text) : Except Error Entries :=
  let t := joinNewlines t
  readLines (2 * t.length + 3) {} t

end SchemaDocs.Toml
