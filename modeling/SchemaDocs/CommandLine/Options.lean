import SchemaDocs.Entries
import SchemaDocs.Text.Digit
import SchemaDocs.Text.Quoted
/-!
# Options on a command line

Options have a long spelling with two dashes, which may be shortened as long as it fits one option
only, and possibly a short one with one dash and a letter.  A value is attached with an equals sign
or is the next argument; short options without values may stand together behind one dash.

An argument that begins with a dash is a value all the same if it is a dash alone, if it spells a
negative number, or if it has a space in it and is no option.  Two dashes alone end the options:
what comes after them is a value, whatever it begins with.
-/

namespace SchemaDocs.CommandLine

/-- An option that a command line may hold, and what it asks for. -/
structure Switch (α : Type) where
  spellings : List Text
  takesValue : Bool
  meaning : α

/-- How messages name an option. -/
def Switch.title {α : Type} (s : Switch α) : Text :=
  Text.join "/" s.spellings

inductive UsageError where
  | ambiguous (argument : Text) (spellings : List Text)
  | missingValue (option : Text)
  | unwantedValue (option value : Text)
  | missingCommand
  | unknownCommand (name : Text) (known : List Text)
  | unrecognized (arguments : List Text)
  deriving DecidableEq

def UsageError.message : UsageError → Text
  | .ambiguous argument spellings =>
    "ambiguous option: " ++ argument ++ " could match " ++ Text.join ", " spellings
  | .missingValue option => "argument " ++ option ++ ": expected one argument"
  | .unwantedValue option value =>
    "argument " ++ option ++ ": ignored explicit argument " ++ value.quoted
  | .missingCommand => "the following arguments are required: command"
  | .unknownCommand name known =>
    "argument command: invalid choice: " ++ name.quoted ++ " (choose from " ++
      Text.join ", " (known.map Text.quoted) ++ ")"
  | .unrecognized arguments => "unrecognized arguments: " ++ Text.join " " arguments

/-- What an argument is taken for. -/
inductive Word (α : Type) where
  | value
  | option (switch : Switch α) (spelling : Text) (attached : Option Text)
  | unknownOption
  /-- Two dashes alone. -/
  | separator

abbrev Argument (α : Type) := Text × Word α

/-- Decimal digits of any script, at least one of them, up to the end or a last line feed. -/
def isDigitsToEnd (t : Text) : Bool :=
  let rest := t.dropWhile CodePoint.isDecimalDigit
  rest.length < t.length && (rest.isEmpty || rest = ("\n" : Text))

/-- A minus sign and a number, which may have a point. -/
def isNegativeNumber : Text → Bool
  | [] => false
  | c :: rest =>
    c = '-' && (isDigitsToEnd rest ||
      match rest.dropWhile CodePoint.isDecimalDigit with
      | d :: fraction => d = '.' && isDigitsToEnd fraction
      | [] => false)

section Switches

variable {α : Type} (switches : List (Switch α))

/-- The options with each of their spellings, in order. -/
def spelled : List (Text × Switch α) :=
  switches.flatMap fun s => s.spellings.map fun spelling => (spelling, s)

def switch? (spelling : Text) : Option (Switch α) :=
  valueAt? spelling (spelled switches)

/-- The options that an argument can mean that is no spelling itself. -/
def candidates (argument : Text) : List (Text × Switch α × Option Text) :=
  if argument.startsWith "--" then
    let (start, attached) :=
      match Text.splitFirst? '=' argument with
      | some (before, after) => (before, some after)
      | none => (argument, none)
    (spelled switches).filterMap fun (spelling, s) =>
      if spelling.startsWith start then some (spelling, s, attached) else none
  else
    (spelled switches).filterMap fun (spelling, s) =>
      if spelling = argument.take 2 then some (spelling, s, some (argument.drop 2)) else none

/-- What an argument is taken for that begins with a dash and is longer than it. -/
def classifyDashed (argument : Text) : Except UsageError (Word α) :=
  let exact := do
    let (before, after) ← Text.splitFirst? '=' argument
    let s ← switch? switches before
    return Word.option s before (some after)
  match exact with
  | some word => .ok word
  | none =>
    match candidates switches argument with
    | [] =>
      let isValue := isNegativeNumber argument || argument.contains (' ' : CodePoint)
      .ok (if isValue then .value else .unknownOption)
    | [(spelling, s, attached)] => .ok (.option s spelling attached)
    | several => .error (.ambiguous argument (several.map Prod.fst))

def classify (argument : Text) : Except UsageError (Word α) :=
  if !argument.startsWith "-" then .ok .value
  else
    match switch? switches argument with
    | some s => .ok (.option s argument none)
    | none => if argument.length = 1 then .ok .value else classifyDashed switches argument

/-- What each argument is taken for.  No option is looked for behind two dashes that stand alone. -/
def classifyAll : List Text → Except UsageError (List (Argument α))
  | [] => .ok []
  | argument :: rest =>
    if argument = "--" then .ok ((argument, .separator) :: rest.map fun value => (value, .value))
    else do
      let word ← classify switches argument
      let words ← classifyAll rest
      return (argument, word) :: words

/-- An option that was asked for, with its value if it has one. -/
abbrev Setting (α : Type) := α × Option Text

/-- The setting of an option without an attached value, and whether it takes the next argument. -/
def detached (s : Switch α) (next : Option (Argument α)) :
    Except UsageError (List (Setting α) × Bool) :=
  if s.takesValue then
    match next with
    | some (value, .value) => .ok ([(s.meaning, some value)], true)
    | _ => .error (.missingValue s.title)
  else .ok ([(s.meaning, none)], false)

/-- The settings of short options behind one dash: one that takes no value, and the letters after
it. -/
def cluster (next : Option (Argument α)) (s : Switch α) :
    Text → Except UsageError (List (Setting α) × Bool)
  | [] => .error (.unwantedValue s.title [])
  | letter :: more =>
    match switch? switches [('-' : CodePoint), letter] with
    | none => .error (.unwantedValue s.title (letter :: more))
    | some following =>
      let found :=
        if more.isEmpty then detached following next
        else if following.takesValue then .ok ([(following.meaning, some more)], false)
        else cluster next following more
      found.map fun (settings, takesNext) => ((s.meaning, none) :: settings, takesNext)

/-- The settings that one argument asks for, and whether they take the next argument. -/
def resolve (s : Switch α) (spelling : Text) (attached : Option Text)
    (next : Option (Argument α)) : Except UsageError (List (Setting α) × Bool) :=
  match attached with
  | none => detached s next
  | some value =>
    if s.takesValue then .ok ([(s.meaning, some value)], false)
    else if spelling.startsWith "--" then .error (.unwantedValue s.title value)
    else cluster switches next s value

/-- Where the reading of options ends. -/
inductive Ending where
  | atEnd
  | failed (error : UsageError)
  /-- At a value that belongs to no option. -/
  | atValue (rest : List Text)

structure Reading (α : Type) where
  settings : List (Setting α) := []
  unrecognized : List Text := []
  ending : Ending := .atEnd

/-- A reading with settings in front of it. -/
def Reading.precededBy {α : Type} (settings : List (Setting α)) (r : Reading α) : Reading α :=
  { r with settings := settings ++ r.settings }

/-- A reading with an argument in front of it that nothing is known of. -/
def Reading.afterUnrecognized {α : Type} (argument : Text) (r : Reading α) : Reading α :=
  { r with unrecognized := argument :: r.unrecognized }

/-- Reads options.  A value that belongs to none of them ends the reading if `stops`, and is not
recognized otherwise.  So do two dashes alone, which are not recognized if nothing follows them. -/
def readOptions (stops : Bool) : List (Argument α) → Reading α
  | [] => {}
  | (argument, word) :: rest =>
    match word with
    | .unknownOption => (readOptions stops rest).afterUnrecognized argument
    | .value =>
      if stops then { ending := .atValue (argument :: rest.map Prod.fst) }
      else (readOptions stops rest).afterUnrecognized argument
    | .separator =>
      if stops && !rest.isEmpty then { ending := .atValue (argument :: rest.map Prod.fst) }
      else (readOptions stops rest).afterUnrecognized argument
    | .option s spelling attached =>
      match resolve switches s spelling attached rest.head? with
      | .error error => { ending := .failed error }
      | .ok (settings, false) => (readOptions stops rest).precededBy settings
      | .ok (settings, true) =>
        match rest with
        | [] => { settings }
        | _ :: rest => (readOptions stops rest).precededBy settings

end Switches

end SchemaDocs.CommandLine
