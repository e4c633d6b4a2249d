import SchemaDocs.CommandLine.Options
import SchemaDocs.Settings
/-!
# Invocations

A command line asks for one of three commands with its options, or for help.  The options of the
program come before the command and those of the command after it.  Two dashes are no way to a
command: in front of one they are taken for its name, and behind it they are not recognized.
-/

namespace SchemaDocs.CommandLine

inductive Command where
  | html
  | markdown
  | both
  deriving DecidableEq

namespace Command

def name : Command → Text
  | .html => "gen-html"
  | .markdown => "gen-markdown"
  | .both => "gen-docs"

def all : List Command := [.html, .markdown, .both]

def ofName? (t : Text) : Option Command :=
  all.find? fun c => c.name == t

def wantsHtml (c : Command) : Bool := c != .markdown

def wantsMarkdown (c : Command) : Bool := c != .html

end Command

inductive ProgramOption where
  | help
  | verbose
  deriving DecidableEq

inductive CommandOption where
  | help
  | schema
  | output
  | config
  | title
  deriving DecidableEq

def programSwitches : List (Switch ProgramOption) := [
  ⟨["-h", "--help"], false, .help⟩,
  ⟨["-v", "--verbose"], false, .verbose⟩]

def commandSwitches : List (Switch CommandOption) := [
  ⟨["-h", "--help"], false, .help⟩,
  ⟨["--schema"], true, .schema⟩,
  ⟨["--output"], true, .output⟩,
  ⟨["--config"], true, .config⟩,
  ⟨["--title"], true, .title⟩]

/-- What a command is told; what is left out comes from the settings. -/
structure Options where
  schema : Option Path := none
  output : Option Path := none
  config : SettingsFile := .standard
  title : Option Text := none
  deriving DecidableEq

/-- Options with one more setting, which counts more than an earlier one. -/
def Options.apply (o : Options) : Setting CommandOption → Options
  | (.schema, some value) => { o with schema := some (.ofText value) }
  | (.output, some value) => { o with output := some (.ofText value) }
  | (.config, some value) => { o with config := .named (.ofText value) }
  | (.title, some value) => { o with title := some value }
  | _ => o

structure Invocation where
  verbose : Bool
  command : Command
  options : Options
  deriving DecidableEq

inductive Request where
  | generate (invocation : Invocation)
  | help (text : Text)

/-- Why a command line is refused, and by which part of the program. -/
structure Refusal where
  program : Text
  usage : Text
  error : UsageError

def Refusal.message (r : Refusal) : Text :=
  r.usage ++ r.program ++ ": error: " ++ r.error.message ++ "\n"

def programName : Text := "prisma-docs"

def commandChoices : Text :=
  "\x7b" ++ Text.join "," (Command.all.map Command.name) ++ "\x7d"

def programUsage : Text :=
  "usage: " ++ programName ++ " [-h] [-v] " ++ commandChoices ++ " ...\n"

def programHelp : Text :=
  programUsage ++ "\npositional arguments:\n  " ++ commandChoices ++ "\n\n" ++ Text.ofLines [
    "options:",
    "  -h, --help            show this help message and exit",
    "  -v, --verbose         enable debug logging"]

def Command.program (c : Command) : Text :=
  programName ++ " " ++ c.name

/-- The usage of a command in two lines, the second one below the first option. -/
def Command.usage (c : Command) : Text :=
  let start : Text := "usage: " ++ c.program ++ " "
  start ++ "[-h] [--schema SCHEMA] [--output OUTPUT]\n" ++ Text.fill start.length ' ' ++
    "[--config CONFIG] [--title TITLE]\n"

def Command.help (c : Command) : Text :=
  c.usage ++ "\n" ++ Text.ofLines [
    "options:",
    "  -h, --help       show this help message and exit",
    "  --schema SCHEMA  DMMF JSON dump of the Prisma schema",
    "  --output OUTPUT  directory for the generated files",
    "  --config CONFIG  path to a prisma-docs.toml file",
    "  --title TITLE    document title"]

/-- The options of a command, with the arguments that it does not know, or its help. -/
def readCommand (c : Command) (arguments : List Text) :
    Except Refusal (Text ⊕ (Options × List Text)) := do
  let refuse := fun error => Refusal.mk c.program c.usage error
  let words ← (classifyAll commandSwitches arguments).mapError refuse
  let reading := readOptions commandSwitches false words
  if reading.settings.any fun s => s.1 == .help then return .inl c.help
  match reading.ending with
  | .failed error => throw (refuse error)
  | _ => return .inr (reading.settings.foldl Options.apply {}, reading.unrecognized)

/-- What a command line asks for.  All arguments are looked at as options of the program first;
those of the program that are not known are reported together with those of the command, and after
anything else that is wrong. -/
def parse (arguments : List Text) : Except Refusal Request := do
  let refuse := fun error => Refusal.mk programName programUsage error
  let words ← (classifyAll programSwitches arguments).mapError refuse
  let reading := readOptions programSwitches true words
  if reading.settings.any fun s => s.1 == .help then return .help programHelp
  match reading.ending with
  | .failed error => throw (refuse error)
  | .atEnd => throw (refuse .missingCommand)
  | .atValue [] => throw (refuse .missingCommand)
  | .atValue (name :: rest) =>
    match Command.ofName? name with
    | none => throw (refuse (.unknownCommand name (Command.all.map Command.name)))
    | some command =>
      match ← readCommand command rest with
      | .inl text => return .help text
      | .inr (options, unrecognized) =>
        let unknown := reading.unrecognized ++ unrecognized
        if unknown.isEmpty then
          return .generate {
            verbose := reading.settings.any fun s => s.1 == .verbose
            command, options }
        else throw (refuse (.unrecognized unknown))

end SchemaDocs.CommandLine
