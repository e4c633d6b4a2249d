import SchemaDocs.CommandLine.Invocation
import SchemaDocs.DocumentPair
import SchemaDocs.Settings.Source
/-!
# Executing a command line

A command loads the settings and the schema, renders the documents and writes those that it is for.
Options count more than settings.  The lines of the log go to standard error; a failure is one of
them and makes the exit code 1, unless it is one that cuts the program short.  A command line that
is refused makes it 2.
-/

namespace SchemaDocs.CommandLine

/-- The title of a run: that of the options, unless it is empty, and else that of the settings. -/
def Options.titleFor (o : Options) (settings : Settings) : Text :=
  match o.title with
  | none => settings.title
  | some title => if title.isEmpty then settings.title else title

/-- The file that the settings of an invocation are read from, if it is there. -/
def Invocation.settingsPath (i : Invocation) : Path :=
  match i.options.config with
  | .standard => Settings.defaultFile
  | .named p => p

/-- The paths that an invocation looks at once it has its settings. -/
def Invocation.paths (i : Invocation) (settings : Settings) : List Path :=
  let directory := i.options.output.getD settings.directory
  [i.options.schema.getD settings.schema, directory, directory.join (.ofText settings.htmlFile),
    directory.join (.ofText settings.markdownFile)]

def Invocation.run (i : Invocation) : Run Unit := do
  let settings ← Settings.load i.options.config
  let raw ← Schema.load (i.options.schema.getD settings.schema)
  let documentation ← DocumentPair.build (i.options.titleFor settings) raw
  let _ ← documentation.write (i.options.output.getD settings.directory)
    (if i.command.wantsHtml then some settings.htmlFile else none)
    (if i.command.wantsMarkdown then some settings.markdownFile else none)

/-- What the caller of the program sees. -/
structure Report where
  exitCode : Nat
  output : Text := []
  errors : Text := []

/-- The lines of a log that are shown; lines for tracing are shown on demand. -/
def shownLines (verbose : Bool) (log : List LogLine) : Text :=
  (log.filter fun l => verbose || l.level != .debug).flatMap fun l => l.text ++ "\n"

/-- Executes an invocation on some files.  A failure that is not reported takes the place of the
report. -/
def Invocation.execute (i : Invocation) (files : FileSystem) :
    Except Failure Report × FileSystem :=
  match i.run { files } with
  | .ok () w => (.ok { exitCode := 0, errors := shownLines i.verbose w.log }, w.files)
  | .error failure w =>
    if failure.isReported then
      let last : LogLine := ⟨.error, "Error generating documentation: " ++ failure.message⟩
      (.ok { exitCode := 1, errors := shownLines i.verbose (w.log ++ [last]) }, w.files)
    else (.error failure, w.files)

def execute (arguments : List Text) (files : FileSystem) : Except Failure Report × FileSystem :=
  match parse arguments with
  | .error refusal => (.ok { exitCode := 2, errors := refusal.message }, files)
  | .ok (.help text) => (.ok { exitCode := 0, output := text }, files)
  | .ok (.generate invocation) => invocation.execute files

/-- The status that the program ends with: the exit code of its report, and 1 for a failure that
takes the place of the report. -/
def exitStatus : Except Failure Report → Nat
  | .ok report => report.exitCode
  | .error _ => 1

end SchemaDocs.CommandLine
