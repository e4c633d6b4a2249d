import SchemaDocs.Html.Page
import SchemaDocs.Markdown
import SchemaDocs.Schema.Source
/-!
# The two documents

Both documents of a schema, and the writing of them.  Both are rendered before anything is written,
and every directory exists before the first file is written.
-/

namespace SchemaDocs

structure DocumentPair where
  models : List Model
  html : Text
  markdown : Text

namespace DocumentPair

def ofModels (title : Text) (models : List Model) : Except RenderFault DocumentPair := do
  let html ← Html.render title models
  let markdown ← Markdown.render title models
  return { models, html, markdown }

def build (title : Text) (raw : Value) : Run DocumentPair := do
  let models ← Schema.models raw
  Run.ofExcept .render (ofModels title models)

/-- Where a document goes, if it is wanted: nothing is wanted under an empty name. -/
def target (directory : Path) (name : Option Text) (document : Text) : List (Path × Text) :=
  match name with
  | none => []
  | some name => if name.isEmpty then [] else [(directory.join (.ofText name), document)]

/-- Where the wanted documents go, the HTML page first. -/
def targets (d : DocumentPair) (directory : Path) (htmlFile markdownFile : Option Text) :
    List (Path × Text) :=
  target directory htmlFile d.html ++ target directory markdownFile d.markdown

/-- Makes the directory of the documents if nothing is there yet. -/
def prepareDirectory (directory : Path) : Run Unit := do
  if ← Run.ask fun fs => fs.contains directory then return ()
  Run.makeDirectories directory false
  Run.log .info "Docs directory created."

/-- Makes the directories of the targets as far as they are missing. -/
def prepareTargets : List (Path × Text) → Run Unit
  | [] => return ()
  | (path, _) :: rest => do
    Run.makeDirectories path.parent true
    prepareTargets rest

/-- Writes the targets one after the other and returns their paths. -/
def writeTargets : List (Path × Text) → Run (List Path)
  | [] => return []
  | (path, document) :: rest => do
    Run.writeFile path document
    Run.log .info ("Documentation generated! Check '" ++ path.text ++ "'")
    let written ← writeTargets rest
    return path :: written

/-- Writes the wanted documents into a directory and returns their paths. -/
def write (d : DocumentPair) (directory : Path) (htmlFile markdownFile : Option Text) :
    Run (List Path) := do
  let targets := d.targets directory htmlFile markdownFile
  prepareDirectory directory
  prepareTargets targets
  writeTargets targets

end DocumentPair

/-- Writes one document of models to a file.  The document is rendered before anything is made. -/
def writeDocument (render : List Model → Except RenderFault Text) (models : List Model)
    (output : Path) : Run Unit := do
  let document ← Run.ofExcept .render (render models)
  Run.makeDirectories output.parent true
  Run.writeFile output document

def writeHtmlFile (title : Text) (models : List Model) (output : Path) : Run Unit :=
  writeDocument (Html.render title) models output

def writeMarkdownFile (title : Text) (models : List Model) (output : Path) : Run Unit :=
  writeDocument (Markdown.render title) models output

end SchemaDocs
