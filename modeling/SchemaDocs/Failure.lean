import SchemaDocs.Document.Sections
import SchemaDocs.FileSystem.Basic
import SchemaDocs.Json.Reader
import SchemaDocs.Settings
/-!
# Failures

Everything that a run can fail for, and its wording.
-/

namespace SchemaDocs

inductive Failure where
  /-- The schema file is missing. -/
  | schemaNotFound (path : Path)
  /-- The schema file is no JSON document. -/
  | schemaSyntax (cause : Json.Cause) (place : Json.Place)
  /-- The document of the schema holds no list of models. -/
  | schemaWithoutModels
  | shape (error : ShapeError)
  | render (error : RenderFault)
  /-- A document has a whole number with too many digits. -/
  | longInteger (digits : Nat)
  /-- The settings file is no TOML document.  What is wrong with it is said in the words of the TOML
  parser in use, which are no part of the program: the name of the error stands for them. -/
  | settingsSyntax
  | settings (error : SettingsError)
  | file (error : FileError)
  | undecodable (fault : Utf8.DecodeFault)
  | unencodable (fault : Utf8.EncodeFault)
  deriving DecidableEq

/-- What is said about a schema that cannot be used. -/
def invalidSchema : Text :=
  "Invalid DMMF structure. Please check your schema for correctness"

def Failure.message : Failure → Text
  | .schemaNotFound path =>
    "Schema file not found at " ++ path.text ++ ". Please ensure the path is correct."
  | .schemaSyntax cause place => invalidSchema ++ ": " ++ cause.message ++ ": " ++ place.text
  | .schemaWithoutModels => invalidSchema ++ "."
  | .shape error => error.message
  | .render error => error.message
  | .longInteger digits => Json.longIntegerMessage digits
  | .settingsSyntax => "TOMLDecodeError"
  | .settings error => error.message
  | .file error => error.message
  | .undecodable fault => fault.message
  | .unencodable fault => fault.message

/-- Whether a failure is reported to the caller as one line.  The others cut the program short. -/
def Failure.isReported : Failure → Bool
  | .render (.unwritable .foreignObject) => false
  | .render (.unwritable .readOnlyMap) => false
  | _ => true

end SchemaDocs
