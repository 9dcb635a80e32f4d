/-
Schemas and settings from files.

A schema file has to end in `.json` and to be there before it is read.  Settings may name auxiliary
schemas by relative paths, which are seen from the directory that holds the settings.
-/
import CommandSchema.Compilation
import CommandSchema.Files.Access
import CommandSchema.Settings.Yaml

namespace CommandSchema

/-- Why a file cannot be loaded. -/
inductive LoadFault where
  | io (error : FileError)
  | json (error : Json.Error)
  | yaml (fault : Yaml.Fault)
  | notJson (path : String)
  | missing (path : String)
  deriving DecidableEq, Repr

namespace LoadFault

def message : LoadFault → String
  | .io error => "I/O error: " ++ error.message
  | .json error => "JSON error: " ++ error.message
  | .yaml fault => "YAML error: " ++ fault.message
  | .notJson path => "invalid input: " ++ path ++ " is not a .json file"
  | .missing path => "invalid input: " ++ path ++ " does not exist"

end LoadFault

variable {m : Type → Type} [Monad m] [FileAccess m]

/-! ## Schemas -/

namespace Schema

/-- The schema that the contents of a file are. -/
def ofBytes (bytes : ByteArray) : Except LoadFault Schema :=
  (ofGlyphs .stream (Glyph.ofBytes bytes.toList)).mapError .json

def load (path : String) : m (Except LoadFault Schema) := do
  if Path.extension? path ≠ some "json" then return .error (.notJson path)
  else if !(← FileAccess.isFile path) then return .error (.missing path)
  else
    match ← FileAccess.read path with
    | .error error => return .error (.io error)
    | .ok bytes => return ofBytes bytes

def loadAll : List String → m (Except LoadFault (List Schema))
  | [] => return .ok []
  | path :: rest => do
    match ← load path with
    | .error fault => return .error fault
    | .ok schema => return (← loadAll rest).map (schema :: ·)

end Schema

/-- The schemas of a run, and the name of the file of the primary one. -/
structure SchemaInputs where
  name : String
  primary : Schema
  auxiliary : List Schema

namespace SchemaInputs

def load (primary : String) (auxiliary : List String) : m (Except LoadFault SchemaInputs) := do
  match ← Schema.load primary with
  | .error fault => return .error fault
  | .ok schema =>
    return (← Schema.loadAll auxiliary).map fun others =>
      ⟨(Path.fileName? primary).getD "", schema, others⟩

def compile (inputs : SchemaInputs) : Except Fault (List Fragment) :=
  inputs.primary.compile inputs.auxiliary

end SchemaInputs

/-! ## Settings -/

namespace Settings

/-- The settings with auxiliary paths seen from a directory. -/
def seenFrom (base : String) (s : Settings) : Settings :=
  { s with auxiliary := s.auxiliary.map (Path.join base) }

/-- The settings that the contents of a file in a directory are. -/
def ofBytes (base : String) (bytes : ByteArray) : Except LoadFault Settings :=
  match ofGlyphs (Glyph.ofBytes bytes.toList) with
  | .error fault => .error (.yaml fault)
  | .ok s => .ok (s.seenFrom base)

def load (path : String) : m (Except LoadFault Settings) := do
  match ← FileAccess.read path with
  | .error .isDirectory => return .error (.yaml ⟨FileError.isDirectory.message, {}, none⟩)
  | .error error => return .error (.io error)
  | .ok bytes => return ofBytes ((Path.parent? path).getD "") bytes

/-- The fault of a path that is no text, which a document cannot have. -/
def notText : Yaml.Fault := ⟨"path contains invalid UTF-8 characters", {}, none⟩

/-- Writes settings as a document.  The file is made anew before the document is: it is left empty
where there is none. -/
def save (s : Settings SystemPath) (path : String) : m (Except LoadFault Unit) := do
  let document := s.texts?.map toYaml
  match ← FileAccess.write path (document.getD "").toUTF8 with
  | .error error => return .error (.io error)
  | .ok () => return if document.isSome then .ok () else .error (.yaml notText)

end Settings
end CommandSchema
