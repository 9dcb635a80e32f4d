/-
The two generated files.

The header has an include guard, named after the schema file, around the declarations; the source
file includes the header and has the definitions.  Both say in a banner where they come from.
-/
import CommandSchema.Compilation
import CommandSchema.Settings.Basic

namespace CommandSchema

/-- The texts of the generated files. -/
structure Artifacts where
  header : String
  source : String
  deriving DecidableEq, Repr

namespace Artifacts

/-- The name of a file up to its first point. -/
def stem (fileName : String) : String := String.ofList (fileName.toList.takeWhile (· ≠ '.'))

def isGuardChar (c : Char) : Bool := c.isAlphanum || c = '_'

/-- The include guard for a schema file. -/
def guardName (inputName : String) : String :=
  String.ofList ((stem inputName).toList.map fun c => if isGuardChar c then c else '_') ++
    "_AUTO_H"

/-- The comment that says where a file comes from, between empty lines. -/
def banner (generator inputName : String) : List String := [
  "",
  "/*",
  "    This file is auto-generated by " ++ generator,
  "        Input: " ++ inputName,
  "*/",
  ""]

def includeLine (file : String) : String := "#include \"" ++ file ++ "\""

def headerText (inputName : String) (fragments : List Fragment) (settings : Settings) : String :=
  let guardText := guardName inputName
  Text.unlines
      (["#ifndef " ++ guardText, "#define " ++ guardText, "",
        includeLine settings.runtimeInclude] ++
        banner settings.generatorName inputName) ++
    String.join (fragments.map (·.code.declaration)) ++ Text.unlines ["#endif"]

def sourceText (inputName headerName : String) (fragments : List Fragment) (settings : Settings) :
    String :=
  Text.unlines (includeLine headerName :: banner settings.generatorName inputName) ++
    String.join (fragments.map (·.code.definition))

/-- The generated files for the fragments of a schema file. -/
def assemble (inputName headerName : String) (fragments : List Fragment) (settings : Settings) :
    Artifacts where
  header := headerText inputName fragments settings
  source := sourceText inputName headerName fragments settings

end Artifacts
end CommandSchema
