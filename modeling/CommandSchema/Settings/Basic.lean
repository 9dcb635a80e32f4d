/-
Settings of a run of the generator.

A system has paths that are no texts, and settings may hold such paths (`SystemPath`).  Those of a
document are texts, and so are those of everything that is loaded.
-/

namespace CommandSchema

/-- A path as a system has it, whose bytes need not be those of a text. -/
structure SystemPath where
  bytes : ByteArray

namespace SystemPath

def ofText (text : String) : SystemPath := ⟨text.toUTF8⟩

def text? (path : SystemPath) : Option String := String.fromUTF8? path.bytes

end SystemPath

structure Settings (AuxiliaryPath : Type := String) where
  /-- The header of the runtime, which the generated header includes. -/
  runtimeInclude : String := "Configuration/CFGCommon/CFGArg.h"
  /-- The name of the generator in the banner of generated files. -/
  generatorName : String := "argspec-gen"
  /-- The paths of schemas whose names are taken. -/
  auxiliary : List AuxiliaryPath := []
  deriving DecidableEq, Repr

namespace Settings

/-- Settings as a system holds them. -/
def held (s : Settings) : Settings SystemPath :=
  ⟨s.runtimeInclude, s.generatorName, s.auxiliary.map .ofText⟩

instance : Coe Settings (Settings SystemPath) := ⟨held⟩

/-- The settings with the texts of their paths, if all of these are texts. -/
def texts? (s : Settings SystemPath) : Option Settings :=
  (s.auxiliary.mapM SystemPath.text?).map fun texts => ⟨s.runtimeInclude, s.generatorName, texts⟩

end Settings
end CommandSchema
