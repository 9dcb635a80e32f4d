/-
Runs of the generator.

Every invocation loads the settings and the schemas, and compiles.  `check` says how many commands
there are, `print` shows one of the generated files, and `generate` writes both: first the header
and then the source file, each after the directory that it goes into.  Everything that can be
wrong with the inputs is found before anything is written.
-/
import CommandSchema.Artifacts
import CommandSchema.Invocation.CommandLine
import CommandSchema.Invocation.Usage
import CommandSchema.Loading

namespace CommandSchema

inductive RunFault where
  | noFileName (path : String)
  | config (path : String) (fault : LoadFault)
  | input (fault : LoadFault)
  | schema (fault : Fault)
  | directory (path : String) (error : FileError)
  | output (path : String) (error : FileError)

namespace RunFault

def message : RunFault → String
  | .noFileName path => s!"'{path}' has no file name"
  | .config path fault => s!"Failed to load config '{path}': {fault.message}"
  | .input fault => fault.message
  | .schema fault => fault.message
  | .directory path error => s!"Failed to create output directory '{path}': {error.message}"
  | .output path error => s!"Failed to write '{path}': {(LoadFault.io error).message}"

end RunFault

/-- How a program ends: its status, and what it writes to its two streams. -/
structure Outcome where
  status : Nat
  out : String := ""
  err : String := ""
  deriving DecidableEq, Repr

namespace Run

variable {m : Type → Type} [Monad m] [FileAccess m]

def loadSettings : Option String → m (Except RunFault Settings)
  | none => return .ok {}
  | some path => return (← Settings.load path).mapError (.config path)

/-- The schemas of a run and its settings. -/
def loadInputs (paths : InputPaths) : m (Except RunFault (SchemaInputs × Settings)) := do
  match ← loadSettings paths.config with
  | .error fault => return .error fault
  | .ok settings =>
    match ← SchemaInputs.load paths.input (settings.auxiliary ++ paths.auxiliary) with
    | .error fault => return .error (.input fault)
    | .ok inputs => return .ok (inputs, settings)

def compile (inputs : SchemaInputs) : Except RunFault (List Fragment) :=
  inputs.compile.mapError .schema

def artifacts (paths : InputPaths) (headerName : String) : m (Except RunFault Artifacts) := do
  match ← loadInputs paths with
  | .error fault => return .error fault
  | .ok (inputs, settings) =>
    return (compile inputs).map fun fragments =>
      Artifacts.assemble inputs.name headerName fragments settings

def ensureParent (path : String) : m (Except RunFault Unit) := do
  match Path.parent? path with
  | none => return .ok ()
  | some parent =>
    if parent = "" then return .ok ()
    else return (← FileAccess.makeDirectories parent).mapError (.directory parent)

/-- Writes a generated file, after its directory, and says whether it has been written. -/
def writeOutput (path text : String) : m (Except RunFault Bool) := do
  match ← ensureParent (m := m) path with
  | .error fault => return .error fault
  | .ok () => return (← FileAccess.writeIfChanged path text).mapError (.output path)

/-- The last name of a path, which has to have one. -/
def fileName (path : String) : Except RunFault String :=
  match Path.fileName? path with
  | some name => .ok name
  | none => .error (.noFileName path)

/-- A generation up to its header: the texts of both files, and whether the header has been
written. -/
def tellHeader (paths : InputPaths) (header : String) : m (Except RunFault (Artifacts × Bool)) := do
  match fileName header with
  | .error fault => return .error fault
  | .ok headerName =>
    match ← artifacts paths headerName with
    | .error fault => return .error fault
    | .ok texts => return (← writeOutput header texts.header).map fun written => (texts, written)

/-- What a generation says, and which of its files it has written. -/
structure Account where
  out : String
  header : Bool
  source : Bool
  deriving DecidableEq, Repr

def tellGenerate (paths : InputPaths) (header source : String) : m (Except RunFault Account) := do
  match ← tellHeader paths header with
  | .error fault => return .error fault
  | .ok (texts, headerWritten) =>
    return (← writeOutput source texts.source).map fun sourceWritten =>
      { out := s!"Generated '{header}' and '{source}' from '{paths.input}'.\n"
        header := headerWritten
        source := sourceWritten }

def generate (paths : InputPaths) (header source : String) : m (Except RunFault String) := do
  return (← tellGenerate paths header source).map Account.out

/-- Compiles, and says how many commands there are. -/
def check (paths : InputPaths) : m (Except RunFault String) := do
  match ← loadInputs paths with
  | .error fault => return .error fault
  | .ok (inputs, _) =>
    return (compile inputs).map fun fragments =>
      s!"Validated {fragments.length} command(s) in '{paths.input}'.\n"

/-- The header that a source file includes if no other is named. -/
def defaultHeaderName (input : String) : Except RunFault String :=
  (fileName input).map fun name => Artifacts.stem name ++ "_auto.h"

def print (paths : InputPaths) (part : Part) (headerName : Option String) :
    m (Except RunFault String) := do
  match headerName.map .ok |>.getD (defaultHeaderName paths.input) with
  | .error fault => return .error fault
  | .ok name =>
    return (← artifacts paths name).map fun texts =>
      match part with
      | .header => texts.header
      | .source => texts.source

def invoke : Invocation → m (Except RunFault String)
  | .generate paths header source => generate paths header source
  | .check paths => check paths
  | .print paths part headerName => print paths part headerName

def respond : Request → m Outcome
  | .version => return { status := 0, out := Usage.version }
  | .help command => return { status := 0, out := Usage.help command }
  | .invalid => return { status := 2, err := Usage.invalid }
  | .run invocation => do
    match ← invoke invocation with
    | .ok out => return { status := 0, out := out }
    | .error fault => return { status := 1, err := "error: " ++ fault.message ++ "\n" }

/-- The program for the words of a command line. -/
def program (arguments : List String) : m Outcome := respond (CommandLine.read arguments)

end Run
end CommandSchema
