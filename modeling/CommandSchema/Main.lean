/-
The generator as a program: the file system of the machine, the words of its command line, and its
two output streams.
-/
import CommandSchema.Run

namespace CommandSchema
namespace Machine

/-- The number of an error, which some requests report with a negative sign. -/
def errorNumber (code : UInt32) : UInt32 := if 0x80000000 ≤ code then 0 - code else code

/-- The error of a request that the machine has refused. -/
def fileError : IO.Error → FileError
  | .noFileOrDirectory .. => .notFound
  | .alreadyExists .. => .alreadyExists
  | .inappropriateType _ code details =>
    let number := errorNumber code
    if number = 20 then .notDirectory
    else if number = 21 then .isDirectory
    else .other s!"{details} (os error {number})"
  | error => .other (toString error)

/-- A request, with what the machine throws as its error. -/
def request {α : Type} (action : IO α) : IO (Except FileError α) := do
  try
    return .ok (← action)
  catch error => return .error (fileError error)

/-- Whether something is at a path, and of a kind. -/
def isOfKind (path : String) (kind : IO.FS.FileType) : IO Bool := do
  match ← request do return (← (← IO.FS.realPath path).metadata).type with
  | .ok found => return found == kind
  | .error _ => return false

instance : FileAccess IO where
  read path := request (IO.FS.readBinFile path)
  write path bytes := request (IO.FS.writeBinFile path bytes)
  makeDirectory path := request (IO.FS.createDir path)
  isFile path := isOfKind path .file
  isDirectory path := isOfKind path .dir

end Machine
end CommandSchema

def main (arguments : List String) : IO UInt32 := do
  let outcome ← CommandSchema.Run.program arguments
  (← IO.getStdout).putStr outcome.out
  (← IO.getStderr).putStr outcome.err
  return outcome.status.toUInt32
