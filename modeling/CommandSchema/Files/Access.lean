/-
What a program asks of a file system.

`FileAccess` lists the requests.  Everything that the generator does with files is written with
them, for any monad that answers them: a real file system, or one that is a value.
-/
import CommandSchema.Files.Path

namespace CommandSchema

/-- Why a request of a file system fails. -/
inductive FileError where
  | notFound
  | alreadyExists
  | notDirectory
  | isDirectory
  | other (text : String)
  deriving DecidableEq, Repr

namespace FileError

def message : FileError → String
  | .notFound => "No such file or directory (os error 2)"
  | .alreadyExists => "File exists (os error 17)"
  | .notDirectory => "Not a directory (os error 20)"
  | .isDirectory => "Is a directory (os error 21)"
  | .other text => text

/-- The error of a request that is not permitted. -/
def denied : FileError := .other "Permission denied (os error 13)"

end FileError

/-- The requests of a file system. -/
class FileAccess (m : Type → Type) where
  /-- The contents of a file. -/
  read : String → m (Except FileError ByteArray)
  /-- Gives a file new contents, and makes it if it is not there. -/
  write : String → ByteArray → m (Except FileError Unit)
  /-- Makes a directory in one that is there. -/
  makeDirectory : String → m (Except FileError Unit)
  /-- Whether a path leads to a file. -/
  isFile : String → m Bool
  /-- Whether a path leads to a directory. -/
  isDirectory : String → m Bool

namespace FileAccess

variable {m : Type → Type} [Monad m] [FileAccess m]

/-- Makes a directory unless it is there. -/
def ensureDirectory (path : String) : m (Except FileError Unit) := do
  match ← makeDirectory path with
  | .ok () => return .ok ()
  | .error e =>
    if ← isDirectory path then return .ok () else return .error e

/-- Makes the first of several paths, each inside the next one, after those that it needs. -/
def ensureAll : List String → m (Except FileError Unit)
  | [] => return .ok ()
  | path :: above => do
    match ← makeDirectory path with
    | .ok () => return .ok ()
    | .error .notFound =>
      match ← ensureAll above with
      | .ok () => ensureDirectory path
      | .error e => return .error e
    | .error e =>
      if ← isDirectory path then return .ok () else return .error e

/-- Makes a directory and every directory above it that is not there. -/
def makeDirectories (path : String) : m (Except FileError Unit) := ensureAll (Path.ancestors path)

/-- Gives a file a text as its contents, unless it has that text already.  The answer is whether it
was written. -/
def writeIfChanged (path text : String) : m (Except FileError Bool) := do
  match ← read path with
  | .ok bytes =>
    if bytes.data = text.toUTF8.data then return .ok false
    else return (← write path text.toUTF8).map fun () => true
  | .error _ => return (← write path text.toUTF8).map fun () => true

end FileAccess
end CommandSchema
