/-
Paths as texts.

A path is a head and names.  The head is a bar for a path from the root, a point for a path that
begins at the current directory by saying so, and empty otherwise.  Between the names, empty ones
and points mean nothing and are skipped.

All the functions here look at the text alone: whether a name is there, and of what kind, only a
file system can say.
-/
import CommandSchema.Text.Line

namespace CommandSchema
namespace Path

def isAbsolute (path : String) : Bool := path.toList.head? = some '/'

/-- What stands in front of the names of a path. -/
def head (path : String) : String :=
  match path.toList with
  | '/' :: _ => "/"
  | ['.'] => "."
  | '.' :: '/' :: _ => "."
  | _ => ""

/-- The parts of a path behind its head, between the bars. -/
def parts (path : String) : List String :=
  Text.split '/' (String.ofList (path.toList.drop (head path).length))

/-- A part that names nothing. -/
def isSkipped (part : String) : Bool := part = "" || part = "."

/-- The parts of a path from its last name backwards. -/
def backwards (path : String) : List String := (parts path).reverse.dropWhile isSkipped

/-- The path with a head and the given parts, which stand in reverse, up to the last name. -/
def ofBackwards (head : String) (parts : List String) : String :=
  head ++ String.intercalate "/" (parts.dropWhile isSkipped).reverse

/-- The last name of a path, unless the path leads upwards. -/
def fileName? (path : String) : Option String :=
  match backwards path with
  | [] => none
  | name :: _ => if name = ".." then none else some name

/-- The path without its last name.  A root has none; the path without any name has none either. -/
def parent? (path : String) : Option String :=
  match backwards path with
  | _ :: rest => some (ofBackwards (head path) rest)
  | [] => if head path = "." then some "" else none

/-- The paths that are left when one name after the other is taken away, given the parts in
reverse; the empty path is none of them. -/
def ancestorsFrom (head : String) : List String → List String
  | [] => if head = "" then [] else [head]
  | part :: rest =>
    if isSkipped part then ancestorsFrom head rest
    else ofBackwards head (part :: rest) :: ancestorsFrom head rest

/-- A path and all the paths above it, the longest first. -/
def ancestors (path : String) : List String := ancestorsFrom (head path) (backwards path)

/-- The part of the last name behind its last point; a point at its beginning does not count. -/
def extension? (path : String) : Option String :=
  (fileName? path).bind fun name =>
    let reversed := name.toList.reverse
    match reversed.dropWhile (· ≠ '.') with
    | _ :: _ :: _ => some (String.ofList (reversed.takeWhile (· ≠ '.')).reverse)
    | _ => none

/-- A path seen from a directory.  An absolute path stays as it is. -/
def join (base path : String) : String :=
  if isAbsolute path then path
  else if base = "" ∨ base.toList.getLast? = some '/' then base ++ path
  else base ++ "/" ++ path

end Path
end CommandSchema
