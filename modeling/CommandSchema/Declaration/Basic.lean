/-
Declarations as they stand in a schema, before anything but their shape is checked.

A declaration is a flat command or a group.  A group is a list of entries, each its help text or
one member, which is a flat command with a description.  A help text keeps whether it was written
as one line or as a list of lines.
-/
import CommandSchema.Json.Value

namespace CommandSchema

/-- A help text, as one line or as a list of lines. -/
inductive HelpText where
  | line (text : String)
  | lines (texts : List String)
  deriving DecidableEq, Repr

namespace HelpText

def toLines : HelpText → List String
  | .line text => [text]
  | .lines texts => texts

end HelpText

/-- An option as declared.  The default is any value that is not null. -/
structure OptionDecl where
  name : String
  short : Option String := none
  type : String
  optional : Bool := false
  multi : Bool := false
  default : Option Json.Value := none
  help : HelpText
  hide : Bool := false

/-- A command as declared.  The arity is any value that is not null. -/
structure CommandDecl where
  help : HelpText
  arg : Option Json.Value := none
  options : List OptionDecl := []
  hidden : Bool := false

/-- A member of a group as declared, without its name. -/
structure MemberDecl where
  description : String
  command : CommandDecl

inductive GroupEntry where
  | help (text : HelpText)
  | member (name : String) (decl : MemberDecl)

inductive Declaration where
  | flat (command : CommandDecl)
  | group (entries : List GroupEntry)

end CommandSchema
