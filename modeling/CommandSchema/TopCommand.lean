/-
The commands at the top of a schema: single commands and groups.
-/
import CommandSchema.Group

namespace CommandSchema

inductive TopCommand where
  | single (c : Command)
  | group (g : Group)
  deriving DecidableEq, Repr

namespace TopCommand

def name : TopCommand → String
  | .single c => c.name
  | .group g => g.name

def assemble (name : String) : Declaration → Except Fault TopCommand
  | .flat decl => (Command.ofDecl name decl).map .single
  | .group entries => (Group.ofEntries name entries).map .group

/-- The members of a group; a single command has none. -/
def members : TopCommand → List Member
  | .single _ => []
  | .group g => g.members

end TopCommand
end CommandSchema
