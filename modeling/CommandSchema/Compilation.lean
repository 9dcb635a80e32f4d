/-
The compilation of a schema.

Every command at the top becomes a fragment of code under its name, in the order of the schema.
The first fault ends the compilation.  A name is claimed before its declaration is looked at, so a
name that is taken is reported whatever its declaration says.  Of auxiliary schemas only the names
count.
-/
import CommandSchema.Code.Class
import CommandSchema.Declaration.Decode
import CommandSchema.NameRegistry
import CommandSchema.Schema

namespace CommandSchema

/-- The code of a command at the top. -/
structure Fragment where
  name : String
  code : Code
  deriving DecidableEq, Repr

namespace TopCommand

def ofJson (name : String) (value : Json.Value) : Except Fault TopCommand := do
  let decl ← Declaration.ofJson name value
  assemble name decl

end TopCommand

namespace Schema

/-- One entry of a schema: its command, and the registry with the names that it takes. -/
def compileEntry (r : NameRegistry) (name : String) (value : Json.Value) :
    Except Fault (NameRegistry × TopCommand) := do
  let r ← r.claim name
  let top ← TopCommand.ofJson name value
  let r ← r.claimMembers name (top.members.map Member.name)
  return (r, top)

/-- The commands of several entries, given the names that are taken before. -/
def compileEntries (r : NameRegistry) :
    List (String × Json.Value) → Except Fault (List Fragment)
  | [] => .ok []
  | (name, value) :: rest => do
    let (r, top) ← compileEntry r name value
    let fragments ← compileEntries r rest
    return ⟨name, Code.ofTop top⟩ :: fragments

/-- The fragments of a schema, next to auxiliary schemas that are compiled elsewhere. -/
def compile (primary : Schema) (auxiliary : List Schema) : Except Fault (List Fragment) :=
  match ({} : NameRegistry).seed (auxiliary.flatMap names) with
  | (_, .error fault) => .error fault
  | (r, .ok ()) => compileEntries r primary.entries

end Schema
end CommandSchema
