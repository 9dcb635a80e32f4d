/-
Groups: commands that pass their arguments on to one of their members.

A member is a command of its own under the name of the group and its own name.  A group has exactly
one help entry, anywhere among its members, and at least two members with different names.  Members
keep their order.

The help screen of a group lists its members.  There are two: one without the hidden members and
one with them; the column of names is as wide as the longest name of any member in both.
-/
import CommandSchema.Command.Basic

namespace CommandSchema

/-- A member of a group, with the one line that describes it. -/
structure Member where
  name : String
  description : String
  command : Command
  deriving DecidableEq, Repr

structure Group where
  name : String
  mainHelp : List String
  members : List Member
  deriving DecidableEq, Repr

namespace Member

def isHidden (m : Member) : Bool := m.command.hidden

/-- The names that a member cannot have, since they stand for something else beside members. -/
def isReserved (name : String) : Bool :=
  name = Name.help || Name.hasRuntimeMark name || name ∈ Name.methods

def ofDecl (group name : String) (decl : MemberDecl) : Except Fault Member := do
  Fault.require (!Text.isBlank decl.description) (.descriptionEmpty group name)
  let command ← Command.ofDecl (Name.qualified group name) decl.command
  return ⟨name, decl.description, command⟩

end Member

namespace Group

/-- What is known of a group while its entries are read. -/
structure Draft where
  help : Option (List String) := none
  members : List Member := []
  deriving DecidableEq, Repr

namespace Draft

/-- The help entry of a group, which has to be its first and not blank. -/
def addHelp (group : String) (draft : Draft) (help : HelpText) : Except Fault Draft := do
  Fault.require draft.help.isNone (.groupHelpRepeated group)
  Fault.require (help.toLines.any (!Text.isBlank ·)) (.groupHelpEmpty group)
  return { draft with help := some help.toLines }

/-- A member of a group, whose name has to be free. -/
def addMember (group : String) (draft : Draft) (name : String) (decl : MemberDecl) :
    Except Fault Draft := do
  Name.check .lower name
  Fault.require (!Member.isReserved name) (.memberReserved group name)
  Fault.require (name ∉ draft.members.map Member.name) (.memberRepeated group name)
  let m ← Member.ofDecl group name decl
  return { draft with members := draft.members ++ [m] }

def add (group : String) (draft : Draft) : GroupEntry → Except Fault Draft
  | .help text => draft.addHelp group text
  | .member name decl => draft.addMember group name decl

/-- The entries of a group one after the other, up to the first at fault. -/
def addAll (group : String) (draft : Draft) : List GroupEntry → Except Fault Draft
  | [] => .ok draft
  | entry :: rest => do
    let draft ← draft.add group entry
    draft.addAll group rest

/-- The group whose entries have been read. -/
def finish (group : String) (draft : Draft) : Except Fault Group :=
  match draft.help with
  | none => .error (.groupHelpMissing group)
  | some help => do
    Fault.require (2 ≤ draft.members.length) (.groupTooSmall group draft.members.length)
    return ⟨group, help, draft.members⟩

end Draft

def ofEntries (name : String) (entries : List GroupEntry) : Except Fault Group := do
  Name.check .lower name
  let draft ← Draft.addAll name {} entries
  draft.finish name

/-! ## Help screens -/

def longestName : List Member → Nat
  | [] => 0
  | m :: rest => max m.name.utf8ByteSize (longestName rest)

def width (g : Group) : Nat := longestName g.members

def memberRow (width : Nat) (m : Member) : String :=
  "    " ++ Text.padRight width m.name ++ " : " ++ m.description

def listed (g : Group) (withHidden : Bool) : List Member :=
  g.members.filter fun m => withHidden || !m.isHidden

def helpLines (g : Group) (withHidden : Bool) : List String :=
  g.mainHelp ++ ["", "  Supported sub commands:"] ++
    (g.listed withHidden).map (memberRow g.width) ++
    ["", "  Note: Use \"" ++ g.name ++
      " <sub command> --help\" to show more detail of the sub command"]

end Group
end CommandSchema
