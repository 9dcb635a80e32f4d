/-
Declarations read from JSON values.

An option and a member of a group may be written as an object or as a list (`RecordShape`); a
top-level declaration that is a list is always a group.  Every key that is not known is refused,
and null stands for absence in the fields `short`, `default` and `arg` only.
-/
import CommandSchema.Declaration.Basic
import CommandSchema.Declaration.Record
import CommandSchema.Fault

namespace CommandSchema

namespace HelpText

def ofJson (value : Json.Value) : Except ShapeFault HelpText :=
  match value with
  | .string s => .ok (.line s)
  | .array items =>
    match Field.strings? items with
    | some texts => .ok (.lines texts)
    | none => .error .noHelpText
  | _ => .error .noHelpText

end HelpText

/-! ## Options -/

namespace OptionDecl

/-- What is known of an option while its fields are read. -/
structure Parts where
  name : Option String := none
  short : Option (Option String) := none
  type : Option String := none
  optional : Option Bool := none
  multi : Option Bool := none
  default : Option (Option Json.Value) := none
  help : Option HelpText := none
  hide : Option Bool := none

def fields : List String :=
  ["name", "short", "type", "optional", "multi", "default", "help", "hide"]

def put (field : String) (value : Json.Value) (p : Parts) : Except ShapeFault Parts :=
  match field with
  | "name" => (Field.text value).map fun s => { p with name := some s }
  | "short" => (Field.optionalText value).map fun s => { p with short := some s }
  | "type" => (Field.text value).map fun s => { p with type := some s }
  | "optional" => (Field.truth value).map fun b => { p with optional := some b }
  | "multi" => (Field.truth value).map fun b => { p with multi := some b }
  | "default" => .ok { p with default := some (Field.optionalValue value) }
  | "help" => (HelpText.ofJson value).map fun h => { p with help := some h }
  | "hide" => (Field.truth value).map fun b => { p with hide := some b }
  | _ => .error (.unknownField field fields)

/-- The option whose fields have been read, or the place of the first field that is missed. -/
def finish (p : Parts) : Except Nat OptionDecl :=
  match p.name, p.type, p.help with
  | none, _, _ => .error 0
  | some _, none, _ => .error 2
  | some _, some _, none => .error 6
  | some name, some type, some help =>
    .ok {
      name := name
      short := p.short.getD none
      type := type
      optional := p.optional.getD false
      multi := p.multi.getD false
      default := p.default.getD none
      help := help
      hide := p.hide.getD false }

def shape : RecordShape Parts OptionDecl where
  title := "RawOption"
  fields := fields
  empty := {}
  put := put
  finish := finish

def ofJson (value : Json.Value) : Except ShapeFault OptionDecl := shape.read value

end OptionDecl

/-! ## Commands and members -/

namespace CommandDecl

/-- What is known of a command or a member while its fields are read. -/
structure Parts where
  description : Option String := none
  help : Option HelpText := none
  arg : Option (Option Json.Value) := none
  options : Option (List OptionDecl) := none
  hidden : Option Bool := none

def fields : List String := ["help", "arg", "option", "hidden"]

def put (field : String) (value : Json.Value) (p : Parts) : Except ShapeFault Parts :=
  match field with
  | "desc" => (Field.text value).map fun s => { p with description := some s }
  | "help" => (HelpText.ofJson value).map fun h => { p with help := some h }
  | "arg" => .ok { p with arg := some (Field.optionalValue value) }
  | "option" => (Field.listOf OptionDecl.ofJson value).map fun os => { p with options := some os }
  | "hidden" => (Field.truth value).map fun b => { p with hidden := some b }
  | _ => .error (.unknownField field fields)

/-- The command whose fields have been read, given its help. -/
def ofParts (p : Parts) (help : HelpText) : CommandDecl where
  help := help
  arg := p.arg.getD none
  options := p.options.getD []
  hidden := p.hidden.getD false

/-- The command whose fields have been read, or the place of its help if that is missed. -/
def finish (p : Parts) : Except Nat CommandDecl :=
  match p.help with
  | none => .error 0
  | some help => .ok (ofParts p help)

def shape : RecordShape Parts CommandDecl where
  title := "Command"
  fields := fields
  empty := {}
  put := put
  finish := finish

end CommandDecl

namespace MemberDecl

def fields : List String := ["desc", "help", "arg", "option", "hidden"]

/-- The member whose fields have been read, or the place of the first field that is missed. -/
def finish (p : CommandDecl.Parts) : Except Nat MemberDecl :=
  match p.description, p.help with
  | none, _ => .error 0
  | some _, none => .error 1
  | some description, some help => .ok ⟨description, CommandDecl.ofParts p help⟩

def shape : RecordShape CommandDecl.Parts MemberDecl where
  title := "RawSubcommand"
  fields := fields
  empty := {}
  put := CommandDecl.put
  finish := finish

def ofJson (value : Json.Value) : Except ShapeFault MemberDecl := shape.read value

end MemberDecl

/-! ## Groups and top-level declarations -/

namespace GroupEntry

/-- The entry of a group with one key: its help, or the member of that name. -/
def ofField (group key : String) (value : Json.Value) : Except Fault GroupEntry :=
  if key = Name.help then
    match HelpText.ofJson value with
    | .ok text => .ok (.help text)
    | .error _ => .error (.groupHelpShape group)
  else
    match MemberDecl.ofJson value with
    | .ok decl => .ok (.member key decl)
    | .error fault => .error (.memberShape group key fault)

def ofJson (group : String) (value : Json.Value) : Except Fault GroupEntry :=
  match value with
  | .object [(key, value)] => ofField group key value
  | .object fields => .error (.entryKeys group fields.length)
  | _ => .error (.entryKind group value.kindName)

def all (group : String) : List Json.Value → Except Fault (List GroupEntry)
  | [] => .ok []
  | item :: rest =>
    match ofJson group item with
    | .error fault => .error fault
    | .ok entry => (all group rest).map (entry :: ·)

end GroupEntry

namespace Declaration

def ofJson (name : String) (value : Json.Value) : Except Fault Declaration :=
  match value with
  | .object fields =>
    match CommandDecl.shape.readObject fields with
    | .ok command => .ok (.flat command)
    | .error fault => .error (.commandShape name fault)
  | .array items => (GroupEntry.all name items).map .group
  | _ => .error (.commandKind name value.kindName)

end Declaration
end CommandSchema
