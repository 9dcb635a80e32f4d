/-
Options from their declarations.

The checks come in a fixed order, and the first that fails is reported: the name, the letter, the
type, the repetition, the default, the help.  The names that are taken decide only whether an
option is accepted, never what it becomes.
-/
import CommandSchema.CommandOption.Names
import CommandSchema.CommandOption.Variants
import CommandSchema.Declaration.Basic

namespace CommandSchema
namespace CommandOption

def shortOf (command option text : String) : Except Fault Char :=
  match text.toList with
  | [c] =>
    if LetterCase.lower.isLetter c then .ok c else .error (.shortLetter command option text)
  | _ => .error (.shortLetter command option text)

/-- The letter of an option, which has to be free. -/
def resolveShort (taken : TakenNames) (command option : String) :
    Option String → Except Fault (Option Char)
  | none => .ok none
  | some text => do
    let c ← shortOf command option text
    taken.checkShort command option c
    return some c

def resolveEnum (command option type : String) : Except Fault (List String) :=
  let variants := Variants.ofType type
  if "" ∈ variants then .error (.variantEmpty command option type)
  else
    match Variants.repeated? variants with
    | some variant => .error (.variantRepeated command option variant)
    | none => .ok variants

/-- The kind that a type stands for, and its variants. -/
def resolveType (command option type : String) : Except Fault (OptionKind × List String) :=
  if Variants.bar ∈ type.toList then
    (resolveEnum command option type).map fun variants => (.enum, variants)
  else
    match type with
    | "flag" => .ok (.flag, [])
    | "int" => .ok (.int, [])
    | "str" | "string" => .ok (.str, [])
    | _ => .error (.unknownType command option type)

/-- The default of an option that declares none. -/
def impliedDefault (kind : OptionKind) (multiple : Bool) (variants : List String) : DefaultValue :=
  match kind with
  | .flag => .bool false
  | .int => if multiple then .unset else .int 0
  | .str => if multiple then .unset else .str ""
  | .enum => .str (variants.headD "")

/-- What the default of an option has to be. -/
def defaultShape (kind : OptionKind) (variants : List String) : DefaultShape :=
  match kind with
  | .flag => .boolean
  | .int => .natural
  | .str => .text
  | .enum => .oneOf variants

/-- The default that a value stands for, if its kind has such a default. -/
def declaredDefault? (kind : OptionKind) (variants : List String) (value : Json.Value) :
    Option DefaultValue :=
  match kind with
  | .flag => value.asBool?.map .bool
  | .int => value.asNat?.map .int
  | .str => value.asString?.map .str
  | .enum => (value.asString?.filter (· ∈ variants)).map .str

def resolveDefault (command option : String) (kind : OptionKind) (multiple : Bool)
    (variants : List String) : Option Json.Value → Except Fault DefaultValue
  | none => .ok (impliedDefault kind multiple variants)
  | some value =>
    match declaredDefault? kind variants value with
    | some default => .ok default
    | none => .error (.defaultType command option value (defaultShape kind variants))

/-- The help of an option has a line, and no line of it is empty. -/
def isHelp (lines : List String) : Bool := !lines.isEmpty && "" ∉ lines

/-- The option that a declaration stands for in a command with some names taken. -/
def resolve (taken : TakenNames) (command : String) (decl : OptionDecl) :
    Except Fault CommandOption := do
  Name.check .lower decl.name
  Fault.require (!Name.hasRuntimeMark decl.name) (.optionRuntimeMark command decl.name)
  Fault.require (decl.name ∉ Name.methods) (.optionMethod command decl.name)
  taken.checkLong command decl.name
  let short ← resolveShort taken command decl.name decl.short
  let (kind, variants) ← resolveType command decl.name decl.type
  Fault.require (!decl.multi || kind.isRepeatable) (.notRepeatable command decl.name kind.tag)
  let default ← resolveDefault command decl.name kind decl.multi variants decl.default
  Fault.require (isHelp decl.help.toLines) (.optionHelpEmpty command decl.name)
  return {
    name := decl.name
    short := short
    kind := kind
    variants := variants
    optional := decl.optional
    multiple := decl.multi
    default := default
    help := decl.help.toLines
    hidden := decl.hide }

end CommandOption
end CommandSchema
