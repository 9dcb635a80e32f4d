/-
Options as fields and as rules of a generated class.

A field holds the value of an option and begins with its default.  A rule tells the runtime how the
option is written on a command line, and where its value goes.  Together they keep everything that
is known of an option.
-/
import CommandSchema.Code.Literal
import CommandSchema.CommandOption.Basic
import CommandSchema.Name

namespace CommandSchema
namespace Code

def valueType : OptionKind → String
  | .flag => "bool"
  | .int => "uint64_t"
  | .str | .enum => "std::string"

/-- The type of the field of an option.  A flag is never repeated. -/
def fieldType (o : CommandOption) : String :=
  if o.multiple ∧ o.kind ≠ .flag then "std::vector<" ++ valueType o.kind ++ ">"
  else valueType o.kind

/-- The value of a field that nothing is assigned to. -/
def defaultText : DefaultValue → String
  | .bool b => truth b
  | .int n => toString n
  | .str s => literal s
  | .unset => ""

/-- The initial value of the field of an option, in braces if it is a list. -/
def initializer (o : CommandOption) : String :=
  if o.multiple ∨ o.default = .unset then "\x7b" ++ defaultText o.default ++ "\x7d"
  else defaultText o.default

def field (o : CommandOption) : String :=
  fieldType o ++ " " ++ o.name ++ " = " ++ initializer o ++ ";"

/-- The letter of an option, as a character constant. -/
def letter : Option Char → String
  | none => "char(0)"
  | some c => "'" ++ String.singleton c ++ "'"

def rule (o : CommandOption) : String :=
  Name.baseClass ++ "_RULE(" ++ String.intercalate ", " [
    literal o.name, letter o.short, "\"" ++ o.kind.tag ++ "\"", truth o.optional,
    truth o.multiple, truth o.hidden, "&" ++ o.name, literalList o.help,
    literalList o.variants] ++ ")"

end Code
end CommandSchema
