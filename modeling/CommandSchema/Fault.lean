/-
The faults of a schema.

A constructor stands for one cause and holds what its message mentions.  The causes fall into five
kinds, and a message begins with the words of its kind.
-/
import CommandSchema.Declaration.Record
import CommandSchema.Name

namespace CommandSchema

inductive FaultKind where
  | naming
  | shape
  | type
  | duplicate
  | value
  deriving DecidableEq, Repr

namespace FaultKind

def words : FaultKind → String
  | .naming => "naming error"
  | .shape => "schema shape error"
  | .type => "type mismatch"
  | .duplicate => "duplicate"
  | .value => "invalid value"

end FaultKind

/-- What the default of an option has to be. -/
inductive DefaultShape where
  | boolean
  | natural
  | text
  | oneOf (variants : List String)
  deriving DecidableEq, Repr

namespace DefaultShape

def words : DefaultShape → String
  | .boolean => "a boolean"
  | .natural => "a non-negative integer"
  | .text => "a string"
  | .oneOf variants => "one of " ++ String.intercalate "|" variants

end DefaultShape

inductive Fault where
  -- naming
  | name (case : LetterCase) (name : String) (fault : NameFault)
  | optionRuntimeMark (command option : String)
  | optionMethod (command option : String)
  | shortLetter (command option short : String)
  | memberReserved (group member : String)
  -- shape
  | commandKind (command found : String)
  | commandShape (command : String) (fault : ShapeFault)
  | entryKind (group found : String)
  | entryKeys (group : String) (count : Nat)
  | groupHelpShape (group : String)
  | memberShape (group member : String) (fault : ShapeFault)
  | unknownType (command option type : String)
  | notRepeatable (command option tag : String)
  | groupHelpRepeated (group : String)
  | groupHelpMissing (group : String)
  | groupTooSmall (group : String) (count : Nat)
  -- type
  | defaultType (command option : String) (value : Json.Value) (expected : DefaultShape)
  -- duplicate
  | longReserved (command : String)
  | longTaken (command option : String)
  | shortReserved (command option : String)
  | shortTaken (command option : String) (short : Char)
  | variantRepeated (command option variant : String)
  | memberRepeated (group member : String)
  | auxiliaryRepeated (name : String)
  | commandTaken (name : String)
  | memberTaken (group member qualified : String)
  -- value
  | arity (command : String) (value : Json.Value)
  | variantEmpty (command option type : String)
  | optionHelpEmpty (command option : String)
  | commandHelpEmpty (command : String)
  | groupHelpEmpty (group : String)
  | descriptionEmpty (group member : String)

namespace Fault

def kind : Fault → FaultKind
  | .name .. | .optionRuntimeMark .. | .optionMethod .. | .shortLetter .. | .memberReserved .. =>
    .naming
  | .commandKind .. | .commandShape .. | .entryKind .. | .entryKeys .. | .groupHelpShape ..
  | .memberShape .. | .unknownType .. | .notRepeatable .. | .groupHelpRepeated ..
  | .groupHelpMissing .. | .groupTooSmall .. => .shape
  | .defaultType .. => .type
  | .longReserved .. | .longTaken .. | .shortReserved .. | .shortTaken .. | .variantRepeated ..
  | .memberRepeated .. | .auxiliaryRepeated .. | .commandTaken .. | .memberTaken .. => .duplicate
  | .arity .. | .variantEmpty .. | .optionHelpEmpty .. | .commandHelpEmpty .. | .groupHelpEmpty ..
  | .descriptionEmpty .. => .value

/-- What a fault says, without its kind. -/
def detail : Fault → String
  | .name _ text .tooShort => s!"name must be at least two characters, but found '{text}'"
  | .name case text (.badCharacter c) =>
    s!"expect '{c}' in '{text}' to be alphanumeric in {case.word} case or '_', and the first character must be a letter"
  | .optionRuntimeMark command option =>
    s!"option name '{option}' in command '{command}' cannot start with '{Name.runtimeMark}'"
  | .optionMethod command option =>
    s!"option name '{option}' in command '{command}' collides with the generated {option}() method"
  | .shortLetter command option short =>
    s!"short name '{short}' of option '{option}' in command '{command}' must be a single lowercase letter"
  | .memberReserved group member => s!"sub-command name '{member}' of group '{group}' is reserved"
  | .commandKind command found =>
    s!"command '{command}' must be an object or a list of sub-commands, but found {found}"
  | .commandShape command fault => s!"command '{command}': {fault.message}"
  | .entryKind group found =>
    s!"sub-command entry of '{group}' must be an object, but found {found}"
  | .entryKeys group count =>
    s!"sub-command entry of '{group}' must have exactly one key, but found {count}"
  | .groupHelpShape group => s!"help of '{group}' must be a string or a list of strings"
  | .memberShape group member fault => s!"sub-command '{member}' of '{group}': {fault.message}"
  | .unknownType command option type =>
    s!"option '{option}' in command '{command}' has unknown type '{type}' (expected flag, int, str, or a|b enum)"
  | .notRepeatable command option tag =>
    s!"option '{option}' in command '{command}' of type {tag} cannot be multi"
  | .groupHelpRepeated group => s!"group '{group}' declares more than one help entry"
  | .groupHelpMissing group => s!"group '{group}' must declare exactly one help entry"
  | .groupTooSmall group count =>
    s!"group '{group}' needs at least 2 sub-commands, but found {count}"
  | .defaultType command option value expected =>
    s!"default {value.text} of option '{option}' in command '{command}' must be {expected.words}"
  | .longReserved command => s!"option name '{Name.help}' is reserved in command '{command}'"
  | .longTaken command option => s!"option '{option}' is declared twice in command '{command}'"
  | .shortReserved command option =>
    s!"short name '{Name.helpShort}' of option '{option}' is reserved in command '{command}'"
  | .shortTaken command option short =>
    s!"short name '{short}' of option '{option}' is already used in command '{command}'"
  | .variantRepeated command option variant =>
    s!"enum member '{variant}' of option '{option}' in command '{command}' is listed twice"
  | .memberRepeated group member =>
    s!"sub-command '{member}' is declared twice in group '{group}'"
  | .auxiliaryRepeated command =>
    s!"command '{command}' is defined more than once in the auxiliary schemas"
  | .commandTaken command => s!"command '{command}' is already defined"
  | .memberTaken group member qualified =>
    s!"sub-command '{member}' of group '{group}' generates '{qualified}', which is already defined"
  | .arity command value =>
    s!"arg of command '{command}' must be [min, max] with 0 <= min <= max or max = -1, but found {value.text}"
  | .variantEmpty command option type =>
    s!"enum '{type}' of option '{option}' in command '{command}' has an empty member"
  | .optionHelpEmpty command option =>
    s!"help of option '{option}' in command '{command}' must not be empty"
  | .commandHelpEmpty command => s!"help of command '{command}' must not be empty"
  | .groupHelpEmpty group => s!"help of group '{group}' must not be empty"
  | .descriptionEmpty group member =>
    s!"desc of sub-command '{member}' in group '{group}' must not be empty"

def message (fault : Fault) : String := fault.kind.words ++ ": " ++ fault.detail

/-- A check: a fault unless the condition holds. -/
def require (condition : Bool) (fault : Fault) : Except Fault Unit :=
  if condition then .ok () else .error fault

end Fault

namespace Name

/-- A text that has to be a name. -/
def check (case : LetterCase) (name : String) : Except Fault Unit :=
  match fault? case name with
  | none => .ok ()
  | some fault => .error (.name case name fault)

end Name
end CommandSchema
