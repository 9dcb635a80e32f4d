/-
Names of commands, sub-commands and options.

A name has at least two characters: a letter of its case, and after it letters of that case, digits
and underscores.  Only ASCII letters and digits count.  `Name.fault?` finds what is wrong with a
text that is no name, and names the first character that may not stand where it stands.

The generated classes use some names themselves.  An option becomes a field of its class, next to
the methods `parse` and `print` and the fields of the runtime, which begin with `m_`; the name
`help` and the letter `h` belong to the runtime on every command line.
-/
import CommandSchema.Text.UpperCase

namespace CommandSchema

inductive LetterCase where
  | lower
  | upper
  deriving DecidableEq, Repr

namespace LetterCase

def isLetter : LetterCase → Char → Bool
  | .lower, c => 'a' ≤ c && c ≤ 'z'
  | .upper, c => 'A' ≤ c && c ≤ 'Z'

def word : LetterCase → String
  | .lower => "lower"
  | .upper => "upper"

end LetterCase

/-- What is wrong with a text that is no name. -/
inductive NameFault where
  | tooShort
  | badCharacter (c : Char)
  deriving DecidableEq, Repr

namespace Name

/-- The characters of a name after its first. -/
def isRest (case : LetterCase) (c : Char) : Bool :=
  case.isLetter c || ('0' ≤ c && c ≤ '9') || c = '_'

/-- The first character that may not stand where it stands. -/
def badCharacter? (case : LetterCase) : List Char → Option Char
  | [] => none
  | c :: cs => if case.isLetter c then cs.find? (fun d => !isRest case d) else some c

/-- What is wrong with a text as a name, if anything. -/
def fault? (case : LetterCase) (name : String) : Option NameFault :=
  if name.length < 2 then some .tooShort
  else (badCharacter? case name.toList).map .badCharacter

/-- The name that asks for help on every command line. -/
def help : String := "help"

/-- The letter that asks for help on every command line. -/
def helpShort : Char := 'h'

/-- The methods of every generated class. -/
def methods : List String := ["parse", "print"]

/-- The mark at the beginning of every field of the runtime. -/
def runtimeMark : String := "m_"

/-- A name that begins like the fields of the runtime. -/
def hasRuntimeMark (name : String) : Bool := runtimeMark.toList.isPrefixOf name.toList

def baseClass : String := "CFGArg"

def className (command : String) : String := baseClass ++ "_" ++ Text.upper command

/-- The name of a member of a group among all commands. -/
def qualified (group member : String) : String := group ++ "_" ++ member

end Name
end CommandSchema
