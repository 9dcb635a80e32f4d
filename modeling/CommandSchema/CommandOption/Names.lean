/-
The names that the options of one command have taken.

A long name is refused when it is the one that asks for help, or when an earlier option has it;
the same holds for letters.  Only `claim` changes what is taken.
-/
import CommandSchema.CommandOption.Basic
import CommandSchema.Fault

namespace CommandSchema

structure TakenNames where
  long : List String := []
  short : List Char := []
  deriving DecidableEq, Repr

namespace TakenNames

/-- A long name that has to be free. -/
def checkLong (taken : TakenNames) (command name : String) : Except Fault Unit :=
  if name = Name.help then .error (.longReserved command)
  else if name ∈ taken.long then .error (.longTaken command name)
  else .ok ()

/-- A letter that has to be free for an option. -/
def checkShort (taken : TakenNames) (command option : String) (short : Char) :
    Except Fault Unit :=
  if short = Name.helpShort then .error (.shortReserved command option)
  else if short ∈ taken.short then .error (.shortTaken command option short)
  else .ok ()

/-- The letter of an option, if it has one, has to be free. -/
def checkShort? (taken : TakenNames) (command option : String) :
    Option Char → Except Fault Unit
  | none => .ok ()
  | some short => taken.checkShort command option short

/-- The names taken, with those of an option. -/
def claim (taken : TakenNames) (o : CommandOption) : TakenNames where
  long := o.name :: taken.long
  short := o.short.toList ++ taken.short

end TakenNames
end CommandSchema
