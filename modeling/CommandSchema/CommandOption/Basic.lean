/-
Options of a command, with every default filled in.

The variants of an option are the members of its enumeration; only an enumeration has any.  Both
are fields of every option, since an option that is built by hand may say anything.

`describe` is the token that stands for an option in a usage table.  Its signs tell an optional
option from a required one and a repeatable one from a single one.
-/

namespace CommandSchema

inductive OptionKind where
  | flag
  | int
  | str
  | enum
  deriving DecidableEq, Repr

namespace OptionKind

/-- The word for a kind, in messages and in the rules of generated classes. -/
def tag : OptionKind → String
  | .flag => "flag"
  | .int => "int"
  | .str => "str"
  | .enum => "enum"

/-- The kinds whose options may be given more than once. -/
def isRepeatable : OptionKind → Bool
  | .flag | .enum => false
  | .int | .str => true

end OptionKind

/-- The value of an option that is not given.  A repeatable option has at most one. -/
inductive DefaultValue where
  | bool (b : Bool)
  | int (n : Nat)
  | str (s : String)
  | unset
  deriving DecidableEq, Repr

structure CommandOption where
  name : String
  short : Option Char := none
  kind : OptionKind
  variants : List String := []
  optional : Bool := false
  multiple : Bool := false
  default : DefaultValue
  help : List String
  hidden : Bool := false
  deriving DecidableEq, Repr

namespace CommandOption

/-- The name of an option, and its letter after a colon. -/
def label (o : CommandOption) : String :=
  match o.short with
  | none => o.name
  | some c => o.name ++ ":" ++ String.singleton c

/-- The token of an option in a usage table. -/
def describe (o : CommandOption) : String :=
  (if o.optional then "\x7b " ++ o.label ++ " \x7d" else "< " ++ o.label ++ " >") ++
    (if o.multiple then "s" else "")

end CommandOption
end CommandSchema
