/-
The help screen of a command.

Without visible options it is the help of the command.  Otherwise a legend and a usage table
follow: a row for every visible option with its token and the first line of its help, and below it
in the same column the other lines of its help and the segments of its enumeration.

The column of tokens is as wide as the widest token of any option in bytes, and is filled by
characters (`Text.padRight`).
-/
import CommandSchema.Command.Basic

namespace CommandSchema
namespace Command

/-- How many bytes of an enumeration stand in one row. -/
def variantsWidth : Nat := 50

/-- What stands in front of the first segment of an enumeration. -/
def variantsLead : String := "Valid input is \""

/-- The last segment with the quote that closes an enumeration. -/
def closed : List String → List String
  | [] => []
  | [segment] => [segment ++ "\""]
  | segment :: rest => segment :: closed rest

/-- The segments of an enumeration below each other. -/
def variantLines (variants : List String) : List String :=
  match closed (Variants.wrap variantsWidth variants) with
  | [] => []
  | first :: rest =>
    (variantsLead ++ first) :: rest.map (Text.spaces variantsLead.length ++ ·)

/-- The lines of an option below its first one. -/
def furtherLines (o : CommandOption) : List String :=
  o.help.drop 1 ++ (if o.kind = .enum then variantLines o.variants else [])

/-- The rows of an option, for a column of tokens of some width. -/
def optionRows (width : Nat) (o : CommandOption) : List String :=
  ("    " ++ Text.padRight width o.describe ++ " : " ++ o.help.headD "") ::
    (furtherLines o).map ("    " ++ Text.spaces width ++ "   " ++ ·)

/-- The meaning of the signs around a token. -/
def legend : List String := [
  "",
  "  Explanation:",
  "    <> : option/argument is required",
  "    \x7b\x7d : option/argument is optional",
  "    s  : option can be specified more than once"]

def usageTable (width : Nat) (options : List CommandOption) : List String :=
  ["", "  Usage:"] ++ options.flatMap (optionRows width) ++
    ["", "  Note: Use --help=option to show more detail of the option"]

def helpLines (c : Command) : List String :=
  if c.hasTable then c.help ++ legend ++ usageTable c.width c.visible else c.help

end Command
end CommandSchema
