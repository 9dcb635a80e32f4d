/-
String literals and lists of them in generated code.

A literal is escaped so that it ends at its first quote without a backslash in front.  Only quotes,
backslashes, line feeds and tabs are escaped; every other character stands for itself.

A raw literal holds lines as they are.  It begins and ends with a delimiter of four quotes.
-/

namespace CommandSchema
namespace Code

def escapeChar (c : Char) : List Char :=
  if c = '"' then ['\\', '"']
  else if c = '\\' then ['\\', '\\']
  else if c = '\n' then ['\\', 'n']
  else if c = '\t' then ['\\', 't']
  else [c]

/-- The characters between the quotes of a literal. -/
def escape (s : List Char) : List Char := s.flatMap escapeChar

def literal (s : String) : String := "\"" ++ String.ofList (escape s.toList) ++ "\""

/-- The literals of several texts in braces. -/
def literalList (items : List String) : String :=
  "\x7b" ++ String.intercalate ", " (items.map literal) ++ "\x7d"

def truth (b : Bool) : String := if b then "true" else "false"

/-- A constant with a raw literal of several lines, and an empty line behind it. -/
def rawConstant (name : String) (lines : List String) : List String :=
  ("const char * " ++ name ++ " = R\"\"\"\"(") :: (lines ++ [")\"\"\"\";", ""])

end Code
end CommandSchema
