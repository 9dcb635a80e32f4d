/-
The classes that are generated for commands and groups.

A class has a declaration, for the header, and a definition, for the source file.  The class of a
command has a field for each of its options, in their order; its definition is its help screen and
a constructor with the rules of its options, in the arranged order.  A group comes after the
classes of its members, and has a field for each of them.

All code is written by lines; a line of a help screen stands in the definition as it is.
-/
import CommandSchema.Code.Field
import CommandSchema.Command.Help
import CommandSchema.TopCommand

namespace CommandSchema

/-- A part of the generated code. -/
structure Code where
  declaration : String
  definition : String
  deriving DecidableEq, Repr

namespace Code

def classHead (name : String) : List String := [
  "class " ++ name ++ " : public " ++ Name.baseClass,
  "\x7b",
  "public:",
  "    " ++ name ++ "();",
  "    bool parse(int argc, const char **argv, std::vector<std::string>* errors = nullptr) \x7b",
  "            return " ++ Name.baseClass ++ "::parse(argc, argv, errors); \x7d",
  "    void print() \x7b " ++ Name.baseClass ++ "::print(); \x7d"]

def classEnd : List String := ["\x7d;", ""]

/-- The constant that holds a help screen. -/
def helpConstant (className : String) : String := className ++ "_HELP"

/-- The constant that holds a help screen with hidden members. -/
def hiddenHelpConstant (className : String) : String := className ++ "_HIDDEN_HELP"

def constructorHead (className : String) : String := className ++ "::" ++ className ++ "() :"

/-! ## Commands -/

def commandDeclaration (c : Command) : List String :=
  classHead (Name.className c.name) ++ c.options.map ("    " ++ field ·) ++ classEnd

/-- The lines of rules, which end with the brace that closes them all. -/
def ruleLines : List CommandOption → List String
  | [] => []
  | [o] => ["    " ++ rule o ++ "\x7d,"]
  | o :: rest => ("    " ++ rule o ++ ",") :: ruleLines rest

/-- The call of the base constructor up to the brace that opens the rules. -/
def baseCall (c : Command) : String :=
  "  " ++ Name.baseClass ++ "(" ++ String.intercalate ", " [
    "\"" ++ c.name ++ "\"", truth c.hidden, toString c.arity.min, toString c.arity.maxBound,
    "\x7b"]

/-- The rules of a command between their braces. -/
def ruleTable (c : Command) : List String :=
  match c.arranged with
  | [] => [baseCall c ++ "\x7d,"]
  | o :: rest => baseCall c :: ruleLines (o :: rest)

def commandDefinition (c : Command) : List String :=
  let className := Name.className c.name
  rawConstant (helpConstant className) c.helpLines ++
    [constructorHead className] ++ ruleTable c ++
    ["    " ++ helpConstant className ++ ")", "\x7b", "\x7d", ""]

def ofCommand (c : Command) : Code where
  declaration := Text.unlines (commandDeclaration c)
  definition := Text.unlines (commandDefinition c)

/-! ## Groups -/

def memberField (m : Member) : String :=
  "    " ++ Name.className m.command.name ++ " " ++ m.name ++ ";"

/-- The line that enters a member into the table of its group. -/
def memberEntry (m : Member) : String :=
  "  m_sub_arg_map[\"" ++ m.name ++ "\"] = &" ++ m.name ++ ";"

/-- The lines that declare the class of a group itself. -/
def dispatcherDeclaration (g : Group) : List String :=
  classHead (Name.className g.name) ++ g.members.map memberField ++
    ["    std::map<std::string, " ++ Name.baseClass ++ "*> m_sub_arg_map;"] ++ classEnd

def dispatcherDefinition (g : Group) : List String :=
  let className := Name.className g.name
  rawConstant (helpConstant className) (g.helpLines false) ++
    rawConstant (hiddenHelpConstant className) (g.helpLines true) ++
    [constructorHead className,
      "  " ++ Name.baseClass ++ "(\"" ++ g.name ++ "\", false, " ++ helpConstant className ++ ", " ++
        hiddenHelpConstant className ++ ")",
      "\x7b"] ++
    g.members.map memberEntry ++ ["\x7d", ""]

/-- The code of a group: its members and then the group itself. -/
def ofGroup (g : Group) : Code where
  declaration := Text.unlines
    (g.members.flatMap (commandDeclaration ·.command) ++ dispatcherDeclaration g)
  definition := Text.unlines
    (g.members.flatMap (commandDefinition ·.command) ++ dispatcherDefinition g)

def ofTop : TopCommand → Code
  | .single c => ofCommand c
  | .group g => ofGroup g

end Code
end CommandSchema
