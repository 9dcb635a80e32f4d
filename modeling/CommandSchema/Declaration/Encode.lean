/-
Declarations written as JSON values.

Every field is written, in its declared order, and what is absent as null.  A help text is written
as it was declared.  Reading the value gives the declaration back.
-/
import CommandSchema.Declaration.Basic

namespace CommandSchema

namespace HelpText

def toJson : HelpText → Json.Value
  | .line text => .string text
  | .lines texts => .array (texts.map .string)

end HelpText

namespace OptionDecl

def toJson (o : OptionDecl) : Json.Value :=
  .object [
    ("name", .string o.name),
    ("short", (o.short.map .string).getD .null),
    ("type", .string o.type),
    ("optional", .bool o.optional),
    ("multi", .bool o.multi),
    ("default", o.default.getD .null),
    ("help", o.help.toJson),
    ("hide", .bool o.hide)]

end OptionDecl

namespace CommandDecl

def toJson (c : CommandDecl) : Json.Value :=
  .object [
    ("help", c.help.toJson),
    ("arg", c.arg.getD .null),
    ("option", .array (c.options.map OptionDecl.toJson)),
    ("hidden", .bool c.hidden)]

end CommandDecl
end CommandSchema
