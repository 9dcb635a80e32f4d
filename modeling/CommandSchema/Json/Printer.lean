/-
The compact text of a JSON value.

Nothing stands between the tokens.  A string escapes its quotes, its backslashes and the control
characters below the space, the ones with a letter of their own by that letter; every other
character stands for itself.  An object is written in the order of its field list.

`Value.found` names a value in a message about an ill-typed one.
-/
import CommandSchema.Binary64.Shortest
import CommandSchema.Json.Value
import CommandSchema.Text.Quoted

namespace CommandSchema
namespace Json

def hexDigit (n : Nat) : Char := if n < 10 then Char.ofNat (48 + n) else Char.ofNat (87 + n)

def escapeChar (c : Char) : List Char :=
  if c = '"' then ['\\', '"']
  else if c = '\\' then ['\\', '\\']
  else if c = '\n' then ['\\', 'n']
  else if c = '\r' then ['\\', 'r']
  else if c = '\t' then ['\\', 't']
  else if c = '\x08' then ['\\', 'b']
  else if c = '\x0c' then ['\\', 'f']
  else if c.toNat < 0x20 then
    ['\\', 'u', '0', '0', hexDigit (c.toNat / 16), hexDigit (c.toNat % 16)]
  else [c]

def stringChars (s : String) : List Char := '"' :: (s.toList.flatMap escapeChar ++ ['"'])

def integerChars (i : Int) : List Char :=
  if i < 0 then '-' :: Nat.toDigits 10 i.natAbs else Nat.toDigits 10 i.natAbs

namespace Number

def chars : Number → List Char
  | .integer i _ => integerChars i
  | .real negative x => if negative then '-' :: x.text.toList else x.text.toList

def text (n : Number) : String := String.ofList n.chars

end Number

namespace Value

mutual

def chars : Value → List Char
  | .null => ['n', 'u', 'l', 'l']
  | .bool true => ['t', 'r', 'u', 'e']
  | .bool false => ['f', 'a', 'l', 's', 'e']
  | .number n => n.chars
  | .string s => stringChars s
  | .array items => '[' :: (itemsChars items ++ [']'])
  | .object fields => '{' :: (fieldsChars fields ++ ['}'])

def itemsChars : List Value → List Char
  | [] => []
  | [item] => item.chars
  | item :: next :: items => item.chars ++ ',' :: itemsChars (next :: items)

def fieldsChars : List (String × Value) → List Char
  | [] => []
  | [(key, value)] => stringChars key ++ ':' :: value.chars
  | (key, value) :: next :: fields =>
    stringChars key ++ ':' :: (value.chars ++ ',' :: fieldsChars (next :: fields))

end

def text (v : Value) : String := String.ofList v.chars

/-- A value as a message names what it found. -/
def found : Value → String
  | .null => "null"
  | .bool b => s!"boolean `{b}`"
  | .number n@(.integer _ _) => s!"integer `{n.text}`"
  | .number n@(.real _ _) => s!"floating point `{n.text}`"
  | .string s => s!"string {Text.quoted s}"
  | .array _ => "sequence"
  | .object _ => "map"

end Value
end Json
end CommandSchema
