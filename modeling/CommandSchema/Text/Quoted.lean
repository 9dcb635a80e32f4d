/-
A text in quotes, as a message shows a text that it found.

Quotes, backslashes and the control characters with a letter of their own are escaped by a
backslash, and every other character that does not show by itself by its code point in hexadecimal
digits.
-/
import CommandSchema.Text.Unshown

namespace CommandSchema
namespace Text

def quotedChar (c : Char) : List Char :=
  if c = '"' then ['\\', '"']
  else if c = '\\' then ['\\', '\\']
  else if c = '\n' then ['\\', 'n']
  else if c = '\r' then ['\\', 'r']
  else if c = '\t' then ['\\', 't']
  else if c = '\x00' then ['\\', '0']
  else if isUnshown c then '\\' :: 'u' :: '{' :: (Nat.toDigits 16 c.toNat ++ ['}'])
  else [c]

def quoted (s : String) : String := String.ofList ('"' :: (s.toList.flatMap quotedChar ++ ['"']))

end Text
end CommandSchema
