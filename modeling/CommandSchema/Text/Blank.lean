/-
White space as Unicode defines it, and the trimming of texts.

A help line or a description counts as empty when nothing but white space stands on it, and the
members of an enumeration are read with the white space around them removed.  Both use the
property White_Space, which has twenty-five characters.  `Char.isWhitespace` knows four of them.
-/

namespace CommandSchema
namespace Text

/-- The characters with the Unicode property White_Space. -/
def isSpace (c : Char) : Bool :=
  let n := c.toNat
  (9 ≤ n && n ≤ 13) || n == 0x20 || n == 0x85 || n == 0xA0 || n == 0x1680 ||
    (0x2000 ≤ n && n ≤ 0x200A) || n == 0x2028 || n == 0x2029 || n == 0x202F || n == 0x205F ||
    n == 0x3000

def trimChars (cs : List Char) : List Char :=
  ((cs.dropWhile isSpace).reverse.dropWhile isSpace).reverse

def trim (s : String) : String := String.ofList (trimChars s.toList)

def isBlank (s : String) : Bool := s.toList.all isSpace

end Text
end CommandSchema
