/-
The contents of a file as a sequence of characters, where not every byte belongs to one.

A file is read as UTF-8.  A byte that is part of no well-formed sequence is kept as a stray byte
rather than refused, since a reader may find an earlier fault first and has to count the bytes in
front of it.  A text in memory has no stray bytes (`ofText`).

A place in a source is found by the number of bytes in front of it: its line, and the number of
bytes since the last line feed.
-/

namespace CommandSchema

/-- A character, or a byte that belongs to none. -/
inductive Glyph where
  | char (c : Char)
  | stray (byte : UInt8)
  deriving DecidableEq, Repr

/-- A place in a source: lines count from one, and the column is the number of bytes read since the
last line feed. -/
structure Place where
  line : Nat
  column : Nat
  deriving DecidableEq, Repr

namespace Place

def start : Place := ⟨1, 0⟩

def text (p : Place) : String := s!"line {p.line} column {p.column}"

end Place

namespace Glyph

def width : Glyph → Nat
  | .char c => c.utf8Size
  | .stray _ => 1

def widths : List Glyph → Nat
  | [] => 0
  | g :: gs => g.width + widths gs

def ofText (s : String) : List Glyph := s.toList.map .char

/-- The continuation bytes of UTF-8. -/
def isTail (b : UInt8) : Bool := 0x80 ≤ b && b ≤ 0xBF

/-- The code point of the low bits of a lead byte and its continuation bytes. -/
def codePoint (lead : Nat) (tails : List UInt8) : Char :=
  Char.ofNat (tails.foldl (fun n b => n * 64 + b.toNat % 64) lead)

/-- Two bytes are a character. -/
def isPair (a b : UInt8) : Bool := 0xC2 ≤ a && a ≤ 0xDF && isTail b

/-- Three bytes are a character: neither an overlong form nor a surrogate. -/
def isTriple (a b c : UInt8) : Bool :=
  0xE0 ≤ a && a ≤ 0xEF && isTail b && isTail c && (a != 0xE0 || 0xA0 ≤ b) && (a != 0xED || b ≤ 0x9F)

/-- Four bytes are a character: neither an overlong form nor beyond the last code point. -/
def isQuad (a b c d : UInt8) : Bool :=
  0xF0 ≤ a && a ≤ 0xF4 && isTail b && isTail c && isTail d && (a != 0xF0 || 0x90 ≤ b) &&
    (a != 0xF4 || b ≤ 0x8F)

/-- The character that a byte begins, and the number of continuation bytes it takes. -/
def leading? (a : UInt8) (rest : List UInt8) : Option (Char × Nat) :=
  if a < 0x80 then some (Char.ofNat a.toNat, 0)
  else
    match rest with
    | [] => none
    | [b] => if isPair a b then some (codePoint (a.toNat % 32) [b], 1) else none
    | [b, c] =>
      if isPair a b then some (codePoint (a.toNat % 32) [b], 1)
      else if isTriple a b c then some (codePoint (a.toNat % 16) [b, c], 2)
      else none
    | b :: c :: d :: _ =>
      if isPair a b then some (codePoint (a.toNat % 32) [b], 1)
      else if isTriple a b c then some (codePoint (a.toNat % 16) [b, c], 2)
      else if isQuad a b c d then some (codePoint (a.toNat % 8) [b, c, d], 3)
      else none

/-- The glyphs of a sequence of bytes without its first `n`. -/
def ofBytesAfter : Nat → List UInt8 → List Glyph
  | _, [] => []
  | n + 1, _ :: rest => ofBytesAfter n rest
  | 0, a :: rest =>
    match leading? a rest with
    | some (c, n) => .char c :: ofBytesAfter n rest
    | none => .stray a :: ofBytesAfter 0 rest

/-- The characters of a sequence of bytes, and the bytes that belong to none. -/
def ofBytes (bytes : List UInt8) : List Glyph := ofBytesAfter 0 bytes

/-- The place after the first `n` bytes of a source. -/
def placeAfter : List Glyph → Nat → Place → Place
  | [], _, p => p
  | g :: gs, n, p =>
    if n < g.width then ⟨p.line, p.column + n⟩
    else if g = .char '\n' then placeAfter gs (n - g.width) ⟨p.line + 1, 0⟩
    else placeAfter gs (n - g.width) ⟨p.line, p.column + g.width⟩

end Glyph
end CommandSchema
