/-
What is wrong with a JSON text, and where.

A fault found while reading carries the number of bytes that follow it (`Fault.unread`), which the
reader knows from the rest of its source alone.  `Fault.locate` turns it into a place of the whole
source.
-/
import CommandSchema.Text.Glyph

namespace CommandSchema
namespace Json

inductive Cause where
  | endInValue
  | endInObject
  | endInList
  | endInString
  | expectedValue
  | expectedIdent
  | expectedColon
  | expectedCommaOrBrace
  | expectedCommaOrBracket
  | keyNotString
  | trailingComma
  | trailingCharacters
  | invalidNumber
  | numberOutOfRange
  | invalidEscape
  | endOfHexEscape
  | loneSurrogate
  | controlCharacter
  | strayByte
  | tooDeep
  /-- The root is a value of another kind than the reader needs. -/
  | wrongRoot (found expected : String)
  deriving DecidableEq, Repr

namespace Cause

def text : Cause → String
  | .endInValue => "EOF while parsing a value"
  | .endInObject => "EOF while parsing an object"
  | .endInList => "EOF while parsing a list"
  | .endInString => "EOF while parsing a string"
  | .expectedValue => "expected value"
  | .expectedIdent => "expected ident"
  | .expectedColon => "expected `:`"
  | .expectedCommaOrBrace => "expected `,` or `\x7d`"
  | .expectedCommaOrBracket => "expected `,` or `]`"
  | .keyNotString => "key must be a string"
  | .trailingComma => "trailing comma"
  | .trailingCharacters => "trailing characters"
  | .invalidNumber => "invalid number"
  | .numberOutOfRange => "number out of range"
  | .invalidEscape => "invalid escape"
  | .endOfHexEscape => "unexpected end of hex escape"
  | .loneSurrogate => "lone leading surrogate in hex escape"
  | .controlCharacter => "control character (\\u0000-\\u001F) found while parsing a string"
  | .strayByte => "invalid unicode code point"
  | .tooDeep => "recursion limit exceeded"
  | .wrongRoot found expected => s!"invalid type: {found}, expected {expected}"

end Cause

/-- A fault and the number of bytes of the source behind its place. -/
structure Fault where
  cause : Cause
  unread : Nat
  deriving DecidableEq, Repr

/-- A fault and its place in the source. -/
structure Error where
  cause : Cause
  place : Place
  deriving DecidableEq, Repr

namespace Fault

/-- The fault lies in front of the rest of the source. -/
def before (cause : Cause) (rest : List Glyph) : Fault := ⟨cause, Glyph.widths rest⟩

/-- The fault is the next byte of the source, if there is one. -/
def atNext (cause : Cause) (rest : List Glyph) : Fault := ⟨cause, Glyph.widths rest - 1⟩

def locate (source : List Glyph) (fault : Fault) : Error :=
  ⟨fault.cause, Glyph.placeAfter source (Glyph.widths source - fault.unread) Place.start⟩

end Fault

namespace Error

def message (e : Error) : String := s!"{e.cause.text} at {e.place.text}"

end Error
end Json
end CommandSchema
