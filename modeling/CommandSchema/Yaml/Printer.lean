/-
Texts written as scalars of a block mapping or a block sequence.

A text is written plain if it reads back as itself.  Otherwise it stands between single quotes, or,
if it has characters that single quotes cannot hold, between double quotes with escapes.  A text
with a line feed is written as a literal block, unless its white space would not survive that.
-/
import CommandSchema.Text.Line
import CommandSchema.Yaml.Cursor
import CommandSchema.Yaml.Plain

namespace CommandSchema
namespace Yaml

/-- The characters that a scalar may hold without escapes. -/
def isPrintable (c : Char) : Bool :=
  let n := c.toNat
  n = 10 || (0x20 ≤ n && n ≤ 0x7E) || (0xA0 ≤ n && n ≤ 0xFFFD && n ≠ 0xFEFF) || 0x10000 ≤ n

/-- A character that stands in front of another one. -/
def hasPair (p q : Char → Bool) (cs : List Char) : Bool :=
  (cs.zip (cs.drop 1)).any fun (c, d) => p c && q d

/-- The signs that mean something at the beginning of a scalar. -/
def firstIndicators : List Char := "#,[]\x7b\x7d&*!|>'\"%@`".toList

/-- A sign at the beginning of a text would mean something else. -/
def hasIndicatorFirst : List Char → Bool
  | [] => false
  | c :: rest =>
    firstIndicators.contains c || ((c = '?' || c = ':' || c = '-') && startsBlank rest)

/-- A colon in front of white space, or a number sign behind it. -/
def hasIndicatorInside : List Char → Bool
  | [] => false
  | c :: rest =>
    (match rest with
      | [] => false
      | d :: after =>
        (d = ':' && startsBlank after) || (d = '#' && (isBlank c || isBreak c))) ||
      hasIndicatorInside rest

/-- The text begins like a mark between documents. -/
def startsLikeMark (cs : List Char) : Bool :=
  cs.take 3 = ['-', '-', '-'] || cs.take 3 = ['.', '.', '.']

def isSpaceOrBreak (c : Char) : Bool := c = ' ' || isBreak c

def endsWith (p : Char → Bool) (cs : List Char) : Bool := cs.getLast?.any p

def startsWith (p : Char → Bool) (cs : List Char) : Bool := cs.head?.any p

/-- Characters or white space that only escapes can keep. -/
def needsEscapes (cs : List Char) : Bool :=
  cs.any (!isPrintable ·) || hasPair (· = ' ') isBreak cs

/-- A plain scalar would be read as this text. -/
def plainAllowed (cs : List Char) : Bool :=
  !(needsEscapes cs || cs.any isBreak || startsWith isSpaceOrBreak cs ||
    endsWith isSpaceOrBreak cs || hasIndicatorFirst cs || hasIndicatorInside cs ||
    startsLikeMark cs)

def singleAllowed (cs : List Char) : Bool := !(needsEscapes cs || hasPair isBreak (· = ' ') cs)

def literalAllowed (cs : List Char) : Bool := !(needsEscapes cs || endsWith (· = ' ') cs)

/-! ## Styles -/

/-- A text in single quotes.  Behind a line break the next line is indented. -/
def singleChars (afterBreak : Bool) : List Char → List Char
  | [] => if afterBreak then [' ', ' '] else []
  | c :: rest =>
    if isBreak c then c :: singleChars true rest
    else
      (if afterBreak then [' ', ' '] else []) ++
        (if c = '\'' then ['\'', '\''] else [c]) ++ singleChars false rest

def single (s : String) : String := "'" ++ String.ofList (singleChars false s.toList) ++ "'"

/-- The characters with an escape of one letter. -/
def letterEscapes : List (Char × Char) := [
  ('\x00', '0'), ('\x07', 'a'), ('\x08', 'b'), ('\t', 't'), ('\n', 'n'), ('\x0b', 'v'),
  ('\x0c', 'f'), ('\r', 'r'), ('\x1b', 'e'), ('"', '"'), ('\\', '\\'), ('\u0085', 'N'),
  ('\u00a0', '_'), ('\u2028', 'L'), ('\u2029', 'P')]

/-- A number in so many hexadecimal digits. -/
def hexDigits (width n : Nat) : List Char :=
  let digits := (Nat.toDigits 16 n).map Char.toUpper
  List.replicate (width - digits.length) '0' ++ digits

def escapeChar (c : Char) : List Char :=
  match letterEscapes.lookup c with
  | some d => ['\\', d]
  | none =>
    let n := c.toNat
    if n ≤ 0xFF then '\\' :: 'x' :: hexDigits 2 n
    else if n ≤ 0xFFFF then '\\' :: 'u' :: hexDigits 4 n
    else '\\' :: 'U' :: hexDigits 8 n

def doubleChar (c : Char) : List Char :=
  if !isPrintable c || isBreak c || c = '"' || c = '\\' then escapeChar c else [c]

def double (s : String) : String := "\"" ++ String.ofList (s.toList.flatMap doubleChar) ++ "\""

/-- What the first line of a literal block says of the breaks at its end. -/
def chompingSign (cs : List Char) : String :=
  match cs.reverse with
  | [] => "-"
  | c :: rest =>
    if !isBreak c then "-" else if rest.head?.all isBreak then "+" else ""

/-- The lines of a literal block, indented unless they are empty. -/
def literalChars (atStart : Bool) : List Char → List Char
  | [] => []
  | c :: rest =>
    if isBreak c then c :: literalChars true rest
    else (if atStart then [' ', ' '] else []) ++ c :: literalChars false rest

/-- A literal block.  It ends with a line break, like every other line. -/
def literal (s : String) : String :=
  let cs := s.toList
  let sign := if startsWith isSpaceOrBreak cs then "2" else ""
  "|" ++ sign ++ chompingSign cs ++ "\n" ++ String.ofList (literalChars true cs)

/-- A text as a scalar, up to the end of its line. -/
def scalarLine (s : String) : String :=
  let cs := s.toList
  if cs.contains '\n' then
    if literalAllowed cs then
      if endsWith isBreak cs then literal s else literal s ++ "\n"
    else double s ++ "\n"
  else
    let isText := PlainKind.ofText s = .text ∧ !PlainKind.isPaddedZero cs
    (if isText ∧ plainAllowed cs then s
      else if singleAllowed cs then single s
      else double s) ++ "\n"

end Yaml
end CommandSchema
