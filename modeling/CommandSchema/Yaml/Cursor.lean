/-
A place in a YAML text and what follows it.

Lines end with a line feed, a carriage return, both together, or one of three characters of
Unicode.  A line break is read as a line feed, except the separators of lines and of paragraphs,
which stay what they are.  Columns count characters.
-/

namespace CommandSchema
namespace Yaml

/-- A place in a text, counted from zero. -/
structure Mark where
  index : Nat := 0
  line : Nat := 0
  column : Nat := 0
  deriving DecidableEq, Repr

namespace Mark

/-- The beginning of a text goes without saying. -/
def isStart (m : Mark) : Bool := m.line = 0 && m.column = 0

def text (m : Mark) : String := s!"line {m.line + 1} column {m.column + 1}"

/-- Where a message says that something is. -/
def suffix (m : Mark) : String := if m.isStart then "" else " at " ++ m.text

end Mark

/-- What is wrong with a YAML text, where, and during what. -/
structure Fault where
  problem : String
  mark : Mark
  context : Option (String × Mark) := none
  deriving DecidableEq, Repr

namespace Fault

def message (f : Fault) : String :=
  f.problem ++ f.mark.suffix ++
    match f.context with
    | none => ""
    | some (what, mark) =>
      ", " ++ what ++
        if mark.line = f.mark.line ∧ mark.column = f.mark.column then "" else mark.suffix

end Fault

def isBreak (c : Char) : Bool :=
  c = '\n' || c = '\r' || c = '\u0085' || c = '\u2028' || c = '\u2029'

def isBlank (c : Char) : Bool := c = ' ' || c = '\t'

/-- Whether a text goes on with white space or ends. -/
def startsBlank : List Char → Bool
  | [] => true
  | c :: _ => isBlank c || isBreak c

/-- Whether a text goes on with a line break. -/
def startsBreak : List Char → Bool
  | [] => false
  | c :: _ => isBreak c

/-- The mark that begins or ends a document, three of one character on their own. -/
def startsMarker (c : Char) : List Char → Bool
  | a :: b :: d :: rest => a = c && b = c && d = c && startsBlank rest
  | _ => false

/-- A place and the characters behind it. -/
structure Cursor where
  mark : Mark := {}
  rest : List Char
  deriving DecidableEq, Repr

namespace Cursor

def skip (n : Nat) (c : Cursor) : Cursor where
  mark := { c.mark with index := c.mark.index + n, column := c.mark.column + n }
  rest := c.rest.drop n

/-- A fault here, during something that begins at a mark. -/
def faultIn {α : Type} (c : Cursor) (context problem : String) (start : Mark) : Except Fault α :=
  .error ⟨problem, c.mark, some (context, start)⟩

def nextLine (m : Mark) (n : Nat) : Mark where
  index := m.index + n
  line := m.line + 1
  column := 0

/-- A line break, if there is one, as it is read, and the place behind it. -/
def takeBreak (c : Cursor) : List Char × Cursor :=
  match c.rest with
  | '\r' :: '\n' :: rest => (['\n'], ⟨nextLine c.mark 2, rest⟩)
  | d :: rest =>
    if d = '\u2028' ∨ d = '\u2029' then ([d], ⟨nextLine c.mark 1, rest⟩)
    else if isBreak d then (['\n'], ⟨nextLine c.mark 1, rest⟩)
    else ([], c)
  | [] => ([], c)

/-- The characters that pass a test, none of them a line break, and the place behind them. -/
def takeWhile (p : Char → Bool) (c : Cursor) : List Char × Cursor :=
  let taken := c.rest.takeWhile fun d => p d && !isBreak d
  (taken, c.skip taken.length)

def skipWhile (p : Char → Bool) (c : Cursor) : Cursor := (c.takeWhile p).2

def takeLine (c : Cursor) : List Char × Cursor := c.takeWhile fun _ => true

/-- A mark that begins or ends a document stands at the beginning of a line. -/
def atMarker (c : Cursor) : Bool :=
  c.mark.column = 0 && (startsMarker '-' c.rest || startsMarker '.' c.rest)

end Cursor
end Yaml
end CommandSchema
