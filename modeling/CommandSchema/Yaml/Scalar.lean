/-
Scalars of a YAML text: plain, quoted, and in blocks.

Where a plain or a quoted scalar goes on in another line, the white space around the break is
dropped; a single break becomes a space, and of several breaks all but the first remain.  A block
scalar keeps its lines, or folds them, and says what happens to the breaks at its end.
-/
import CommandSchema.Yaml.Cursor

namespace CommandSchema
namespace Yaml

/-- What was read, and the place behind it. -/
abbrev Scan := Except Fault (List Char × Cursor)

/-! ## White space inside a scalar -/

/-- White space inside a scalar: blanks in one line, or line breaks. -/
structure Gap where
  blanks : List Char := []
  breaks : List Char := []
  deriving DecidableEq, Repr

namespace Gap

/-- Line breaks as they are read: one is a space, and of several the first is dropped. -/
def fold : List Char → List Char
  | [] => []
  | '\n' :: [] => [' ']
  | '\n' :: rest => rest
  | breaks => breaks

/-- What a gap adds to the text of a scalar. -/
def text (g : Gap) : List Char := if g.breaks.isEmpty then g.blanks else fold g.breaks

end Gap

/-- The white space from a place on.  Tabs in front of the least column are refused in a new line.
`broken` says that the line has been left, and the breaks met so far come with it. -/
def takeGap (tabFault : Mark → Option Fault) :
    Nat → Bool → Gap → Cursor → Except Fault (Gap × Bool × Cursor)
  | 0, broken, g, c => .ok (g, broken, c)
  | n + 1, broken, g, c =>
    match c.rest with
    | [] => .ok (g, broken, c)
    | d :: _ =>
      if isBlank d then
        match if broken ∧ d = '\t' then tabFault c.mark else none with
        | some fault => .error fault
        | none =>
          takeGap tabFault n broken
            (if broken then g else { g with blanks := g.blanks ++ [d] }) (c.skip 1)
      else if isBreak d then
        let (b, c) := c.takeBreak
        takeGap tabFault n true { g with breaks := g.breaks ++ b } c
      else .ok (g, broken, c)

/-! ## Plain scalars -/

/-- The characters that end a plain scalar in a flow collection. -/
def isFlowEnd (c : Char) : Bool := c = ',' || c = '[' || c = ']' || c = '{' || c = '}'

/-- A colon in front of such a character cannot stand in a plain scalar of a flow collection. -/
def startsFlowEnd : List Char → Bool
  | [] => false
  | c :: _ => isFlowEnd c || c = '?'

/-- The characters of a plain scalar up to white space or its end, and whether a colon is out of
place behind them. -/
def plainRun (inFlow : Bool) : List Char → List Char × Bool
  | [] => ([], false)
  | c :: rest =>
    if isBlank c ∨ isBreak c then ([], false)
    else if inFlow ∧ c = ':' ∧ startsFlowEnd rest then ([], true)
    else if c = ':' ∧ startsBlank rest then ([], false)
    else if inFlow ∧ isFlowEnd c then ([], false)
    else
      let (run, bad) := plainRun inFlow rest
      (c :: run, bad)

/-- The rest of a plain scalar behind some white space.  The cursor of the result is the place
behind the white space at its end, and the flag says that this is another line. -/
def plainFrom (inFlow : Bool) (start : Mark) (least : Nat) :
    Nat → List Char → Gap → Bool → Cursor → Except Fault (List Char × Bool × Cursor)
  | 0, acc, _, broken, c => .ok (acc, broken, c)
  | n + 1, acc, gap, broken, c =>
    if c.atMarker ∨ c.rest.head? = some '#' then .ok (acc, broken, c)
    else
      let (run, bad) := plainRun inFlow c.rest
      if bad then
        .error ⟨"found unexpected ':'", (c.skip run.length).mark,
          some ("while scanning a plain scalar", start)⟩
      else if run.isEmpty then .ok (acc, broken, c)
      else
        let acc := acc ++ gap.text ++ run
        let c := c.skip run.length
        if c.rest.isEmpty ∨ !startsBlank c.rest then .ok (acc, false, c)
        else
          let tabFault (m : Mark) : Option Fault :=
            if m.column < least then
              some ⟨"found a tab character that violates indentation", m,
                some ("while scanning a plain scalar", start)⟩
            else none
          match takeGap tabFault (c.rest.length + 1) false {} c with
          | .error fault => .error fault
          | .ok (gap, broken, c) =>
            if !inFlow ∧ c.mark.column < least then .ok (acc, broken, c)
            else plainFrom inFlow start least n acc gap broken c

/-- A plain scalar.  Outside of flow collections its lines stand at the least column or behind
it. -/
def scanPlain (inFlow : Bool) (least : Nat) (c : Cursor) :
    Except Fault (List Char × Bool × Cursor) :=
  plainFrom inFlow c.mark least (c.rest.length + 1) [] {} false c

/-! ## Quoted scalars -/

/-- The characters that stand behind a backslash for one character. -/
def escapes : List (Char × Char) := [
  ('0', '\x00'), ('a', '\x07'), ('b', '\x08'), ('t', '\t'), ('\t', '\t'), ('n', '\n'),
  ('v', '\x0b'), ('f', '\x0c'), ('r', '\r'), ('e', '\x1b'), (' ', ' '), ('"', '"'), ('/', '/'),
  ('\\', '\\'), ('N', '\u0085'), ('_', '\u00a0'), ('L', '\u2028'), ('P', '\u2029')]

/-- How many hexadecimal digits follow a letter behind a backslash. -/
def hexLength : Char → Option Nat
  | 'x' => some 2
  | 'u' => some 4
  | 'U' => some 8
  | _ => none

def hexDigit? (c : Char) : Option Nat :=
  if '0' ≤ c ∧ c ≤ '9' then some (c.toNat - '0'.toNat)
  else if 'a' ≤ c ∧ c ≤ 'f' then some (c.toNat - 'a'.toNat + 10)
  else if 'A' ≤ c ∧ c ≤ 'F' then some (c.toNat - 'A'.toNat + 10)
  else none

/-- The number that some hexadecimal digits stand for. -/
def hexValue? : Nat → Nat → List Char → Option Nat
  | 0, acc, _ => some acc
  | _ + 1, _, [] => none
  | n + 1, acc, c :: rest => (hexDigit? c).bind fun d => hexValue? n (acc * 16 + d) rest

/-- An escape behind its backslash: its character, and how many characters it takes. -/
def escape (start mark : Mark) : List Char → Except Fault (Char × Nat)
  | [] => .error ⟨"found unknown escape character", mark,
      some ("while parsing a quoted scalar", start)⟩
  | c :: rest =>
    match escapes.lookup c with
    | some d => .ok (d, 1)
    | none =>
      match hexLength c with
      | none => .error ⟨"found unknown escape character", mark,
          some ("while parsing a quoted scalar", start)⟩
      | some n =>
        match hexValue? n 0 rest with
        | none => .error ⟨"did not find expected hexdecimal number", mark,
            some ("while parsing a quoted scalar", start)⟩
        | some value =>
          if (0xD800 ≤ value ∧ value ≤ 0xDFFF) ∨ 0x10FFFF < value then
            .error ⟨"found invalid Unicode character escape code", mark,
              some ("while parsing a quoted scalar", start)⟩
          else .ok (Char.ofNat value, n + 1)

/-- How a run of a quoted scalar ends: before white space or a quote, or with a line break that is
escaped. -/
structure QuotedRun where
  text : List Char
  breakEscaped : Bool
  cursor : Cursor

/-- The characters of a quoted scalar up to white space or its end. -/
def quotedRun (single : Bool) (start : Mark) :
    Nat → List Char → Cursor → Except Fault QuotedRun
  | 0, acc, c => .ok ⟨acc, false, c⟩
  | n + 1, acc, c =>
    match c.rest with
    | [] => .ok ⟨acc, false, c⟩
    | d :: rest =>
      if isBlank d ∨ isBreak d then .ok ⟨acc, false, c⟩
      else if single then
        if d = '\'' then
          if rest.head? = some '\'' then quotedRun single start n (acc ++ ['\'']) (c.skip 2)
          else .ok ⟨acc, false, c⟩
        else quotedRun single start n (acc ++ [d]) (c.skip 1)
      else if d = '"' then .ok ⟨acc, false, c⟩
      else if d = '\\' then
        if startsBreak rest then .ok ⟨acc, true, ((c.skip 1).takeBreak).2⟩
        else
          match escape start c.mark rest with
          | .error fault => .error fault
          | .ok (e, k) => quotedRun single start n (acc ++ [e]) (c.skip (k + 1))
      else quotedRun single start n (acc ++ [d]) (c.skip 1)

/-- The rest of a quoted scalar and its closing quote. -/
def quotedFrom (single : Bool) (start : Mark) : Nat → List Char → Cursor → Scan
  | 0, acc, c => .ok (acc, c)
  | n + 1, acc, c =>
    if c.atMarker then
      .error ⟨"found unexpected document indicator", c.mark,
        some ("while scanning a quoted scalar", start)⟩
    else if c.rest.isEmpty then
      .error ⟨"found unexpected end of stream", c.mark,
        some ("while scanning a quoted scalar", start)⟩
    else
      match quotedRun single start (c.rest.length + 1) [] c with
      | .error fault => .error fault
      | .ok run =>
        let acc := acc ++ run.text
        let c := run.cursor
        if c.rest.head? = some (if single then '\'' else '"') then
          .ok (acc, c.skip 1)
        else
          match takeGap (fun _ => none) (c.rest.length + 1) run.breakEscaped {} c with
          | .error fault => .error fault
          | .ok (gap, _, c) =>
            quotedFrom single start n
              (acc ++ if run.breakEscaped then gap.breaks else gap.text) c

/-- A scalar from its opening quote to its closing one. -/
def scanQuoted (single : Bool) (c : Cursor) : Scan :=
  quotedFrom single c.mark (c.rest.length + 1) [] (c.skip 1)

/-! ## Block scalars -/

/-- What happens to the line breaks at the end of a block scalar. -/
inductive Chomping where
  | strip
  | clip
  | keep
  deriving DecidableEq, Repr

/-- The marks in the first line of a block scalar. -/
structure BlockHeader where
  chomping : Chomping := .clip
  indent : Option Nat := none
  deriving DecidableEq, Repr

def chomping? : Char → Option Chomping
  | '+' => some .keep
  | '-' => some .strip
  | _ => none

/-- A digit that says how far a block scalar is indented. -/
def indentDigit? (c : Char) : Option Nat :=
  if '0' ≤ c ∧ c ≤ '9' then some (c.toNat - '0'.toNat) else none

/-- The marks in the first line of a block scalar, in either order, and how many there are. -/
def blockHeader : List Char → BlockHeader × Nat
  | [] => ({}, 0)
  | c :: rest =>
    match chomping? c, indentDigit? c with
    | some chomping, _ =>
      match rest.head?.bind indentDigit? with
      | some n => (⟨chomping, some n⟩, 2)
      | none => (⟨chomping, none⟩, 1)
    | none, some n =>
      match rest.head?.bind chomping? with
      | some chomping => (⟨chomping, some n⟩, 2)
      | none => (⟨.clip, some n⟩, 1)
    | none, none => ({}, 0)

/-- Empty lines of a block scalar and the indentation behind them: the breaks, the greatest column
reached, and the place. -/
def blockBreaks (start : Mark) (indent : Option Nat) :
    Nat → List Char → Nat → Cursor → Except Fault (List Char × Nat × Cursor)
  | 0, breaks, greatest, c => .ok (breaks, greatest, c)
  | n + 1, breaks, greatest, c =>
    let room := (indent.map (· - c.mark.column)).getD c.rest.length
    let c := c.skip ((c.rest.take room).takeWhile (· = ' ')).length
    let greatest := max greatest c.mark.column
    if indent.all (c.mark.column < ·) ∧ c.rest.head? = some '\t' then
      .error ⟨"found a tab character where an indentation space is expected", c.mark,
        some ("while scanning a block scalar", start)⟩
    else if startsBreak c.rest then
      let (b, c) := c.takeBreak
      blockBreaks start indent n (breaks ++ b) greatest c
    else .ok (breaks, greatest, c)

/-- The text of a block scalar while its lines are read: what is certain, the break of the last
line, the breaks of empty lines behind it, and whether that line began with a blank. -/
structure BlockText where
  text : List Char := []
  leading : List Char := []
  trailing : List Char := []
  blank : Bool := false

/-- The breaks in front of a line of a block scalar.  A folded scalar joins two lines that do not
begin with a blank. -/
def BlockText.joint (literal : Bool) (t : BlockText) (blank : Bool) : List Char :=
  if !literal ∧ t.leading = ['\n'] ∧ !t.blank ∧ !blank then
    if t.trailing.isEmpty then [' '] else t.trailing
  else t.leading ++ t.trailing

/-- The lines of a block scalar from the indentation of the next one on. -/
def blockLines (literal : Bool) (start : Mark) (indent : Nat) :
    Nat → BlockText → Cursor → Except Fault (BlockText × Cursor)
  | 0, t, c => .ok (t, c)
  | n + 1, t, c =>
    if c.mark.column ≠ indent ∨ c.rest.isEmpty then .ok (t, c)
    else
      let blank := c.rest.head?.any isBlank
      let (line, c) := c.takeLine
      let (leading, c) := c.takeBreak
      match blockBreaks start (some indent) (c.rest.length + 1) [] 0 c with
      | .error fault => .error fault
      | .ok (trailing, _, c) =>
        blockLines literal start indent n
          ⟨t.text ++ t.joint literal blank ++ line, leading, trailing, blank⟩ c

/-- The text of a block scalar after what its first line says about its end. -/
def BlockText.chomp (t : BlockText) : Chomping → List Char
  | .strip => t.text
  | .clip => t.text ++ t.leading
  | .keep => t.text ++ t.leading ++ t.trailing

/-- A block scalar from its sign on, inside a block at some column, or at none. -/
def scanBlock (literal : Bool) (outer : Option Nat) (c : Cursor) : Scan :=
  let start := c.mark
  let fault (problem : String) (mark : Mark) : Scan :=
    .error ⟨problem, mark, some ("while scanning a block scalar", start)⟩
  let c := c.skip 1
  let (header, n) := blockHeader c.rest
  if header.indent = some 0 then fault "found an indentation indicator equal to 0" c.mark
  else
    let c := (c.skip n).skipWhile isBlank
    let c := if c.rest.head? = some '#' then c.takeLine.2 else c
    if !(c.rest.isEmpty || startsBreak c.rest) then
      fault "did not find expected comment or line break" c.mark
    else
      let c := c.takeBreak.2
      let known := header.indent.map (· + outer.getD 0)
      match blockBreaks start known (c.rest.length + 1) [] 0 c with
      | .error fault => .error fault
      | .ok (breaks, greatest, c) =>
        let least := (outer.map (· + 1)).getD 0
        let indent := known.getD (max (max greatest least) 1)
        match blockLines literal start indent (c.rest.length + 1) { trailing := breaks } c with
        | .error fault => .error fault
        | .ok (t, c) => .ok (t.chomp header.chomping, c)

end Yaml
end CommandSchema
