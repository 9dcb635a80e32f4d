/-
Tokens of a YAML text.

A scanner goes through the text once.  It keeps the columns at which blocks are open, and for every
level of flow collections the token that may turn out to be a key, which is known only at the colon
behind it.  A key has to stand in one line of at most 1024 characters; then the tokens that say so
are put in front of it.
-/
import CommandSchema.Yaml.Scalar

namespace CommandSchema
namespace Yaml

inductive TokenKind where
  | version (major minor : Nat)
  | tagHandle (handle : String)
  | documentStart
  | documentEnd
  | blockSequenceStart
  | blockMappingStart
  | blockEnd
  | flowSequenceStart
  | flowSequenceEnd
  | flowMappingStart
  | flowMappingEnd
  | blockEntry
  | flowEntry
  | key
  | value
  | alias (name : String)
  | anchor (name : String)
  | tag (handle : String)
  | scalar (text : String) (isPlain : Bool)
  | streamEnd
  deriving DecidableEq, Repr

structure Token where
  kind : TokenKind
  mark : Mark
  deriving DecidableEq, Repr

/-- A token that may turn out to be a key, by its number; a required one has to. -/
structure PossibleKey where
  number : Nat
  mark : Mark
  required : Bool
  deriving DecidableEq, Repr

/-- The scanner: the tokens so far in reverse, the columns of open blocks from the inmost one, and
the possible key of this level and of those around it. -/
structure Scanner where
  cursor : Cursor
  tokens : List Token := []
  columns : List Nat := []
  keyAllowed : Bool := true
  key : Option PossibleKey := none
  outerKeys : List (Option PossibleKey) := []

namespace Scanner

def inFlow (s : Scanner) : Bool := !s.outerKeys.isEmpty

def mark (s : Scanner) : Mark := s.cursor.mark

def fault {α : Type} (s : Scanner) (problem : String) : Except Fault α := .error ⟨problem, s.mark, none⟩

def emit (kind : TokenKind) (mark : Mark) (s : Scanner) : Scanner :=
  { s with tokens := ⟨kind, mark⟩ :: s.tokens }

/-- A token put in front of the one with a number. -/
def emitAt (number : Nat) (kind : TokenKind) (mark : Mark) (s : Scanner) : Scanner :=
  let later := s.tokens.length - number
  { s with tokens := s.tokens.take later ++ ⟨kind, mark⟩ :: s.tokens.drop later }

/-- Past some characters, as a token. -/
def emitHere (kind : TokenKind) (length : Nat) (s : Scanner) : Scanner :=
  { s.emit kind s.mark with cursor := s.cursor.skip length }

/-! ## Keys -/

/-- A possible key after the scanner has gone on; it has to be in the same line and not too far
back. -/
def stillPossible (now : Mark) : Option PossibleKey → Except Fault (Option PossibleKey)
  | none => .ok none
  | some k =>
    if k.mark.line < now.line ∨ k.mark.index + 1024 < now.index then
      if k.required then
        .error ⟨"could not find expected ':'", now, some ("while scanning a simple key", k.mark)⟩
      else .ok none
    else .ok (some k)

/-- The possible keys that are still possible. -/
def dropStaleKeys (s : Scanner) : Except Fault Scanner := do
  let outerKeys ← s.outerKeys.mapM (stillPossible s.mark)
  let key ← stillPossible s.mark s.key
  return { s with key := key, outerKeys := outerKeys }

/-- Here is no key after all. -/
def dropKey (s : Scanner) : Except Fault Scanner :=
  match s.key with
  | some k =>
    if k.required then s.cursor.faultIn "while scanning a simple key" "could not find expected ':'" k.mark
    else .ok { s with key := none }
  | none => .ok s

/-- The next token may be a key. -/
def saveKey (s : Scanner) : Except Fault Scanner :=
  if s.keyAllowed then do
    let s ← s.dropKey
    let required := !s.inFlow && s.columns.head? = some s.mark.column
    return { s with key := some ⟨s.tokens.length, s.mark, required⟩ }
  else .ok s

/-! ## Blocks -/

/-- Blocks deeper than a column end. -/
def endBlocks (deeper : Nat → Bool) (mark : Mark) : List Nat → List Token → List Nat × List Token
  | [], tokens => ([], tokens)
  | column :: rest, tokens =>
    if deeper column then endBlocks deeper mark rest (⟨.blockEnd, mark⟩ :: tokens)
    else (column :: rest, tokens)

/-- The blocks that a new token ends by its column. -/
def closeBlocks (deeper : Nat → Bool) (s : Scanner) : Scanner :=
  if s.inFlow then s
  else
    let (columns, tokens) := endBlocks deeper s.mark s.columns s.tokens
    { s with columns := columns, tokens := tokens }

/-- A block begins at a column, unless it is open there, with a token in front of the one with a
number. -/
def openBlock (column number : Nat) (kind : TokenKind) (mark : Mark) (s : Scanner) : Scanner :=
  if s.inFlow || s.columns.head?.any (column ≤ ·) then s
  else { s.emitAt number kind mark with columns := column :: s.columns }

/-- A block begins here. -/
def openBlockHere (kind : TokenKind) (s : Scanner) : Scanner :=
  s.openBlock s.mark.column s.tokens.length kind s.mark

/-! ## Between tokens -/

/-- Past the mark of an encoding, which may begin a line and takes a column of it. -/
def skipMark (c : Cursor) : Cursor :=
  if c.mark.column = 0 ∧ c.rest.head? = some '\ufeff' then c.skip 1 else c

/-- White space, comments and line breaks.  A tab counts as white space where no key may stand. -/
def skipSpace : Nat → Scanner → Scanner
  | 0, s => s
  | n + 1, s =>
    let tabs := s.inFlow || !s.keyAllowed
    let c := (skipMark s.cursor).skipWhile fun d => d = ' ' || (tabs && d = '\t')
    let c := if c.rest.head? = some '#' then c.takeLine.2 else c
    if startsBreak c.rest then
      skipSpace n
        { s with cursor := c.takeBreak.2, keyAllowed := s.keyAllowed || !s.inFlow }
    else { s with cursor := c }

/-! ## Names and tags -/

def isNameChar (c : Char) : Bool := c.isAlphanum || c = '-' || c = '_'

/-- The characters that may stand behind the name of an anchor. -/
def endsAnchor : List Char → Bool
  | [] => true
  | c :: _ => isBlank c || isBreak c || "?:,]\x7d%@`".toList.contains c

def scanAnchor (kind : String → TokenKind) (context : String) (s : Scanner) :
    Except Fault Scanner :=
  let start := s.mark
  let (name, c) := (s.cursor.skip 1).takeWhile isNameChar
  if name.isEmpty ∨ !endsAnchor c.rest then
    c.faultIn context "did not find expected alphabetic or numeric character"
      start
  else .ok { s.emit (kind (String.ofList name)) start with cursor := c }

def isTagChar (c : Char) : Bool := isNameChar c || ";/?:@&=+$.!~*'()%".toList.contains c

/-- A tag, of which only the handle is kept. -/
def scanTag (s : Scanner) : Except Fault Scanner :=
  let start := s.mark
  let finish (handle : String) (c : Cursor) : Except Fault Scanner :=
    if startsBlank c.rest ∨ (s.inFlow ∧ c.rest.head? = some ',') then
      .ok { s.emit (.tag handle) start with cursor := c }
    else
      c.faultIn "while scanning a tag"
        "did not find expected whitespace or line break" start
  match s.cursor.rest with
  | _ :: '<' :: _ =>
    let (uri, c) := (s.cursor.skip 2).takeWhile fun d => isTagChar d || ",[]".toList.contains d
    if uri.isEmpty then
      c.faultIn "while parsing a tag" "did not find expected tag URI" start
    else if c.rest.head? = some '>' then finish "" (c.skip 1)
    else c.faultIn "while scanning a tag" "did not find the expected '>'" start
  | _ =>
    let (name, c) := (s.cursor.skip 1).takeWhile isNameChar
    if c.rest.head? = some '!' then
      let c := c.skip 1
      let (uri, d) := c.takeWhile isTagChar
      if uri.isEmpty then
        d.faultIn "while parsing a tag" "did not find expected tag URI" start
      else finish (String.ofList ('!' :: name ++ ['!'])) d
    else finish "!" (c.skipWhile isTagChar)

/-! ## Directives -/

/-- A version: two numbers with a point between them. -/
def scanVersion (start : Mark) (c : Cursor) :
    Except Fault (TokenKind × Cursor) :=
  let context := "while scanning a %YAML directive"
  let (major, c) := (c.skipWhile isBlank).takeWhile Char.isDigit
  if major.isEmpty then
    c.faultIn context "did not find expected version number" start
  else if c.rest.head? ≠ some '.' then
    c.faultIn context "did not find expected digit or '.' character" start
  else
    let (minor, c) := (c.skip 1).takeWhile Char.isDigit
    if minor.isEmpty then
      c.faultIn context "did not find expected version number" start
    else if 9 < major.length ∨ 9 < minor.length then
      c.faultIn context "found extremely long version number" start
    else
      let number (digits : List Char) := (String.ofList digits).toNat?.getD 0
      .ok (.version (number major) (number minor), c)

/-- A handle for tags and what it stands for. -/
def scanTagHandle (start : Mark) (c : Cursor) :
    Except Fault (TokenKind × Cursor) :=
  let context := "while scanning a %TAG directive"
  let c := c.skipWhile isBlank
  if c.rest.head? ≠ some '!' then
    c.faultIn context "did not find expected '!'" start
  else
    let (name, c) := (c.skip 1).takeWhile isNameChar
    let closed := c.rest.head? = some '!'
    if !closed ∧ !name.isEmpty then
      c.faultIn "while parsing a tag directive" "did not find expected '!'" start
    else
      let handle := String.ofList ('!' :: name ++ if closed then ['!'] else [])
      let c := if closed then c.skip 1 else c
      if !c.rest.head?.any isBlank then
        c.faultIn context "did not find expected whitespace" start
      else
        let (uri, c) :=
          (c.skipWhile isBlank).takeWhile fun d => isTagChar d || ",[]".toList.contains d
        if uri.isEmpty then
          c.faultIn "while parsing a %TAG directive"
            "did not find expected tag URI" start
        else if !startsBlank c.rest then
          c.faultIn context "did not find expected whitespace or line break"
            start
        else .ok (.tagHandle handle, c)

/-- A directive up to the end of its line. -/
def scanDirective (s : Scanner) : Except Fault Scanner := do
  let start := s.mark
  let context := "while scanning a directive"
  let (name, c) := (s.cursor.skip 1).takeWhile isNameChar
  if name.isEmpty then
    c.faultIn context "could not find expected directive name" start
  else if !startsBlank c.rest then
    c.faultIn context "found unexpected non-alphabetical character" start
  else
    let (kind, c) ←
      match String.ofList name with
      | "YAML" => scanVersion start c
      | "TAG" => scanTagHandle start c
      | _ => c.faultIn context "found unknown directive name" start
    let c := c.skipWhile isBlank
    let c := if c.rest.head? = some '#' then c.takeLine.2 else c
    if c.rest.isEmpty ∨ startsBreak c.rest then
      return { s.emit kind start with cursor := c.takeBreak.2 }
    else
      c.faultIn context "did not find expected comment or line break" start

/-! ## Single tokens -/

/-- The end of the text, which ends every block. -/
def finish (s : Scanner) : Except Fault Scanner := do
  let m := s.mark
  let end_ : Mark := if m.column = 0 then m else ⟨m.index, m.line + 1, 0⟩
  let s := { s with cursor := { s.cursor with mark := end_ } }.closeBlocks fun _ => true
  let s ← s.dropKey
  return s.emit .streamEnd s.mark

def documentMark (kind : TokenKind) (s : Scanner) : Except Fault Scanner := do
  let s ← (s.closeBlocks fun _ => true).dropKey
  return { s with keyAllowed := false }.emitHere kind 3

def directive (s : Scanner) : Except Fault Scanner := do
  let s ← (s.closeBlocks fun _ => true).dropKey
  return ← scanDirective { s with keyAllowed := false }

def flowStart (kind : TokenKind) (s : Scanner) : Except Fault Scanner := do
  let s ← s.saveKey
  return { s with outerKeys := s.key :: s.outerKeys, key := none, keyAllowed := true }.emitHere kind 1

def flowEnd (kind : TokenKind) (s : Scanner) : Except Fault Scanner := do
  let s ← s.dropKey
  let s :=
    match s.outerKeys with
    | [] => s
    | key :: outer => { s with key := key, outerKeys := outer }
  return { s with keyAllowed := false }.emitHere kind 1

def flowEntry (s : Scanner) : Except Fault Scanner := do
  let s ← s.dropKey
  return { s with keyAllowed := true }.emitHere .flowEntry 1

def blockEntry (s : Scanner) : Except Fault Scanner := do
  if !s.inFlow ∧ !s.keyAllowed then
    s.fault "block sequence entries are not allowed in this context"
  else
    let s ← (s.openBlockHere .blockSequenceStart).dropKey
    return { s with keyAllowed := true }.emitHere .blockEntry 1

def explicitKey (s : Scanner) : Except Fault Scanner := do
  if !s.inFlow ∧ !s.keyAllowed then s.fault "mapping keys are not allowed in this context"
  else
    let s ← (s.openBlockHere .blockMappingStart).dropKey
    return { s with keyAllowed := !s.inFlow }.emitHere .key 1

/-- A colon: what may have been a key is one. -/
def mappingValue (s : Scanner) : Except Fault Scanner :=
  match s.key with
  | some k =>
    let s := s.emitAt k.number .key k.mark
    let s := s.openBlock k.mark.column k.number .blockMappingStart k.mark
    .ok ({ s with key := none, keyAllowed := false }.emitHere .value 1)
  | none =>
    if !s.inFlow ∧ !s.keyAllowed then s.fault "mapping values are not allowed in this context"
    else
      let s := s.openBlockHere .blockMappingStart
      .ok ({ s with keyAllowed := !s.inFlow }.emitHere .value 1)

def blockScalar (literal : Bool) (s : Scanner) : Except Fault Scanner := do
  let s ← s.dropKey
  let (text, c) ← scanBlock literal s.columns.head? s.cursor
  return { s.emit (.scalar (String.ofList text) false) s.mark with cursor := c, keyAllowed := true }

def quotedScalar (single : Bool) (s : Scanner) : Except Fault Scanner := do
  let s ← s.saveKey
  let (text, c) ← scanQuoted single s.cursor
  return { s.emit (.scalar (String.ofList text) false) s.mark with cursor := c, keyAllowed := false }

def plainScalar (s : Scanner) : Except Fault Scanner := do
  let s ← s.saveKey
  let least := (s.columns.head?.map (· + 1)).getD 0
  let (text, broken, c) ← scanPlain s.inFlow least s.cursor
  return { s.emit (.scalar (String.ofList text) true) s.mark with cursor := c, keyAllowed := broken }

/-- An anchor, an alias or a tag, any of which may begin a key. -/
def property (scan : Scanner → Except Fault Scanner) (s : Scanner) : Except Fault Scanner := do
  let s ← s.saveKey
  scan { s with keyAllowed := false }

/-- The signs that no plain scalar begins with, if it is not clear from what follows them. -/
def indicators : List Char := "-?:,[]\x7b\x7d#&*!|>'\"%@`".toList

/-- Whether a plain scalar begins with a character that others follow. -/
def startsPlain (inFlow : Bool) (c : Char) (rest : List Char) : Bool :=
  !indicators.contains c || (c = '-' && !rest.head?.any isBlank) ||
    (!inFlow && (c = '?' || c = ':') && !startsBlank rest)

/-- The token of a character and what follows it. -/
def dispatch (s : Scanner) (c : Char) (rest : List Char) : Except Fault Scanner :=
  let loose := s.inFlow || startsBlank rest
  if s.mark.column = 0 ∧ c = '%' then s.directive
  else if s.mark.column = 0 ∧ startsMarker '-' (c :: rest) then s.documentMark .documentStart
  else if s.mark.column = 0 ∧ startsMarker '.' (c :: rest) then s.documentMark .documentEnd
  else if c = '[' then s.flowStart .flowSequenceStart
  else if c = '{' then s.flowStart .flowMappingStart
  else if c = ']' then s.flowEnd .flowSequenceEnd
  else if c = '}' then s.flowEnd .flowMappingEnd
  else if c = ',' then s.flowEntry
  else if c = '-' ∧ startsBlank rest then s.blockEntry
  else if c = '?' ∧ loose then s.explicitKey
  else if c = ':' ∧ loose then s.mappingValue
  else if c = '*' then s.property (scanAnchor .alias "while scanning an alias")
  else if c = '&' then s.property (scanAnchor .anchor "while scanning an anchor")
  else if c = '!' then s.property scanTag
  else if c = '|' ∧ !s.inFlow then s.blockScalar true
  else if c = '>' ∧ !s.inFlow then s.blockScalar false
  else if c = '\'' then s.quotedScalar true
  else if c = '"' then s.quotedScalar false
  else if !isBlank c ∧ startsPlain s.inFlow c rest then s.plainScalar
  else
    s.cursor.faultIn "while scanning for the next token"
      "found character that cannot start any token" s.mark

/-- The tokens from a place on. -/
def run : Nat → Scanner → Except Fault (List Token)
  | 0, s => .ok s.tokens.reverse
  | n + 1, s => do
    let s ← (s.skipSpace (s.cursor.rest.length + 1)).dropStaleKeys
    let s := s.closeBlocks (s.mark.column < ·)
    match s.cursor.rest with
    | [] =>
      let s ← s.finish
      return s.tokens.reverse
    | c :: rest =>
      let s ← s.dispatch c rest
      run n s

end Scanner

def tokens (text : List Char) : Except Fault (List Token) :=
  Scanner.run (text.length + 1) { cursor := { rest := text } }

end Yaml
end CommandSchema
