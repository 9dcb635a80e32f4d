/-
YAML documents as trees.

A node is a scalar, of which only its text and whether it is plain are kept, a sequence or a
mapping.  Tags say nothing here, and an alias stands for a copy of its node.  A text has one
document, or none if nothing but comments stands in it.
-/
import CommandSchema.Text.Glyph
import CommandSchema.Yaml.Token

namespace CommandSchema
namespace Yaml

inductive Node where
  | scalar (mark : Mark) (text : String) (isPlain : Bool)
  | sequence (mark : Mark) (items : List Node)
  | mapping (mark : Mark) (entries : List (Node × Node))

namespace Node

def mark : Node → Mark
  | .scalar m .. => m
  | .sequence m _ => m
  | .mapping m _ => m

def empty (m : Mark) : Node := .scalar m "" true

end Node

/-- What is left of the tokens, the place behind them, and the nodes with an anchor. -/
structure Parser where
  tokens : List Token
  finish : Mark
  handles : List String := []
  anchors : List (String × Node) := []

/-- A reading of tokens. -/
abbrev Parse (α : Type) := Parser → Except Fault (α × Parser)

namespace Parser

def peek (p : Parser) : Token := p.tokens.headD ⟨.streamEnd, p.finish⟩

def next (p : Parser) : Parser := { p with tokens := p.tokens.drop 1 }

/-- The parser behind the next token, if that is of a kind. -/
def accept (p : Parser) (kind : TokenKind) : Option Parser :=
  if p.peek.kind = kind then some p.next else none

def isNext (p : Parser) (kinds : List TokenKind) : Bool := kinds.contains p.peek.kind

def fault {α : Type} (p : Parser) (context problem : String) (start : Mark) : Except Fault α :=
  .error ⟨problem, p.peek.mark, some (context, start)⟩

/-- The anchor and the tag of a node, in any order, each at most once. -/
def properties : Nat → Option String → Option String → Parser → Option String × Option String × Parser
  | 0, anchor, tag, p => (anchor, tag, p)
  | n + 1, anchor, tag, p =>
    match p.peek.kind, anchor, tag with
    | .anchor name, none, _ => properties n (some name) tag p.next
    | .tag handle, _, none => properties n anchor (some handle) p.next
    | _, _, _ => (anchor, tag, p)

/-- The node with its anchor noted. -/
def note (anchor : Option String) (node : Node) (p : Parser) : Node × Parser :=
  match anchor with
  | none => (node, p)
  | some name => (node, { p with anchors := (name, node) :: p.anchors })

/-- Whether a handle stands for something. -/
def knowsHandle (p : Parser) (handle : String) : Bool :=
  handle = "" || handle = "!" || handle = "!!" || p.handles.contains handle

end Parser

/-! ## Collections

A node is read in a block or in a flow collection.  In a block mapping, a sequence may stand at the
column of its key; its entries are then the next tokens. -/

mutual

def node (isBlock entriesHere : Bool) : Nat → Parse Node
  | 0, p => p.fault "while parsing a node" "did not find expected node content" p.peek.mark
  | n + 1, p =>
    let start := p.peek.mark
    match p.peek.kind with
    | .alias name =>
      match p.anchors.lookup name with
      | some found => .ok (found, p.next)
      | none => .error ⟨"unknown anchor", start, none⟩
    | _ =>
      let (anchor, tag, p) := Parser.properties 2 none none p
      if !(tag.all p.knowsHandle) then
        .error ⟨"found undefined tag handle", start, some ("while parsing a node", start)⟩
      else
        match content isBlock entriesHere (anchor.isSome || tag.isSome) start n p with
        | .error fault => .error fault
        | .ok (found, p) => .ok (p.note anchor found)

/-- A node behind its properties. -/
def content (isBlock entriesHere hasProperties : Bool) (start : Mark) : Nat → Parse Node
  | 0, p => p.fault "while parsing a node" "did not find expected node content" start
  | n + 1, p =>
    match p.peek.kind with
    | .blockEntry =>
      if entriesHere then (indentless n p).map fun (items, p) => (.sequence start items, p)
      else missing isBlock hasProperties start p
    | .scalar text isPlain => .ok (.scalar start text isPlain, p.next)
    | .flowSequenceStart =>
      (flowSequence p.peek.mark true n p.next).map fun (items, p) => (.sequence start items, p)
    | .flowMappingStart =>
      (flowMapping p.peek.mark true n p.next).map fun (entries, p) => (.mapping start entries, p)
    | .blockSequenceStart =>
      if isBlock then
        (blockSequence p.peek.mark n p.next).map fun (items, p) => (.sequence start items, p)
      else missing isBlock hasProperties start p
    | .blockMappingStart =>
      if isBlock then
        (blockMapping p.peek.mark n p.next).map fun (entries, p) => (.mapping start entries, p)
      else missing isBlock hasProperties start p
    | _ => missing isBlock hasProperties start p

/-- A node that is not written, which properties may stand for. -/
def missing (isBlock hasProperties : Bool) (start : Mark) : Parse Node
  | p =>
    if hasProperties then .ok (Node.empty start, p)
    else
      p.fault (if isBlock then "while parsing a block node" else "while parsing a flow node")
        "did not find expected node content" start

/-- The entries of a sequence at the column of its key. -/
def indentless : Nat → Parse (List Node)
  | 0, p => p.fault "while parsing a block collection" "did not find expected '-' indicator" p.peek.mark
  | n + 1, p =>
    match p.accept .blockEntry with
    | none => .ok ([], p)
    | some q =>
      let item : Except Fault (Node × Parser) :=
        if q.isNext [.blockEntry, .key, .value, .blockEnd] then .ok (Node.empty q.peek.mark, q)
        else node true false n q
      match item with
      | .error fault => .error fault
      | .ok (found, p) => (indentless n p).map fun (items, p) => (found :: items, p)

/-- The entries of a sequence in a block of its own. -/
def blockSequence (start : Mark) : Nat → Parse (List Node)
  | 0, p => p.fault "while parsing a block collection" "did not find expected '-' indicator" start
  | n + 1, p =>
    match p.accept .blockEntry, p.accept .blockEnd with
    | some q, _ =>
      let item : Except Fault (Node × Parser) :=
        if q.isNext [.blockEntry, .blockEnd] then .ok (Node.empty q.peek.mark, q)
        else node true false n q
      match item with
      | .error fault => .error fault
      | .ok (found, p) => (blockSequence start n p).map fun (items, p) => (found :: items, p)
    | none, some q => .ok ([], q)
    | none, none =>
      p.fault "while parsing a block collection" "did not find expected '-' indicator" start

/-- A key or a value of a block mapping behind its sign. -/
def blockPart : Nat → Parse Node
  | 0, p => p.fault "while parsing a block mapping" "did not find expected key" p.peek.mark
  | n + 1, p =>
    if p.isNext [.key, .value, .blockEnd] then .ok (Node.empty p.peek.mark, p)
    else node true true n p

/-- The entries of a block mapping. -/
def blockMapping (start : Mark) : Nat → Parse (List (Node × Node))
  | 0, p => p.fault "while parsing a block mapping" "did not find expected key" start
  | n + 1, p =>
    if p.isNext [.key, .value] then
      let key : Except Fault (Node × Parser) :=
        match p.accept .key with
        | some q => blockPart n q
        | none => .ok (Node.empty p.peek.mark, p)
      match key with
      | .error fault => .error fault
      | .ok (k, p) =>
        let value : Except Fault (Node × Parser) :=
          match p.accept .value with
          | some q => blockPart n q
          | none => .ok (Node.empty p.peek.mark, p)
        match value with
        | .error fault => .error fault
        | .ok (v, p) => (blockMapping start n p).map fun (entries, p) => ((k, v) :: entries, p)
    else
      match p.accept .blockEnd with
      | some q => .ok ([], q)
      | none => p.fault "while parsing a block mapping" "did not find expected key" start

/-- A key or a value in a flow collection behind its sign, up to one of some tokens. -/
def flowPart (ends : List TokenKind) : Nat → Parse Node
  | 0, p => p.fault "while parsing a flow node" "did not find expected node content" p.peek.mark
  | n + 1, p =>
    if p.isNext ends then .ok (Node.empty p.peek.mark, p) else node false false n p

/-- The value behind a key in a flow collection, if there is one. -/
def flowValue (close : TokenKind) : Nat → Parse Node
  | 0, p => p.fault "while parsing a flow node" "did not find expected node content" p.peek.mark
  | n + 1, p =>
    match p.accept .value with
    | some q => flowPart [.flowEntry, close] n q
    | none => .ok (Node.empty p.peek.mark, p)

/-- The items of a flow sequence from an item or its end on. -/
def flowSequence (start : Mark) (isFirst : Bool) : Nat → Parse (List Node)
  | 0, p => p.fault "while parsing a flow sequence" "did not find expected ',' or ']'" start
  | n + 1, p =>
    match p.accept .flowSequenceEnd with
    | some q => .ok ([], q)
    | none =>
      match if isFirst then some p else p.accept .flowEntry with
      | none => p.fault "while parsing a flow sequence" "did not find expected ',' or ']'" start
      | some p =>
        match p.accept .flowSequenceEnd with
        | some q => .ok ([], q)
        | none =>
          match flowItem n p with
          | .error fault => .error fault
          | .ok (item, p) =>
            (flowSequence start false n p).map fun (items, p) => (item :: items, p)

/-- An item of a flow sequence, which may be a mapping of one entry without braces. -/
def flowItem : Nat → Parse Node
  | 0, p => p.fault "while parsing a flow node" "did not find expected node content" p.peek.mark
  | n + 1, p =>
    let start := p.peek.mark
    match p.accept .key with
    | none => node false false n p
    | some q =>
      match flowPart [.value, .flowEntry, .flowSequenceEnd] n q with
      | .error fault => .error fault
      | .ok (k, p) =>
        (flowValue .flowSequenceEnd n p).map fun (v, p) => (.mapping start [(k, v)], p)

/-- The entries of a flow mapping from an entry or its end on. -/
def flowMapping (start : Mark) (isFirst : Bool) : Nat → Parse (List (Node × Node))
  | 0, p => p.fault "while parsing a flow mapping" "did not find expected ',' or '\x7d'" start
  | n + 1, p =>
    match p.accept .flowMappingEnd with
    | some q => .ok ([], q)
    | none =>
      match if isFirst then some p else p.accept .flowEntry with
      | none => p.fault "while parsing a flow mapping" "did not find expected ',' or '\x7d'" start
      | some p =>
        match p.accept .flowMappingEnd with
        | some q => .ok ([], q)
        | none =>
          let key : Except Fault (Node × Parser) :=
            match p.accept .key with
            | some q => flowPart [.value, .flowEntry, .flowMappingEnd] n q
            | none => node false false n p
          match key with
          | .error fault => .error fault
          | .ok (k, p) =>
            match flowValue .flowMappingEnd n p with
            | .error fault => .error fault
            | .ok (v, p) =>
              (flowMapping start false n p).map fun (entries, p) => ((k, v) :: entries, p)

end

/-! ## Documents -/

/-- The directives in front of a document, and whether there are any. -/
def directives : Nat → Bool → Parser → Except Fault (Bool × Parser)
  | 0, versioned, p => .ok (versioned, p)
  | n + 1, versioned, p =>
    match p.peek.kind with
    | .version major minor =>
      if versioned then .error ⟨"found duplicate %YAML directive", p.peek.mark, none⟩
      else if major ≠ 1 ∨ (minor ≠ 1 ∧ minor ≠ 2) then
        .error ⟨"found incompatible YAML document", p.peek.mark, none⟩
      else directives n true p.next
    | .tagHandle handle =>
      if p.handles.contains handle then
        .error ⟨"found duplicate %TAG directive", p.peek.mark, none⟩
      else directives n versioned { p.next with handles := handle :: p.handles }
    | _ => .ok (versioned, p)

/-- Past the marks that end a document. -/
def skipEnds : List Token → List Token
  | [] => []
  | t :: rest => if t.kind = .documentEnd then skipEnds rest else t :: rest

/-- The root of a document behind its beginning. -/
def root (p : Parser) : Except Fault (Node × Parser) :=
  match p.peek.kind with
  | .version .. | .tagHandle _ | .documentStart | .documentEnd | .streamEnd =>
    .ok (Node.empty p.peek.mark, p)
  | _ => node true false (4 * p.tokens.length + 8) p

/-- Nothing but the end of the text may follow the only document. -/
def complete (p : Parser) : Except Fault Unit :=
  let p := { p with tokens := skipEnds p.tokens }
  if p.peek.kind = .streamEnd then .ok ()
  else
    .error ⟨"deserializing from YAML containing more than one document is not supported", {}, none⟩

/-- The document of some tokens, if there is one. -/
def document (p : Parser) : Except Fault (Option Node) :=
  match p.peek.kind with
  | .streamEnd => .ok none
  | .version .. | .tagHandle _ | .documentStart =>
    match directives p.tokens.length false p with
    | .error fault => .error fault
    | .ok (_, p) =>
      match p.accept .documentStart with
      | none => .error ⟨"did not find expected <document start>", p.peek.mark, none⟩
      | some p =>
        match root p with
        | .error fault => .error fault
        | .ok (found, p) => (complete p).map fun () => some found
  | _ =>
    match node true false (4 * p.tokens.length + 8) p with
    | .error fault => .error fault
    | .ok (found, p) => (complete p).map fun () => some found

/-! ## Texts -/

/-- The characters that a text may have. -/
def isReadable (c : Char) : Bool :=
  let n := c.toNat
  n = 9 || n = 10 || n = 13 || (0x20 ≤ n && n ≤ 0x7E) || n = 0x85 || (0xA0 ≤ n && n ≤ 0xFFFD) ||
    0x10000 ≤ n

/-- The characters of a file, or what is wrong with one at the number of bytes in front of it. -/
def readable (offset : Nat) : List Glyph → Except Fault (List Char)
  | [] => .ok []
  | .stray _ :: _ => .error ⟨s!"invalid leading UTF-8 octet at position {offset}", {}, none⟩
  | .char c :: rest =>
    if isReadable c then (readable (offset + c.utf8Size) rest).map (c :: ·)
    else .error ⟨s!"control characters are not allowed at position {offset}", {}, none⟩

/-- The document of the contents of a file, if there is one. -/
def Node.ofGlyphs (source : List Glyph) : Except Fault (Option Node) := do
  let text ← readable 0 source
  let found ← tokens text
  document { tokens := found, finish := (found.getLast?.map Token.mark).getD {} }

end Yaml
end CommandSchema
