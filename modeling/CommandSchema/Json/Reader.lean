/-
Reading JSON.

Every function takes the source that is left and gives back the value with the source that is left
after it.  Reading a value recurses on the brackets that may still open inside it (`maxDepth` at
the root), and the loops over the items of a list, the fields of an object and the characters of a
string on the length of the source, of which every turn takes some.

A number keeps its digits exactly while they fit sixty-four bits.  Beyond that, or with a point or
an exponent, it is a floating-point number, of which further digits only count as zeros.

A source in memory and a stream differ in one point: a stream has looked at the byte behind a
number, and counts it when the number is found at fault.
-/
import CommandSchema.Json.Error
import CommandSchema.Json.Printer

namespace CommandSchema
namespace Json

/-- Where a source comes from. -/
inductive Origin where
  | memory
  | stream
  deriving DecidableEq, Repr

/-- The value at the beginning of a source, and the source behind it. -/
abbrev Reading (α : Type) := Except Fault (α × List Glyph)

/-- The number of brackets that may be open at once. -/
def maxDepth : Nat := 127

namespace Origin

/-- A fault that is noticed with the byte behind the value already seen. -/
def behind (origin : Origin) (cause : Cause) (rest : List Glyph) : Fault :=
  match origin with
  | .memory => .before cause rest
  | .stream => .atNext cause rest

end Origin

/-! ## White space, literals and digits -/

/-- The white space of JSON: the space, the tabulator and the two line ends. -/
def isSpace : Glyph → Bool
  | .char c => c = ' ' || c = '\t' || c = '\n' || c = '\r'
  | .stray _ => false

def skipSpace (source : List Glyph) : List Glyph := source.dropWhile isSpace

/-- The rest of a literal whose first letter has been read. -/
def readLiteral (value : Value) : List Char → List Glyph → Reading Value
  | [], rest => .ok (value, rest)
  | _ :: _, [] => .error (.before .endInValue [])
  | c :: cs, g :: rest =>
    if g = .char c then readLiteral value cs rest else .error (.atNext .expectedIdent (g :: rest))

def digit? : Glyph → Option Nat
  | .char c => if '0' ≤ c ∧ c ≤ '9' then some (c.toNat - 48) else none
  | .stray _ => none

def hexDigit? : Glyph → Option Nat
  | .char c =>
    if '0' ≤ c ∧ c ≤ '9' then some (c.toNat - 48)
    else if 'a' ≤ c ∧ c ≤ 'f' then some (c.toNat - 87)
    else if 'A' ≤ c ∧ c ≤ 'F' then some (c.toNat - 55)
    else none
  | .stray _ => none

/-! ## Numbers -/

/-- Digits that have been read: their number, how many, and whether a further one did not fit. -/
structure Digits where
  value : Nat
  count : Nat
  full : Bool
  rest : List Glyph

/-- The digits at the beginning of a source, appended to `value` while it stays below the limit. -/
def readDigits (limit : Nat) (value count : Nat) : List Glyph → Digits
  | [] => ⟨value, count, false, []⟩
  | g :: rest =>
    match digit? g with
    | none => ⟨value, count, false, g :: rest⟩
    | some d =>
      if value * 10 + d < limit then readDigits limit (value * 10 + d) (count + 1) rest
      else ⟨value, count, true, g :: rest⟩

/-- The source behind its leading digits, and how many there were. -/
def skipDigits : Nat → List Glyph → Nat × List Glyph
  | count, [] => (count, [])
  | count, g :: rest =>
    if (digit? g).isSome then skipDigits (count + 1) rest else (count, g :: rest)

/-- The floating-point number `significand * 10 ^ exponent`. -/
def realNumber (origin : Origin) (negative : Bool) (significand : Nat) (exponent : Int)
    (rest : List Glyph) : Reading Number :=
  match Binary64.ofDecimal? significand exponent with
  | some x => .ok (.real negative x, rest)
  | none => .error (origin.behind .numberOutOfRange rest)

/-- The largest exponent that is read digit by digit. -/
def exponentLimit : Nat := 2147483648

/-- The number whose exponent begins behind its letter. -/
def readExponent (origin : Origin) (negative : Bool) (significand : Nat) (scale : Int)
    (source : List Glyph) : Reading Number :=
  let (below, unsigned) :=
    match source with
    | .char '+' :: rest => (false, rest)
    | .char '-' :: rest => (true, rest)
    | rest => (false, rest)
  match unsigned with
  | [] => .error (.before .endInValue [])
  | g :: _ =>
    if (digit? g).isNone then .error (.atNext .invalidNumber unsigned)
    else
      let e := readDigits exponentLimit 0 0 unsigned
      if e.full then
        if significand ≠ 0 ∧ below = false then
          .error (.before .numberOutOfRange (e.rest.drop 1))
        else .ok (.real negative Binary64.zero, (skipDigits 0 e.rest).2)
      else
        realNumber origin negative significand (if below then scale - e.value else scale + e.value)
          e.rest

/-- The number of a significand and the exponent that may follow it. -/
def readScaled (origin : Origin) (negative : Bool) (significand : Nat) (scale : Int)
    (source : List Glyph) : Reading Number :=
  match source with
  | .char 'e' :: rest => readExponent origin negative significand scale rest
  | .char 'E' :: rest => readExponent origin negative significand scale rest
  | rest => realNumber origin negative significand scale rest

/-- Integers are kept below this bound digit by digit. -/
def wordLimit : Nat := 18446744073709551616

/-- The number whose fraction begins behind its point. -/
def readFraction (origin : Origin) (negative : Bool) (significand : Nat) (scale : Int)
    (source : List Glyph) : Reading Number :=
  let f := readDigits wordLimit significand 0 source
  if f.full then
    readScaled origin negative f.value (scale - f.count) (skipDigits 0 f.rest).2
  else if f.count = 0 then
    match f.rest with
    | [] => .error (.before .endInValue [])
    | rest => .error (.atNext .invalidNumber rest)
  else readScaled origin negative f.value (scale - f.count) f.rest

/-- The number of an integer literal of sixty-four bits. -/
def wholeNumber (origin : Origin) (negative : Bool) (n : Nat) (rest : List Glyph) :
    Reading Number :=
  if negative = false then
    if h : n < 18446744073709551616 then .ok (.integer n (by omega), rest)
    else realNumber origin negative n 0 rest
  else if h : 0 < n ∧ n ≤ 9223372036854775808 then .ok (.integer (-n) (by omega), rest)
  else realNumber origin negative n 0 rest

/-- The number whose integer digits have been read. -/
def readTail (origin : Origin) (negative : Bool) (n : Nat) (source : List Glyph) :
    Reading Number :=
  match source with
  | .char '.' :: rest => readFraction origin negative n 0 rest
  | .char 'e' :: rest => readExponent origin negative n 0 rest
  | .char 'E' :: rest => readExponent origin negative n 0 rest
  | rest => wholeNumber origin negative n rest

/-- A number with more integer digits than fit: the others count as zeros. -/
def readLong (origin : Origin) (negative : Bool) (n : Nat) (source : List Glyph) :
    Reading Number :=
  let (count, rest) := skipDigits 0 source
  match rest with
  | .char '.' :: fraction => readFraction origin negative n count fraction
  | rest => readScaled origin negative n count rest

def readNumber (origin : Origin) (negative : Bool) (source : List Glyph) : Reading Number :=
  match source with
  | [] => .error (.before .endInValue [])
  | .char '0' :: rest =>
    match rest with
    | g :: _ =>
      if (digit? g).isSome then .error (.atNext .invalidNumber rest)
      else readTail origin negative 0 rest
    | [] => readTail origin negative 0 []
  | g :: _ =>
    if (digit? g).isNone then .error (.atNext .invalidNumber source)
    else
      let n := readDigits wordLimit 0 0 source
      if n.full then readLong origin negative n.value n.rest
      else readTail origin negative n.value n.rest

/-! ## Strings -/

def readHex (source : List Glyph) : Reading Nat :=
  match source with
  | a :: b :: c :: d :: rest =>
    match hexDigit? a, hexDigit? b, hexDigit? c, hexDigit? d with
    | some a, some b, some c, some d => .ok (((a * 16 + b) * 16 + c) * 16 + d, rest)
    | _, _, _, _ => .error ⟨.invalidEscape, Glyph.widths source - 4⟩
  | _ =>
    if Glyph.widths source < 4 then .error (.before .endInString [])
    else .error ⟨.invalidEscape, Glyph.widths source - 4⟩

def isHighSurrogate (n : Nat) : Bool := 0xD800 ≤ n && n ≤ 0xDBFF

def isLowSurrogate (n : Nat) : Bool := 0xDC00 ≤ n && n ≤ 0xDFFF

/-- The second half of a character beyond the basic plane. -/
def readLowSurrogate (high : Nat) (source : List Glyph) : Reading Char :=
  match source with
  | [] => .error (.before .endInString [])
  | .char '\\' :: rest =>
    match rest with
    | [] => .error (.before .endInString [])
    | .char 'u' :: rest =>
      match readHex rest with
      | .error fault => .error fault
      | .ok (low, rest) =>
        if isLowSurrogate low then
          .ok (Char.ofNat (0x10000 + (high - 0xD800) * 0x400 + (low - 0xDC00)), rest)
        else .error (.before .loneSurrogate rest)
    | rest => .error (.atNext .endOfHexEscape rest)
  | rest => .error (.atNext .endOfHexEscape rest)

/-- The character of an escape, behind its backslash. -/
def readEscape (source : List Glyph) : Reading Char :=
  match source with
  | [] => .error (.before .endInString [])
  | .char '"' :: rest => .ok ('"', rest)
  | .char '\\' :: rest => .ok ('\\', rest)
  | .char '/' :: rest => .ok ('/', rest)
  | .char 'b' :: rest => .ok ('\x08', rest)
  | .char 'f' :: rest => .ok ('\x0c', rest)
  | .char 'n' :: rest => .ok ('\n', rest)
  | .char 'r' :: rest => .ok ('\r', rest)
  | .char 't' :: rest => .ok ('\t', rest)
  | .char 'u' :: rest =>
    match readHex rest with
    | .error fault => .error fault
    | .ok (n, rest) =>
      if isLowSurrogate n then .error (.before .loneSurrogate rest)
      else if isHighSurrogate n then readLowSurrogate n rest
      else .ok (Char.ofNat n, rest)
  | _ => .error (.atNext .invalidEscape source)

/-- The characters of a string up to its closing quote.  A stray byte is noticed in front of it. -/
def readChars : Nat → Bool → List Glyph → Reading (List Char)
  | 0, _, _ => .error (.before .endInString [])
  | _ + 1, _, [] => .error (.before .endInString [])
  | n + 1, stray, g :: rest =>
    if g = .char '"' then
      if stray then .error (.before .strayByte (g :: rest)) else .ok ([], rest)
    else if g = .char '\\' then
      match readEscape rest with
      | .error fault => .error fault
      | .ok (c, rest) => (readChars n stray rest).map fun (cs, rest) => (c :: cs, rest)
    else
      match g with
      | .stray _ => readChars n true rest
      | .char c =>
        if c.toNat < 0x20 then .error (.atNext .controlCharacter (g :: rest))
        else (readChars n stray rest).map fun (cs, rest) => (c :: cs, rest)

/-- The string behind its opening quote. -/
def readString (source : List Glyph) : Reading String :=
  (readChars (source.length + 1) false source).map fun (cs, rest) => (String.ofList cs, rest)

/-! ## Values -/

/-- The value at the beginning of a source, if it is neither a list nor an object. -/
def readScalar (origin : Origin) (source : List Glyph) : Reading Value :=
  match source with
  | [] => .error (.before .endInValue [])
  | .char 'n' :: rest => readLiteral .null ['u', 'l', 'l'] rest
  | .char 't' :: rest => readLiteral (.bool true) ['r', 'u', 'e'] rest
  | .char 'f' :: rest => readLiteral (.bool false) ['a', 'l', 's', 'e'] rest
  | .char '"' :: rest => (readString rest).map fun (s, rest) => (.string s, rest)
  | .char '-' :: rest => (readNumber origin true rest).map fun (n, rest) => (.number n, rest)
  | g :: _ =>
    if (digit? g).isSome then
      (readNumber origin false source).map fun (n, rest) => (.number n, rest)
    else .error (.atNext .expectedValue source)

/-- The items of a list from its first or from the comma in front of its next one, up to the
closing bracket. -/
def readItems (value : List Glyph → Reading Value) :
    Nat → Bool → List Glyph → Reading (List Value)
  | 0, _, _ => .error (.before .endInList [])
  | n + 1, first, source =>
    match skipSpace source with
    | [] => .error (.before .endInList [])
    | .char ']' :: rest => .ok ([], rest)
    | g :: rest =>
      let item : Except Fault (List Glyph) :=
        if first then .ok (g :: rest)
        else if g = .char ',' then
          match skipSpace rest with
          | [] => .error (.before .endInValue [])
          | .char ']' :: rest => .error (.atNext .trailingComma (.char ']' :: rest))
          | rest => .ok rest
        else .error (.atNext .expectedCommaOrBracket (g :: rest))
      match item with
      | .error fault => .error fault
      | .ok source =>
        match value source with
        | .error fault => .error fault
        | .ok (v, rest) => (readItems value n false rest).map fun (vs, rest) => (v :: vs, rest)

/-- The value of a field, from the colon behind its key. -/
def readFieldValue (value : List Glyph → Reading Value) (source : List Glyph) : Reading Value :=
  match skipSpace source with
  | [] => .error (.before .endInObject [])
  | .char ':' :: rest => value rest
  | rest => .error (.atNext .expectedColon rest)

/-- The fields of an object from its first or from the comma in front of its next one, up to the
closing brace, in the order of the source and with its repetitions. -/
def readFields (value : List Glyph → Reading Value) :
    Nat → Bool → List Glyph → Reading (List (String × Value))
  | 0, _, _ => .error (.before .endInObject [])
  | n + 1, first, source =>
    match skipSpace source with
    | [] => .error (.before .endInObject [])
    | .char '}' :: rest => .ok ([], rest)
    | g :: rest =>
      let key : Except Fault (List Glyph) :=
        if first then
          if g = .char '"' then .ok rest else .error (.atNext .keyNotString (g :: rest))
        else if g = .char ',' then
          match skipSpace rest with
          | [] => .error (.before .endInValue [])
          | .char '"' :: rest => .ok rest
          | .char '}' :: rest => .error (.atNext .trailingComma (.char '}' :: rest))
          | rest => .error (.atNext .keyNotString rest)
        else .error (.atNext .expectedCommaOrBrace (g :: rest))
      match key with
      | .error fault => .error fault
      | .ok source =>
        match readString source with
        | .error fault => .error fault
        | .ok (k, rest) =>
          match readFieldValue value rest with
          | .error fault => .error fault
          | .ok (v, rest) =>
            (readFields value n false rest).map fun (fields, rest) => ((k, v) :: fields, rest)

/-- The value at the beginning of a source, inside of which as many brackets may open as the depth
says. -/
def readValue (origin : Origin) : Nat → List Glyph → Reading Value
  | depth, source =>
    match skipSpace source with
    | .char '[' :: rest =>
      match depth with
      | 0 => .error (.atNext .tooDeep (.char '[' :: rest))
      | depth + 1 =>
        (readItems (readValue origin depth) (rest.length + 1) true rest).map
          fun (items, rest) => (.array items, rest)
    | .char '{' :: rest =>
      match depth with
      | 0 => .error (.atNext .tooDeep (.char '{' :: rest))
      | depth + 1 =>
        (readFields (readValue origin depth) (rest.length + 1) true rest).map
          fun (fields, rest) => (.ofFields fields, rest)
    | source => readScalar origin source

/-- What a reading of a whole source gives, provided that nothing but white space is left. -/
def complete {α : Type} (source : List Glyph) (reading : Reading α) : Except Error α :=
  match reading with
  | .error fault => .error (fault.locate source)
  | .ok (value, rest) =>
    match skipSpace rest with
    | [] => .ok value
    | rest => .error ((Fault.atNext .trailingCharacters rest).locate source)

namespace Value

def parse (s : String) : Except Error Value :=
  let source := Glyph.ofText s
  complete source (readValue .memory maxDepth source)

end Value

/-! ## Objects with their order and repetitions -/

/-- The entries of the object that a source consists of, in its order and with its repetitions.  A
root of another kind is a fault in front of a list of memory and behind any other value. -/
def readEntries (origin : Origin) (expected : String) (source : List Glyph) :
    Reading (List (String × Value)) :=
  match skipSpace source with
  | .char '{' :: rest => readFields (readValue origin (maxDepth - 1)) (rest.length + 1) true rest
  | .char '[' :: rest =>
    .error (origin.behind (.wrongRoot "sequence" expected) (.char '[' :: rest))
  | source =>
    match readScalar origin source with
    | .error fault => .error fault
    | .ok (v, rest) =>
      match v with
      | .number _ => .error (origin.behind (.wrongRoot v.found expected) rest)
      | _ => .error (.before (.wrongRoot v.found expected) rest)

/-- The entries of the object that a source consists of. -/
def entries (origin : Origin) (expected : String) (source : List Glyph) :
    Except Error (List (String × Value)) :=
  complete source (readEntries origin expected source)

end Json
end CommandSchema
