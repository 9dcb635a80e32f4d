/-
What a plain scalar stands for.

A plain scalar may stand for null, a truth value or a number rather than for a text.  A text that
reads as one of these has to be quoted when it is written.  Digits that begin with a superfluous
zero are no number, but are quoted all the same.
-/

namespace CommandSchema
namespace Yaml

inductive PlainKind where
  | null
  | bool
  | int
  | float
  | text
  deriving DecidableEq, Repr

namespace PlainKind

def nulls : List String := ["", "~", "null", "Null", "NULL"]

def bools : List String := ["true", "True", "TRUE", "false", "False", "FALSE"]

/-- The texts that stand for a number without digits. -/
def specials : List String := [
  ".inf", ".Inf", ".INF", "+.inf", "+.Inf", "+.INF", "-.inf", "-.Inf", "-.INF", ".nan", ".NaN",
  ".NAN"]

def isSign (c : Char) : Bool := c = '+' || c = '-'

def withoutSign : List Char → List Char
  | c :: rest => if isSign c then rest else c :: rest
  | [] => []

/-- The value of a digit, in capital or small letters beyond nine. -/
def digit (c : Char) : Nat :=
  if c.isDigit then c.toNat - '0'.toNat
  else if 'a' ≤ c ∧ c ≤ 'z' then c.toNat - 'a'.toNat + 10
  else if 'A' ≤ c ∧ c ≤ 'Z' then c.toNat - 'A'.toNat + 10
  else 36

/-- The number of some digits in a base, if there are any. -/
def number? (base : Nat) (cs : List Char) : Option Nat :=
  if cs.isEmpty || cs.any (base ≤ digit ·) then none
  else some (cs.foldl (fun n c => n * base + digit c) 0)

/-- Several decimal digits that begin with a zero, behind a sign or not. -/
def isPaddedZero (cs : List Char) : Bool :=
  match withoutSign cs with
  | '0' :: c :: rest => (c :: rest).all Char.isDigit
  | _ => false

/-- The magnitude of an integer without its sign. -/
def magnitude? : List Char → Option Nat
  | '0' :: 'x' :: rest => number? 16 rest
  | '0' :: 'o' :: rest => number? 8 rest
  | '0' :: 'b' :: rest => number? 2 rest
  | cs => if isPaddedZero cs then none else number? 10 cs

/-- Whether a text is an integer of 128 bits. -/
def isInt : List Char → Bool
  | '-' :: rest => (magnitude? rest).any (· ≤ Nat.pow 2 127)
  | '+' :: rest => (magnitude? rest).any (· < Nat.pow 2 128)
  | cs => (magnitude? cs).any (· < Nat.pow 2 128)

/-- The exponent of a decimal number behind its sign. -/
def exponent? : List Char → Option Int
  | [] => some 0
  | c :: rest =>
    if c = 'e' ∨ c = 'E' then
      match rest with
      | '-' :: digits => (number? 10 digits).map fun n => -n
      | '+' :: digits => (number? 10 digits).map fun n => n
      | digits => (number? 10 digits).map fun n => n
    else none

/-- A decimal number with its exponent rounds to a number of 64 bits that is not infinite. -/
def isFinite (digits : List Char) (exponent : Int) : Bool :=
  let digits := digits.dropWhile (· = '0')
  let top := exponent + digits.length
  let value := (number? 10 digits).getD 0
  digits.isEmpty || top ≤ 308 ||
    (top ≤ 309 &&
      value * Nat.pow 10 exponent.toNat <
        (Nat.pow 2 1024 - Nat.pow 2 970) * Nat.pow 10 (-exponent).toNat)

/-- Whether a text without sign is a decimal number that is not infinite. -/
def isDecimal (cs : List Char) : Bool :=
  let whole := cs.takeWhile Char.isDigit
  let behind := cs.dropWhile Char.isDigit
  let (fraction, behind) :=
    match behind with
    | '.' :: rest => (rest.takeWhile Char.isDigit, rest.dropWhile Char.isDigit)
    | _ => ([], behind)
  !(whole ++ fraction).isEmpty &&
    match exponent? behind with
    | none => false
    | some e => isFinite (whole ++ fraction) (e - fraction.length)

def isFloat (cs : List Char) : Bool :=
  specials.contains (String.ofList cs) || (!isPaddedZero cs && isDecimal (withoutSign cs))

/-- What a plain scalar stands for. -/
def ofText (s : String) : PlainKind :=
  if nulls.contains s then .null
  else if bools.contains s then .bool
  else if isInt s.toList then .int
  else if isFloat s.toList then .float
  else .text

end PlainKind
end Yaml
end CommandSchema
