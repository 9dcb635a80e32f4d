/-
The shortest decimal text of a binary floating-point magnitude.

`Binary64.decimal` gives the fewest digits that read back as the magnitude, and among those the
nearest to it.  The reals that round to a magnitude form an interval, whose two ends belong to it
when the mantissa is even.  For one digit, two digits and so on, at most seventeen, the two
neighbours of the magnitude on that decimal grid are tried, and the first grid with a hit wins.

`Binary64.text` writes these digits: plainly from `1e-5` up to `1e16`, with at least one digit
after the point, and with an exponent elsewhere.
-/
import CommandSchema.Binary64.Basic

namespace CommandSchema

/-- The decimal value `digits * 10 ^ exponent`. -/
structure Decimal where
  digits : Nat
  exponent : Int
  deriving DecidableEq, Repr

namespace Decimal

/-- The same value with at most `n` of the zeros at the end of its digits removed. -/
def strip : Nat → Decimal → Decimal
  | 0, d => d
  | n + 1, d =>
    if d.digits ≠ 0 ∧ d.digits % 10 = 0 then strip n ⟨d.digits / 10, d.exponent + 1⟩ else d

end Decimal

namespace Binary64

/-- How many decimal digits a number has; zero has none. -/
def digitCount (n : Nat) : Nat := if n = 0 then 0 else (Nat.toDigits 10 n).length

/-- The exponent of the power of ten at or below a positive quotient. -/
def log10Quotient (num den : Nat) : Int :=
  if den ≤ num then (digitCount (num / den) : Int) - 1
  else -(digitCount ((den + num - 1) / num - 1) : Int)

/-- The distance from a magnitude to the lower end of its interval, in quarter units. -/
def lowerGap (x : Binary64) : Nat :=
  if x.mantissa = Nat.pow 2 52 ∧ -1074 < x.exponent then 1 else 2

/-- The decimal `a * 10 ^ k` rounds to the magnitude. -/
def readsBack (x : Binary64) (a : Nat) (k : Int) : Bool :=
  let e := x.exponent - 2
  let left := a * Nat.pow 10 k.toNat * Nat.pow 2 (-e).toNat
  let unit := Nat.pow 10 (-k).toNat * Nat.pow 2 e.toNat
  let low := (4 * x.mantissa - x.lowerGap) * unit
  let high := (4 * x.mantissa + 2) * unit
  if x.mantissa % 2 = 0 then low ≤ left && left ≤ high else low < left && left < high

/-- The neighbour of the magnitude on the grid `10 ^ k` that reads back and is nearest to it; the
even one of two at the same distance. -/
def onGrid? (x : Binary64) (k : Int) : Option Nat :=
  let num := x.num * Nat.pow 10 (-k).toNat
  let den := x.den * Nat.pow 10 k.toNat
  let a := num / den
  match x.readsBack a k, x.readsBack (a + 1) k with
  | true, true => some (roundDiv num den)
  | true, false => some a
  | false, true => some (a + 1)
  | false, false => none

/-- The first grid with a hit, from the one with `17 - left` digits below the leading one. -/
def firstGrid (x : Binary64) (top : Int) : Nat → Decimal
  | 0 =>
    ⟨roundDiv (x.num * Nat.pow 10 (16 - top).toNat) (x.den * Nat.pow 10 (top - 16).toNat), top - 16⟩
  | left + 1 =>
    let k := top - (16 - left : Nat)
    match x.onGrid? k with
    | some a => ⟨a, k⟩
    | none => firstGrid x top left

/-- The fewest digits that read back as the magnitude. -/
def decimal (x : Binary64) : Decimal :=
  if x.mantissa = 0 then ⟨0, 0⟩
  else (x.firstGrid (log10Quotient x.num x.den) 17).strip 17

def text (x : Binary64) : String :=
  if x.mantissa = 0 then "0.0"
  else
    let d := x.decimal
    let digits := Nat.toDigits 10 d.digits
    let point : Int := digits.length + d.exponent
    if 0 ≤ d.exponent ∧ point ≤ 16 then
      String.ofList (digits ++ List.replicate d.exponent.toNat '0') ++ ".0"
    else if 0 < point ∧ point ≤ 16 then
      String.ofList (digits.take point.toNat) ++ "." ++ String.ofList (digits.drop point.toNat)
    else if -5 < point ∧ point ≤ 0 then
      "0." ++ String.ofList (List.replicate (-point).toNat '0' ++ digits)
    else
      let lead := String.ofList (digits.take 1)
      let tail := digits.drop 1
      let mantissa := if tail.isEmpty then lead else lead ++ "." ++ String.ofList tail
      let e := point - 1
      mantissa ++ "e" ++ (if 0 ≤ e then "+" else "-") ++ toString e.natAbs

end Binary64
end CommandSchema
