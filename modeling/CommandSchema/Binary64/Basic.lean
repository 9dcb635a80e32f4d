/-
Finite binary floating-point magnitudes of 64 bits, in exact arithmetic.

A magnitude is `mantissa * 2 ^ exponent` with a mantissa below `2 ^ 53` and an exponent from
`-1074` to `971`.  Every operation computes its exact quotient and rounds it once, to the nearest
magnitude and on a tie to the even mantissa (`ofQuotient?`); it answers `none` beyond the largest
magnitude.

`ofDecimal?` reads `significand * 10 ^ exponent`.  It rounds the significand and then divides or
multiplies by a rounded power of ten, so a literal with many digits may come out one unit beside
the nearest magnitude.

Powers are written `Nat.pow`: the operator means another instance in a module that imports more.
-/

namespace CommandSchema

/-- The magnitude `mantissa * 2 ^ exponent`. -/
structure Binary64 where
  mantissa : Nat
  exponent : Int
  deriving DecidableEq, Repr

namespace Binary64

/-- The integer nearest to a quotient; a half goes to the even neighbour. -/
def roundDiv (num den : Nat) : Nat :=
  let q := num / den
  let r := num % den
  if 2 * r < den then q
  else if den < 2 * r then q + 1
  else q + q % 2

/-- The exponent of the power of two at or below a positive quotient. -/
def log2Quotient (num den : Nat) : Int :=
  let k : Int := (Nat.log2 num : Int) - (Nat.log2 den : Int)
  if den * Nat.pow 2 k.toNat ≤ num * Nat.pow 2 (-k).toNat then k else k - 1

def zero : Binary64 := ⟨0, -1074⟩

/-- The numerator of a magnitude over the denominator `x.den`. -/
def num (x : Binary64) : Nat := x.mantissa * Nat.pow 2 x.exponent.toNat

/-- A power of two. -/
def den (x : Binary64) : Nat := Nat.pow 2 (-x.exponent).toNat

/-- The magnitude nearest to a quotient, or `none` beyond the largest one. -/
def ofQuotient? (num den : Nat) : Option Binary64 :=
  if num = 0 then some zero
  else
    let e := max (-1074) (log2Quotient num den - 52)
    let m := roundDiv (num * Nat.pow 2 (-e).toNat) (den * Nat.pow 2 e.toNat)
    let x : Binary64 := if m = Nat.pow 2 53 then ⟨Nat.pow 2 52, e + 1⟩ else ⟨m, e⟩
    if 971 < x.exponent then none else some x

def mul? (x y : Binary64) : Option Binary64 := ofQuotient? (x.num * y.num) (x.den * y.den)

def div? (x y : Binary64) : Option Binary64 := ofQuotient? (x.num * y.den) (x.den * y.num)

/-- The exponent of the largest power of ten that is a magnitude. -/
def maxPower : Nat := 308

def pow10? (n : Nat) : Option Binary64 := ofQuotient? (Nat.pow 10 n) 1

/-- A magnitude divided `n` times by the largest power of ten. -/
def shrink? : Nat → Binary64 → Option Binary64
  | 0, x => some x
  | n + 1, x =>
    if x.mantissa = 0 then some x
    else ((pow10? maxPower).bind (x.div? ·)).bind (shrink? n)

/-- A magnitude times a power of ten.  The part of a negative power that is out of range is divided
off in steps of the largest power. -/
def scale10? (x : Binary64) (e : Int) : Option Binary64 :=
  if 0 ≤ e then
    if e.toNat ≤ maxPower then (pow10? e.toNat).bind (x.mul? ·)
    else if x.mantissa = 0 then some x
    else none
  else
    let steps := ((-e).toNat - 1) / maxPower
    (shrink? steps x).bind fun y =>
      (pow10? ((-e).toNat - steps * maxPower)).bind (y.div? ·)

/-- The magnitude of a decimal literal, or `none` beyond the largest one. -/
def ofDecimal? (significand : Nat) (exponent : Int) : Option Binary64 :=
  (ofQuotient? significand 1).bind (scale10? · exponent)

end Binary64
end CommandSchema
