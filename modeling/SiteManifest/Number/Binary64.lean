/-!
# Binary64 numbers

Finite IEEE 754 double-precision numbers as exact data: a sign, an exponent field and a fraction
field. Rounding is done on ratios of natural numbers, to nearest; a number read from text takes ties
to even.
-/
namespace SiteManifest.Number

/-- The weight of a significand's leading bit, the 53rd one. -/
abbrev leadingBit : Nat := 0x10000000000000

/-- A finite binary64 number. Both zeros occur; infinities and NaN do not. -/
structure Binary64 where
  negative : Bool
  exponent : Fin 2047
  fraction : Fin leadingBit
  deriving DecidableEq, Repr

namespace Binary64

def zero (negative : Bool) : Binary64 := ⟨negative, 0, 0⟩

/-- The integer `m` of the magnitude `m · 2 ^ scale`. -/
def significand (x : Binary64) : Nat :=
  if x.exponent = 0 then x.fraction else x.fraction + leadingBit

def scale (x : Binary64) : Int := (max x.exponent.val 1 : Nat) - 1075

def isZero (x : Binary64) : Bool := x.exponent == 0 && x.fraction == 0

end Binary64

/-- Where a value half-way between two neighbours goes. -/
inductive Tie where
  | even
  | away
  deriving DecidableEq, Repr

/-- The upper or lower neighbour of a value half-way above `quotient`. -/
def Tie.settle : Tie → Nat → Nat
  | .even, quotient => quotient + quotient % 2
  | .away, quotient => quotient + 1

/-- Quotient rounded to nearest. -/
def roundDiv (tie : Tie) (num den : Nat) : Nat :=
  let quotient := num / den
  let rest := num % den
  if 2 * rest < den then quotient
  else if den < 2 * rest then quotient + 1
  else tie.settle quotient

/-- The ratio `2 ^ e` as numerator and denominator. -/
def twoPow (e : Int) : Nat × Nat := (Nat.pow 2 e.toNat, Nat.pow 2 (-e).toNat)

/-- The ratio `10 ^ e` as numerator and denominator. -/
def tenPow (e : Int) : Nat × Nat := (Nat.pow 10 e.toNat, Nat.pow 10 (-e).toNat)

namespace Binary64

/-- The number `m · 2 ^ e` for a significand of at most 53 bits, where `e` is -1074 or the
significand has 53 bits; `none` above the greatest finite number. -/
def ofScaled (negative : Bool) (m : Nat) (e : Int) : Option Binary64 :=
  if h : m < leadingBit then some ⟨negative, 0, ⟨m, h⟩⟩
  else
    let field := (e + 1075).toNat
    if hf : field < 2047 then
      if hm : m - leadingBit < leadingBit then
        some ⟨negative, ⟨field, hf⟩, ⟨m - leadingBit, hm⟩⟩
      else none
    else none

/-- The number nearest to `num / den`, of two the even one; `none` if it lies beyond the greatest
finite number. -/
def ofRatio (negative : Bool) (num den : Nat) : Option Binary64 :=
  if num = 0 then some (zero negative)
  else
    let floorAt (e : Int) : Nat :=
      let (up, down) := twoPow (-e)
      num * up / (den * down)
    let guess := max ((num.log2 : Int) - den.log2 - 53) (-1074)
    let e := if floorAt guess < 2 * leadingBit then guess else guess + 1
    let (up, down) := twoPow (-e)
    let m := roundDiv .even (num * up) (den * down)
    if m = 2 * leadingBit then ofScaled negative leadingBit (e + 1)
    else ofScaled negative m e

/-- The magnitude as numerator and denominator. -/
def ratio (x : Binary64) : Nat × Nat :=
  let (up, down) := twoPow x.scale
  (x.significand * up, down)

/-- The number nearest to `digits · 10 ^ exponent`. Magnitudes far outside the range are decided
from the number of digits, so the powers of ten stay small. -/
def ofDecimal (negative : Bool) (digits : Nat) (exponent : Int) : Option Binary64 :=
  let width : Int := (Nat.toDigits 10 digits).length
  if digits = 0 || width + exponent < -400 then some (zero negative)
  else if 400 < width + exponent then none
  else
    let (up, down) := tenPow exponent
    ofRatio negative (digits * up) down

/-- The product with the number nearest to `10 ^ k`, rounded. -/
def timesTenPow (x : Binary64) (k : Nat) : Option Binary64 := do
  let power ← ofDecimal false 1 k
  ofRatio x.negative (x.ratio.1 * power.ratio.1) (x.ratio.2 * power.ratio.2)

/-- The quotient by the number nearest to `10 ^ k`, rounded. -/
def overTenPow (x : Binary64) (k : Nat) : Option Binary64 := do
  let power ← ofDecimal false 1 k
  ofRatio x.negative (x.ratio.1 * power.ratio.2) (x.ratio.2 * power.ratio.1)

end Binary64

end SiteManifest.Number
