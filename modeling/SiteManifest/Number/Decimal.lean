import SiteManifest.Number.Binary64

/-!
# Decimal text of binary64 numbers

The shortest decimal that reads back as a given number, the nearest one among those of that length,
and its layout: which decimal exponents are written out in full and which with an exponent mark, and
which of two equally near decimals is written.
-/
namespace SiteManifest.Number

/-- The value `digits · 10 ^ exponent`. -/
structure Decimal where
  digits : Nat
  exponent : Int
  deriving DecidableEq, Repr

/-- The reals that round to one number: all over the same ratio `unit`, with the number itself at
`center` and the ends included if its significand is even. -/
structure Rounding where
  low : Nat
  center : Nat
  high : Nat
  unit : Nat × Nat
  closed : Bool

/-- Neighbours are at equal distance, except below a power of two, where the lower one is nearer. -/
def Binary64.rounding (x : Binary64) : Rounding where
  low := 4 * x.significand - (if x.fraction.val = 0 && 1 < x.exponent.val then 1 else 2)
  center := 4 * x.significand
  high := 4 * x.significand + 2
  unit := twoPow (x.scale - 2)
  closed := x.significand % 2 == 0

namespace Rounding

/-- The number of digits before the point, negative for leading zeros after it. -/
def magnitude (r : Rounding) : Int :=
  let num := r.center * r.unit.1
  let den := r.unit.2
  if den ≤ num then (Nat.toDigits 10 (num / den)).length
  else
    let zeros : Int := (Nat.toDigits 10 (den / num)).length - 1
    if num * Nat.pow 10 zeros.toNat = den then 1 - zeros else -zeros

/-- Whether `digits · 10 ^ exponent` rounds to the number. -/
def holds (r : Rounding) (d : Decimal) : Bool :=
  let grid := tenPow d.exponent
  let point := d.digits * grid.1 * r.unit.2
  let low := r.low * r.unit.1 * grid.2
  let high := r.high * r.unit.1 * grid.2
  (low < point && point < high) || (r.closed && (low == point || high == point))

/-- The multiple of `10 ^ exponent` nearest to the number. -/
def nearest (r : Rounding) (tie : Tie) (exponent : Int) : Decimal :=
  let grid := tenPow exponent
  ⟨roundDiv tie (r.center * r.unit.1 * grid.2) (grid.1 * r.unit.2), exponent⟩

/-- A multiple of `10 ^ exponent` that rounds to the number, the nearer one if two do. -/
def hit? (r : Rounding) (tie : Tie) (exponent : Int) : Option Decimal :=
  let grid := tenPow exponent
  let below : Decimal := ⟨r.center * r.unit.1 * grid.2 / (grid.1 * r.unit.2), exponent⟩
  let above : Decimal := ⟨below.digits + 1, exponent⟩
  match r.holds below, r.holds above with
  | true, true => some (r.nearest tie exponent)
  | true, false => some below
  | false, true => some above
  | false, false => none

/-- Tries grids from coarse to fine; the last one takes the nearest multiple. -/
def search (r : Rounding) (tie : Tie) : Nat → Int → Decimal
  | 0, exponent => r.nearest tie exponent
  | n + 1, exponent =>
    match r.hit? tie exponent with
    | some d => d
    | none => r.search tie n (exponent - 1)

end Rounding

/-- The shortest decimal that reads back. Seventeen digits are always enough. -/
def Binary64.shortest (x : Binary64) (tie : Tie) : Decimal :=
  if x.isZero then ⟨0, 0⟩ else x.rounding.search tie 16 (x.rounding.magnitude - 1)

/-- Which decimal exponents, counted at the first digit, are written without an exponent mark, and
which of two equally near decimals is taken. -/
structure Layout where
  least : Option Int
  greatest : Option Int
  tie : Tie

def Layout.isPositional (layout : Layout) (e : Int) : Bool :=
  layout.least.all (· ≤ e) && layout.greatest.all (e ≤ ·)

/-- Digits with the point after the first `places` of them, at least one digit on either side. -/
def positional (digits : List Char) (places : Int) : List Char :=
  if 0 < places then
    let whole := digits.take places.toNat
    let rest := digits.drop places.toNat
    whole ++ List.replicate (places.toNat - digits.length) '0' ++
      '.' :: (if rest.isEmpty then ['0'] else rest)
  else '0' :: '.' :: List.replicate (-places).toNat '0' ++ digits

/-- One digit before the point and a signed exponent. -/
def scientific (digits : List Char) (e : Int) : List Char :=
  let point := if digits.length ≤ 1 then digits else digits.take 1 ++ '.' :: digits.drop 1
  point ++ 'e' :: (if 0 ≤ e then '+' else '-') :: Nat.toDigits 10 e.natAbs

def Layout.write (layout : Layout) (x : Binary64) : String :=
  let d := x.shortest layout.tie
  let digits := Nat.toDigits 10 d.digits
  let e := d.exponent + digits.length - 1
  let trimmed := (digits.reverse.dropWhile (· == '0')).reverse
  let kept := if trimmed.isEmpty then ['0'] else trimmed
  let body := if layout.isPositional e then positional kept (e + 1) else scientific kept e
  String.ofList (if x.negative then '-' :: body else body)

end SiteManifest.Number
