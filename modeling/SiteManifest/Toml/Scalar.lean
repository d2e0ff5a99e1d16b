import SiteManifest.Json.Basic
import SiteManifest.Number.Binary64
import SiteManifest.Toml.DateTime

/-!
# Scalars of TOML

Values that are written as one word: truth values, numbers, dates and times.
-/
namespace SiteManifest.Toml

open Number Text

/-- Digits without the underscores between them. -/
def ungrouped? (isDigit : Char → Bool) : List Char → Option (List Char)
  | [] => none
  | [c] => if isDigit c then some [c] else none
  | c :: d :: cs =>
    if !isDigit c then none
    else if d = '_' then (ungrouped? isDigit cs).map (c :: ·)
    else (ungrouped? isDigit (d :: cs)).map (c :: ·)

/-- The sign of a number, and the number without it. -/
def splitSign : List Char → Bool × List Char
  | '-' :: cs => (true, cs)
  | '+' :: cs => (false, cs)
  | cs => (false, cs)

/-- Decimal digits of a whole number, which has no zeros in front. -/
def wholeDigits? (cs : List Char) : Option (List Char) :=
  match ungrouped? Char.isDigit cs with
  | some ('0' :: _ :: _) => none
  | digits => digits

/-- A whole number in another base than ten, without a sign. -/
def based? (base : Nat) (cs : List Char) : Option Nat :=
  (ungrouped? (fun c => (baseDigit? base c).isSome) cs).bind (digits? base)

/-- A whole number of 64 bits with a sign. -/
def signed? (n : Int) : Option Json :=
  if n < 0x8000000000000000 then (Integer.ofInt? n).map fun n => .number (.integer n) else none

def integer? (cs : List Char) : Option Json :=
  match cs with
  | '0' :: 'x' :: digits => (based? 16 digits).bind (signed? ·)
  | '0' :: 'o' :: digits => (based? 8 digits).bind (signed? ·)
  | '0' :: 'b' :: digits => (based? 2 digits).bind (signed? ·)
  | cs =>
    let (negative, digits) := splitSign cs
    (wholeDigits? digits).bind fun digits =>
      signed? (if negative then -(decimalValue digits : Int) else decimalValue digits)

/-- A number that is none, or infinite, has no value in a manifest. -/
def isUndefined (cs : List Char) : Bool :=
  String.ofList (splitSign cs).2 ∈ ["inf", "nan"]

/-- The digits behind the point, none if there is no point. -/
def fractionDigits? : List Char → Option (List Char)
  | [] => some []
  | '.' :: digits => ungrouped? Char.isDigit digits
  | _ => none

/-- The exponent behind its mark, zero if there is no mark. -/
def exponent? : List Char → Option Int
  | [] => some 0
  | _ :: cs =>
    let (negative, digits) := splitSign cs
    (ungrouped? Char.isDigit digits).map fun digits =>
      if negative then -(decimalValue digits : Int) else decimalValue digits

def isExponentMark (c : Char) : Bool := c == 'e' || c == 'E'

/-- A number with a point or an exponent. A negative one beyond all numbers has no value, a
positive one is refused. -/
def float? (cs : List Char) : Option Json := do
  let (negative, cs) := splitSign cs
  let mantissa := cs.takeWhile fun c => !isExponentMark c
  guard (mantissa.length < cs.length || '.' ∈ mantissa)
  let whole ← wholeDigits? (mantissa.takeWhile (· ≠ '.'))
  let fraction ← fractionDigits? (mantissa.dropWhile (· ≠ '.'))
  let exponent ← exponent? (cs.dropWhile fun c => !isExponentMark c)
  match Binary64.ofDecimal negative (decimalValue (whole ++ fraction))
      (exponent - fraction.length) with
  | some x => some (.number (.real x))
  | none => if negative then some .null else none

/-- The key of the table that a date or time becomes. -/
def dateTimeKey : String := "$__toml_private_datetime"

def word? (cs : List Char) : Option Json :=
  if cs = "true".toList then some (.bool true)
  else if cs = "false".toList then some (.bool false)
  else if isUndefined cs then some .null
  else
    match dateTime? cs with
    | some t => some (.table [(dateTimeKey, .string t.text)])
    | none => (integer? cs).or (float? cs)

end SiteManifest.Toml
