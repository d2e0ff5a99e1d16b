import SiteManifest.Json.Basic
import SiteManifest.Json.Failure
import SiteManifest.Text.Digits
import SiteManifest.Text.Found

/-!
# Lexemes of JSON text

Blanks, words, numbers and strings. Every reader takes the text from its place on and returns what
it read together with the rest, which is strictly shorter.
-/
namespace SiteManifest.Json

open Number Text

namespace Lexeme

def isBlank (c : Char) : Bool := c == ' ' || c == '\n' || c == '\t' || c == '\r'

def skipBlanks (cs : List Char) : List Char := cs.dropWhile isBlank

theorem length_lt_of_skipBlanks {c : Char} {rest cs : List Char} (h : skipBlanks cs = c :: rest) :
    rest.length < cs.length := length_lt_of_dropWhile h

/-- The rest of a word whose first letter was read. -/
def wordRest (value : Json) : (word cs : List Char) → Except Failure (Json × List Char)
  | [], cs => .ok (value, cs)
  | _ :: _, [] => .error (.here .endInValue [])
  | w :: word, c :: cs =>
    if c = w then wordRest value word cs else .error (.onNext .expectedIdent (c :: cs))

/-! ## Numbers -/

/-- Appends digits to a significand as long as it stays below `2 ^ 64`, and counts those left. -/
def fitDigits (significand : Nat) : List Char → Nat × Nat
  | [] => (significand, 0)
  | c :: cs =>
    let longer := significand * 10 + digitValue c
    if longer < 0x10000000000000000 then fitDigits longer cs
    else (significand, (c :: cs).length)

/-- Reads the digits of an exponent, up to the digit that takes it beyond `2 ^ 31 - 1`. -/
def exponentDigits (n : Nat) : List Char → Nat × List Char
  | [] => (n, [])
  | c :: cs =>
    if c.isDigit then
      let longer := n * 10 + digitValue c
      if longer < 0x80000000 then exponentDigits longer cs else (longer, cs)
    else (n, c :: cs)

/-- A number times a power of ten. Powers beyond `10 ^ 308` are divided out step by step; the
product of a number other than zero with one is out of range. -/
def scaleTen (x : Binary64) (exponent : Int) : Option Binary64 :=
  if h : exponent.natAbs ≤ 308 then
    if 0 ≤ exponent then x.timesTenPow exponent.natAbs else x.overTenPow exponent.natAbs
  else if x.isZero then some x
  else if 0 ≤ exponent then none
  else (x.overTenPow 308).bind fun y => scaleTen y (exponent + 308)
termination_by exponent.natAbs

/-- The float of a sign, a significand and a power of ten. -/
def float (negative : Bool) (significand : Nat) (exponent : Int) (rest : List Char) :
    Except Failure (Numeral × List Char) :=
  match (Binary64.ofRatio negative significand 1).bind fun x => scaleTen x exponent with
  | some x => .ok (.real x, rest)
  | none => .error (.here .numberOutOfRange rest)

/-- The exponent behind its mark, on top of the power of ten that the digits have. -/
def floatExponent (negative : Bool) (significand : Nat) (power : Int) (cs : List Char) :
    Except Failure (Numeral × List Char) :=
  let (down, digits) :=
    match cs with
    | '+' :: cs => (false, cs)
    | '-' :: cs => (true, cs)
    | cs => (false, cs)
  match digits with
  | [] => .error (.here .endInValue [])
  | c :: cs =>
    if !c.isDigit then .error (.onNext .invalidNumber (c :: cs))
    else
      let (n, rest) := exponentDigits 0 (c :: cs)
      if n < 0x80000000 then float negative significand (if down then power - n else power + n) rest
      else if significand ≠ 0 && !down then .error (.here .numberOutOfRange rest)
      else .ok (.real (.zero negative), rest.dropWhile Char.isDigit)

/-- An integer that fits is kept as one, except for a negative zero. -/
def integer (negative : Bool) (significand : Nat) : Numeral :=
  let value : Int := if negative then -significand else significand
  match Integer.ofInt? value with
  | some n => if negative && significand == 0 then .real (.zero true) else .integer n
  | none => .real ((Binary64.ofRatio negative significand 1).getD (.zero negative))

/-- A number after its sign. Of a long run of digits only the first that fit 64 bits count, the
others of the whole part as powers of ten. -/
def number (negative : Bool) (cs : List Char) : Except Failure (Numeral × List Char) :=
  let whole := cs.takeWhile Char.isDigit
  let (significand, left) := fitDigits 0 whole
  match whole, cs.dropWhile Char.isDigit with
  | [], [] => .error (.here .endInValue [])
  | [], rest => .error (.onNext .invalidNumber rest)
  | '0' :: _ :: _, _ => .error (.onNext .invalidNumber cs.tail)
  | _, '.' :: rest =>
    let fraction := rest.takeWhile Char.isDigit
    let (significand, beyond) := fitDigits significand fraction
    let power : Int := left - (fraction.length - beyond : Nat)
    match fraction, rest.dropWhile Char.isDigit with
    | [], [] => .error (.here .endInValue [])
    | [], c :: cs => .error (.onNext .invalidNumber (c :: cs))
    | _, 'e' :: after | _, 'E' :: after => floatExponent negative significand power after
    | _, after => float negative significand power after
  | _, 'e' :: rest | _, 'E' :: rest => floatExponent negative significand left rest
  | _, rest =>
    if left = 0 then .ok (integer negative significand, rest)
    else float negative significand left rest

/-! ## Strings -/

/-- Four hexadecimal digits. Four bytes are read before they are looked at. -/
def hexFour (cs : List Char) : Except Failure (Found Nat cs) :=
  if byteCount cs < 4 then .error (.here .endInString [])
  else
    match cs with
    | a :: b :: c :: d :: rest =>
      match hexDigit? a, hexDigit? b, hexDigit? c, hexDigit? d with
      | some a, some b, some c, some d =>
        .ok ⟨((a * 16 + b) * 16 + c) * 16 + d, rest, by simp; omega⟩
      | _, _, _, _ => .error ⟨.invalidEscape, byteCount cs - 4⟩
    | _ => .error ⟨.invalidEscape, byteCount cs - 4⟩

/-- A character by its UTF-16 units: two escapes in a row if the first is a leading surrogate. -/
def unicodeEscape (cs : List Char) : Except Failure (Found Char cs) := do
  let first ← hexFour cs
  if 0xDC00 ≤ first.value && first.value ≤ 0xDFFF then
    .error (.here .unpairedSurrogate first.rest)
  else if first.value < 0xD800 || 0xDBFF < first.value then
    .ok ⟨Char.ofNat first.value, first.rest, first.shorter⟩
  else
    match h : first.rest with
    | [] => .error (.here .endInString [])
    | '\\' :: [] => .error (.here .endInString [])
    | '\\' :: 'u' :: rest => do
      let second ← hexFour rest
      if second.value < 0xDC00 || 0xDFFF < second.value then
        .error (.here .unpairedSurrogate second.rest)
      else
        let code := (first.value - 0xD800) * 0x400 + (second.value - 0xDC00) + 0x10000
        have within : rest.length < cs.length := by
          have := first.shorter
          simp only [h, List.length_cons] at this
          omega
        .ok ((second.map fun _ => Char.ofNat code).behind within)
    | '\\' :: c :: rest => .error (.onNext .unfinishedSurrogatePair (c :: rest))
    | c :: rest => .error (.onNext .unfinishedSurrogatePair (c :: rest))

/-- An escape after its backslash. -/
def escape (cs : List Char) : Except Failure (Found Char cs) :=
  match cs with
  | [] => .error (.here .endInString [])
  | 'u' :: rest => do
    let found ← unicodeEscape rest
    .ok (found.behindChar 'u')
  | c :: rest =>
    let done (d : Char) : Except Failure (Found Char (c :: rest)) :=
      .ok ⟨d, rest, length_lt_cons c rest⟩
    if c = '"' then done '"'
    else if c = '\\' then done '\\'
    else if c = '/' then done '/'
    else if c = 'b' then done '\x08'
    else if c = 'f' then done '\x0c'
    else if c = 'n' then done '\n'
    else if c = 'r' then done '\r'
    else if c = 't' then done '\t'
    else .error (.onNext .invalidEscape (c :: rest))

/-- Characters that stand for themselves between quotes. -/
def isPlain (c : Char) : Bool := c ≠ '"' && c ≠ '\\' && 0x20 ≤ c.toNat

/-- The characters of a string after its opening quote. -/
def stringRest (cs : List Char) : Except Failure (Found (List Char) cs) :=
  match h : cs.dropWhile isPlain with
  | [] => .error (.here .endInString [])
  | c :: rest =>
    have shorter := length_lt_of_dropWhile h
    if c = '"' then .ok ⟨cs.takeWhile isPlain, rest, shorter⟩
    else if c = '\\' then
      match escape rest with
      | .error e => .error e
      | .ok found =>
        have within := found.shorter_of_lt shorter
        match stringRest found.rest with
        | .error e => .error e
        | .ok more =>
          .ok ((more.map fun cs' => cs.takeWhile isPlain ++ found.value :: cs').behind within)
    else .error (.onNext .controlCharacter (c :: rest))
termination_by cs.length

end Lexeme

end SiteManifest.Json
