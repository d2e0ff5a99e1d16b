import SiteManifest.Json.Basic
import SiteManifest.Number.Decimal
import SiteManifest.Text.Digits

/-!
# JSON text of a value

One printer with two spacings: every item on a line of its own, or everything on one line. Output
is a list of characters, so that it can be compared with what the parser consumes.
-/
namespace SiteManifest.Json

open Number Text

/-- What is written before an item at a nesting depth, and after a key. -/
structure Spacing where
  lineBreak : Nat → List Char
  afterKey : List Char

/-- Two spaces of indentation per level. -/
def Spacing.indented : Spacing := ⟨fun depth => '\n' :: List.replicate (2 * depth) ' ', [':', ' ']⟩

def Spacing.compact : Spacing := ⟨fun _ => [], [':']⟩

/-- Floats are written without an exponent from `0.00001` up to sixteen digits before the point. Of
two equally near decimals the one with an even last digit is taken. -/
def floatLayout : Layout := ⟨some (-5), some 15, .even⟩

/-- Quotes, backslashes and control characters are escaped; nothing else is. -/
def escapedChar (c : Char) : List Char :=
  if c = '"' then ['\\', '"']
  else if c = '\\' then ['\\', '\\']
  else if c = '\n' then ['\\', 'n']
  else if c = '\r' then ['\\', 'r']
  else if c = '\t' then ['\\', 't']
  else if c.toNat = 8 then ['\\', 'b']
  else if c.toNat = 12 then ['\\', 'f']
  else if c.toNat < 0x20 then ['\\', 'u', '0', '0', lowerHex (c.toNat / 16), lowerHex c.toNat]
  else [c]

def stringChars (s : String) : List Char := '"' :: (s.toList.flatMap escapedChar ++ ['"'])

def numeralText : Numeral → String
  | .integer n => toString n.value
  | .real x => floatLayout.write x

mutual

def chars (spacing : Spacing) (depth : Nat) : Json → List Char
  | .null => "null".toList
  | .bool true => "true".toList
  | .bool false => "false".toList
  | .number n => (numeralText n).toList
  | .string s => stringChars s
  | .list [] => ['[', ']']
  | .list (v :: vs) =>
    '[' :: spacing.lineBreak (depth + 1) ++ chars spacing (depth + 1) v ++
      itemChars spacing (depth + 1) vs ++ spacing.lineBreak depth ++ [']']
  | .table [] => ['{', '}']
  | .table ((k, v) :: rest) =>
    '{' :: spacing.lineBreak (depth + 1) ++ stringChars k ++ spacing.afterKey ++
      chars spacing (depth + 1) v ++ memberChars spacing (depth + 1) rest ++
      spacing.lineBreak depth ++ ['}']

/-- The items after the first, each behind a comma. -/
def itemChars (spacing : Spacing) (depth : Nat) : List Json → List Char
  | [] => []
  | v :: vs =>
    ',' :: spacing.lineBreak depth ++ chars spacing depth v ++ itemChars spacing depth vs

/-- The members after the first, each behind a comma. -/
def memberChars (spacing : Spacing) (depth : Nat) : List (String × Json) → List Char
  | [] => []
  | (k, v) :: rest =>
    ',' :: spacing.lineBreak depth ++ stringChars k ++ spacing.afterKey ++
      chars spacing depth v ++ memberChars spacing depth rest

end

/-- Text on several lines, with a line end after the value. -/
def pretty (v : Json) : String := String.ofList (chars .indented 0 v ++ ['\n'])

/-- Text on one line. -/
def compact (v : Json) : String := String.ofList (chars .compact 0 v)

end SiteManifest.Json
