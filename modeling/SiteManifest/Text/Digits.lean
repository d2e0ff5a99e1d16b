/-!
# Digits

Numbers as digits in any base up to sixteen. Beyond nine a digit is a letter, in either case when it
is read.
-/
namespace SiteManifest.Text

/-- The value of a decimal digit. -/
def digitValue (c : Char) : Nat := c.toNat - '0'.toNat

def hexDigit? (c : Char) : Option Nat :=
  if c.isDigit then some (digitValue c)
  else if 'a' ≤ c && c ≤ 'f' then some (c.toNat - 'a'.toNat + 10)
  else if 'A' ≤ c && c ≤ 'F' then some (c.toNat - 'A'.toNat + 10)
  else none

def baseDigit? (base : Nat) (c : Char) : Option Nat := (hexDigit? c).filter (· < base)

/-- The number that digits of a base stand for. -/
def digits? (base : Nat) (cs : List Char) : Option Nat :=
  cs.foldlM (fun n c => (baseDigit? base c).map (n * base + ·)) 0

/-- The number that decimal digits stand for. -/
def decimalValue (digits : List Char) : Nat := digits.foldl (fun n c => n * 10 + digitValue c) 0

/-- The last hexadecimal digit of a number, in lower case. -/
def lowerHex (n : Nat) : Char := Nat.digitChar (n % 16)

/-- The last hexadecimal digit of a number, in upper case. -/
def upperHex (n : Nat) : Char := (lowerHex n).toUpper

end SiteManifest.Text
