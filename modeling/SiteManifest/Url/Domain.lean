import SiteManifest.Text.Property
import SiteManifest.Text.Split
import SiteManifest.Url.Punycode

/-!
# Domain names

The normal form of a name given in any script: letters of ASCII in lower case, wide forms narrowed,
every kind of full stop a dot, invisible characters dropped. A name is refused if it holds what no
domain may have, or a label that is encoded and does not decode.

Of the rules for names beyond ASCII this is a part. No other letter is mapped to another one, marks
are not composed with the letters before them, and neither the direction of writing nor the use of
joiners is looked at. So a name in another script may be taken here that these rules refuse, or the
other way round, and its normal form may differ.
-/
namespace SiteManifest.Url

open Text

/-- Characters that a name may hold and that are dropped from it. -/
def ignorable : List (Nat × Nat) :=
  [(0xAD, 0xAD), (0x34F, 0x34F), (0x115F, 0x1160), (0x17B4, 0x17B5), (0x180B, 0x180F),
    (0x200B, 0x200B), (0x2060, 0x2064), (0x206A, 0x206F), (0x3164, 0x3164), (0xFE00, 0xFE0F),
    (0xFEFF, 0xFEFF), (0xFFA0, 0xFFA0), (0x1BCA0, 0x1BCA3), (0x1D173, 0x1D17A),
    (0xE0000, 0xE0FFF)]

/-- Visible characters that stand for a text with a forbidden character in it, or for none. -/
def unnameable : List (Nat × Nat) :=
  [(0x2024, 0x2026), (0x2488, 0x249B), (0x2FF0, 0x2FFF), (0x31EF, 0x31EF), (0x33C2, 0x33C2),
    (0x33C7, 0x33C7), (0x33D8, 0x33D8), (0xFE12, 0xFE12), (0xFE19, 0xFE19), (0xFE30, 0xFE30),
    (0xFE52, 0xFE52), (0xFFFC, 0xFFFD), (0x1F100, 0x1F100)]

/-- The characters of ASCII that no domain has. -/
def isForbiddenInDomain (c : Char) : Bool :=
  c.toNat ≤ 0x20 || c.toNat = 0x7F ||
    c ∈ ['#', '%', '/', ':', '<', '>', '?', '@', '[', '\\', ']', '^', '|']

/-- What a character becomes in a name. -/
def domainChar (c : Char) : List Char :=
  if inRanges ignorable c then []
  else if 0xFF01 ≤ c.toNat && c.toNat ≤ 0xFF5E then [(Char.ofNat (c.toNat - 0xFEE0)).toLower]
  else if c.toNat = 0x3002 || c.toNat = 0xFF61 then ['.']
  else [c.toLower]

def isNameable (c : Char) : Bool :=
  if c.toNat < 0x80 then !isForbiddenInDomain c
  else !inRanges unprintable c && !inRanges unnameable c

/-- The labels of a name, between its dots. -/
def labels (cs : List Char) : List (List Char) := splitWhere (· == '.') cs

/-- No label starts with a mark that joins the character before it. -/
def startsFreely (label : List Char) : Bool :=
  match label with
  | [] => true
  | c :: _ => !inRanges extending c

/-- An encoded label decodes to one that needs the encoding and is in normal form. -/
def isEncodable (label : List Char) : Bool :=
  match Punycode.decode? label with
  | none => false
  | some decoded =>
    decoded.any (0x80 ≤ ·.toNat) && startsFreely decoded &&
      decoded.all fun c => isNameable c && domainChar c == [c]

def isLabel : List Char → Bool
  | 'x' :: 'n' :: '-' :: '-' :: rest => isEncodable rest
  | label => startsFreely label

/-- The normal form of a name. -/
def domain? (cs : List Char) : Option (List Char) :=
  let name := cs.flatMap domainChar
  if name.all isNameable && (labels name).all isLabel then some name else none

end SiteManifest.Url
