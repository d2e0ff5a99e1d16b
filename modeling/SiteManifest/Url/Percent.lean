import SiteManifest.Text.Digits

/-!
# Percent encoding

Bytes written as a percent sign and two hexadecimal digits.
-/
namespace SiteManifest.Url

open Text

/-- The bytes of a text in UTF-8, with encoded bytes decoded. A percent sign without two digits
stands for itself. -/
def decodedBytes : List Char → List UInt8
  | [] => []
  | '%' :: a :: b :: cs =>
    match hexDigit? a, hexDigit? b with
    | some high, some low => UInt8.ofNat (high * 16 + low) :: decodedBytes cs
    | _, _ => String.utf8EncodeChar '%' ++ decodedBytes (a :: b :: cs)
  | c :: cs => String.utf8EncodeChar c ++ decodedBytes cs

/-- The text with encoded bytes decoded, unless they are no UTF-8. -/
def percentDecode? (cs : List Char) : Option (List Char) :=
  (String.fromUTF8? (ByteArray.mk (decodedBytes cs).toArray)).map String.toList

def encodedByte (byte : UInt8) : List Char :=
  ['%', upperHex (byte.toNat / 16), upperHex byte.toNat]

/-- Control characters and everything beyond ASCII. -/
def isControlOrForeign (c : Char) : Bool := c.toNat < 0x20 || 0x7F ≤ c.toNat

/-- The characters that are encoded in the segments of a path. -/
def isEncodedInPath (c : Char) : Bool :=
  isControlOrForeign c || c ∈ [' ', '"', '#', '<', '>', '?', '\x60', '\x7b', '\x7d']

/-- Encodes the characters that a set asks for. -/
def percentEncode (encoded : Char → Bool) (cs : List Char) : List Char :=
  cs.flatMap fun c => if encoded c then (String.utf8EncodeChar c).flatMap encodedByte else [c]

end SiteManifest.Url
