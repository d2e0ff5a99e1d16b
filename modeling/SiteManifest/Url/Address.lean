import SiteManifest.Text.Digits
import SiteManifest.Text.Split

/-!
# Internet addresses

Hosts written as numbers. An IPv4 address has up to four numbers in decimal, octal or hexadecimal,
the last of which fills the bytes that are left. An IPv6 address has eight groups of hexadecimal
digits; two colons stand for at least one group of zeros, and a dotted IPv4 address for the last two
groups.
-/
namespace SiteManifest.Url

open Text

/-! ## IPv4 -/

/-- A number in the base that its first characters tell. -/
def ipv4Number? (cs : List Char) : Option Nat :=
  match cs with
  | [] => none
  | '0' :: 'x' :: rest | '0' :: 'X' :: rest => digits? 16 rest
  | '0' :: c :: rest => digits? 8 (c :: rest)
  | cs => digits? 10 cs

/-- The dotted parts of a host, less an empty last one. -/
def dottedParts (cs : List Char) : List (List Char) :=
  let parts := splitWhere (· == '.') cs
  if parts.getLast? = some [] then parts.dropLast else parts

/-- Whether a host is meant as an IPv4 address: its last part is a number. -/
def endsInNumber (cs : List Char) : Bool :=
  match (dottedParts cs).getLast? with
  | none => false
  | some part => (!part.isEmpty && part.all Char.isDigit) || (ipv4Number? part).isSome

def ipv4? (cs : List Char) : Option Nat := do
  let numbers ← (dottedParts cs).mapM ipv4Number?
  let last ← numbers.getLast?
  let leading := numbers.dropLast
  let limit := Nat.pow 256 (4 - leading.length)
  if 3 < leading.length || leading.any (255 < ·) || limit ≤ last then none
  else
    let high := leading.foldl (fun address n => address * 256 + n) 0
    some (high * limit + last)

/-! ## IPv6 -/

/-- A number from 0 to 255 in decimal, without leading zeros. -/
def byte? (cs : List Char) : Option Nat :=
  match cs with
  | [] | '0' :: _ :: _ => none
  | cs => (digits? 10 cs).filter (· ≤ 255)

/-- Four decimal numbers as two groups. -/
def dottedGroups? (cs : List Char) : Option (List Nat) :=
  match (splitWhere (· == '.') cs).map byte? with
  | [some a, some b, some c, some d] => some [a * 256 + b, c * 256 + d]
  | _ => none

/-- One to four hexadecimal digits. -/
def group? (cs : List Char) : Option Nat :=
  if cs.isEmpty || 4 < cs.length then none else digits? 16 cs

/-- Groups between colons; the last one may be dotted if nothing follows. -/
def groups? (dotted : Bool) : List (List Char) → Option (List Nat)
  | [] => some []
  | [part] =>
    match group? part with
    | some n => some [n]
    | none => if dotted then dottedGroups? part else none
  | part :: parts => do
    let n ← group? part
    let rest ← groups? dotted parts
    some (n :: rest)

/-- The groups of a text, none if it is empty. -/
def groupsOf? (dotted : Bool) (cs : List Char) : Option (List Nat) :=
  if cs.isEmpty then some [] else groups? dotted (splitWhere (· == ':') cs)

/-- The text on either side of the first two colons in a row. -/
def splitGap? : List Char → Option (List Char × List Char)
  | ':' :: ':' :: cs => some ([], cs)
  | c :: cs => (splitGap? cs).map fun (left, right) => (c :: left, right)
  | [] => none

def ipv6? (cs : List Char) : Option (List Nat) := do
  match splitGap? cs with
  | some (left, right) =>
    let left ← groupsOf? false left
    let right ← groupsOf? true right
    if 7 < left.length + right.length then none
    else some (left ++ List.replicate (8 - left.length - right.length) 0 ++ right)
  | none =>
    let groups ← groups? true (splitWhere (· == ':') cs)
    if groups.length = 8 then some groups else none

end SiteManifest.Url
