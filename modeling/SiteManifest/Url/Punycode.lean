/-!
# Punycode

Labels of a domain name whose characters beyond ASCII are written as letters and digits behind the
last hyphen. Each run of digits says how far to go, over the code points in ascending order and the
places in the label, until the next character is put in.
-/
namespace SiteManifest.Url.Punycode

def digit? (c : Char) : Option Nat :=
  if c.isLower then some (c.toNat - 'a'.toNat)
  else if c.isUpper then some (c.toNat - 'A'.toNat)
  else if c.isDigit then some (c.toNat - '0'.toNat + 26)
  else none

/-- The least digit that a number goes on after, at a place that is a multiple of 36. -/
def threshold (place bias : Nat) : Nat := min 26 (max 1 (place - bias))

def shrink (delta places : Nat) : Nat × Nat :=
  if 455 < delta then shrink (delta / 35) (places + 36) else (delta, places)
termination_by delta
decreasing_by omega

/-- The bias after a distance, in a label that now has `length` characters. -/
def adapt (delta length : Nat) (first : Bool) : Nat :=
  let start := if first then delta / 700 else delta / 2
  let (rest, places) := shrink (start + start / length) 0
  places + 36 * rest / (rest + 38)

structure State where
  label : List Char
  code : Nat
  index : Nat
  bias : Nat
  delta : Nat
  weight : Nat
  place : Nat

def State.start (basic : List Char) : State := ⟨basic, 128, 0, 72, 0, 1, 36⟩

/-- Puts in the character that the distance leads to. -/
def State.put? (s : State) : Option State :=
  let length := s.label.length + 1
  let code := s.code + (s.index + s.delta) / length
  let index := (s.index + s.delta) % length
  if h : code.isValidChar then
    let label := s.label.take index ++ Char.ofNatAux code h :: s.label.drop index
    some ⟨label, code, index + 1, adapt s.delta length (s.index == 0), 0, 1, 36⟩
  else none

def State.step? (s : State) (c : Char) : Option State := do
  let digit ← digit? c
  let s := { s with delta := s.delta + digit * s.weight }
  let least := threshold s.place s.bias
  if digit < least then s.put?
  else some { s with weight := s.weight * (36 - least), place := s.place + 36 }

/-- A label from the text behind its marker, unless a number is cut off. -/
def decode? (cs : List Char) : Option (List Char) := do
  let encoded := (cs.reverse.takeWhile (· ≠ '-')).reverse
  let before := cs.take (cs.length - encoded.length)
  let s ← encoded.foldlM State.step? (State.start before.dropLast)
  if before ≠ ['-'] && s.place = 36 then some s.label else none

end SiteManifest.Url.Punycode
