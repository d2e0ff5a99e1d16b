import SiteManifest.Number.Binary64

/-!
# Numerals

The numbers of a manifest: an integer that fits 64 bits, signed or unsigned, or a binary64 number.
The two kinds stay apart: `1` and `1.0` are different values.
-/
namespace SiteManifest.Number

/-- An integer from `-2 ^ 63` to `2 ^ 64 - 1`. -/
structure Integer where
  value : Int
  least_le : -0x8000000000000000 ≤ value
  lt_bound : value < 0x10000000000000000
  deriving DecidableEq, Repr

inductive Numeral where
  | integer (n : Integer)
  | real (x : Binary64)
  deriving DecidableEq, Repr

def Integer.ofInt? (n : Int) : Option Integer :=
  if h : -0x8000000000000000 ≤ n ∧ n < 0x10000000000000000 then some ⟨n, h.1, h.2⟩ else none

theorem Integer.ofInt?_value (n : Integer) : Integer.ofInt? n.value = some n := by
  unfold Integer.ofInt?
  rw [dif_pos ⟨n.least_le, n.lt_bound⟩]

theorem Integer.value_of_ofInt? {i : Int} {n : Integer} (h : Integer.ofInt? i = some n) :
    n.value = i := by
  unfold Integer.ofInt? at h
  split at h
  · obtain rfl := Option.some.inj h
    rfl
  · contradiction

/-- A natural number below `2 ^ 64` as a numeral. -/
def Numeral.ofNat? (n : Nat) : Option Numeral := (Integer.ofInt? n).map .integer

end SiteManifest.Number
