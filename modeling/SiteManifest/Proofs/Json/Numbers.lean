import SiteManifest.Json.Parser
import SiteManifest.Proofs.Json.Strings

/-!
# Integers of JSON

An integer is read back from its digits, if no other part of a number follows them.

## Main statements

* `scalar_integer`: integers are read as they were written.
-/
namespace SiteManifest.Json

open Number Text

/-- What can follow an integer without being read as a part of it. -/
def EndsInteger (rest : List Char) : Prop :=
  ∀ c ∈ rest.head?, c.isDigit = false ∧ c ≠ '.' ∧ c ≠ 'e' ∧ c ≠ 'E'

namespace Lexeme

variable {n : Nat} {rest : List Char}

theorem le_ofDigitChars (cs : List Char) (start : Nat) : start ≤ Nat.ofDigitChars 10 cs start := by
  induction cs generalizing start with
  | nil => simp
  | cons c cs ih =>
    rw [Nat.ofDigitChars_cons]
    have := ih (10 * start + (c.toNat - '0'.toNat))
    omega

/-- No digit is left over as long as the number fits. -/
theorem fitDigits_eq {cs : List Char} {start : Nat}
    (fits : Nat.ofDigitChars 10 cs start < 0x10000000000000000) :
    fitDigits start cs = (Nat.ofDigitChars 10 cs start, 0) := by
  induction cs generalizing start with
  | nil => simp [fitDigits]
  | cons c cs ih =>
    rw [Nat.ofDigitChars_cons] at fits ⊢
    have same : start * 10 + digitValue c = 10 * start + (c.toNat - '0'.toNat) := by
      rw [digitValue, Nat.mul_comm]
    have grows := le_ofDigitChars cs (10 * start + (c.toNat - '0'.toNat))
    have here : start * 10 + digitValue c < 0x10000000000000000 := by omega
    unfold fitDigits
    rw [if_pos here, same]
    exact ih fits

theorem fitDigits_toDigits (fits : n < 0x10000000000000000) :
    fitDigits 0 (Nat.toDigits 10 n) = (n, 0) := by
  have value : Nat.ofDigitChars 10 (Nat.toDigits 10 n) 0 = n := Nat.ofDigitChars_ten_toDigits
  rw [fitDigits_eq (by rwa [value]), value]

/-- Digits are read as the number that they were written for. -/
theorem number_digits (negative : Bool) (fits : n < 0x10000000000000000) (ends : EndsInteger rest) :
    number negative (Nat.toDigits 10 n ++ rest) = .ok (integer negative n, rest) := by
  have digits : ∀ c ∈ Nat.toDigits 10 n, c.isDigit = true := fun c => isDigit_of_mem_toDigits
  have taken : (Nat.toDigits 10 n ++ rest).takeWhile Char.isDigit = Nat.toDigits 10 n :=
    takeWhile_append_of_head digits fun c hc => (ends c hc).1
  have dropped : (Nat.toDigits 10 n ++ rest).dropWhile Char.isDigit = rest :=
    dropWhile_append_of_head digits fun c hc => (ends c hc).1
  unfold number
  simp only [taken, dropped, fitDigits_toDigits fits]
  split
  next none => exact absurd none Nat.toDigits_ne_nil
  next none _ => exact absurd none Nat.toDigits_ne_nil
  next zero => exact absurd zero toDigits_ne_zero_cons_cons
  next => exact absurd rfl (ends '.' rfl).2.1
  next => exact absurd rfl (ends 'e' rfl).2.2.1
  next => exact absurd rfl (ends 'E' rfl).2.2.2
  next => rfl

/-- A number that fits is kept as an integer, unless it is a negative zero. -/
theorem integer_of_value {negative : Bool} {n : Integer} {significand : Nat}
    (value : (if negative then -(significand : Int) else significand) = n.value)
    (notZero : (negative && significand == 0) = false) :
    integer negative significand = .integer n := by
  unfold integer
  rw [value]
  simp only [Integer.ofInt?_value, notZero, Bool.false_eq_true, if_false]

/-- The value of an integer makes the integer again, with the sign apart. -/
theorem integer_toNat {n : Integer} (h : 0 ≤ n.value) :
    integer false n.value.toNat = .integer n :=
  integer_of_value (Int.toNat_of_nonneg h) rfl

theorem integer_neg_toNat {n : Integer} (h : n.value < 0) :
    integer true (-n.value).toNat = .integer n := by
  apply integer_of_value
  · rw [if_pos rfl]
    omega
  · simpa using h

end Lexeme

/-! ## Scalars -/

theorem word?_of_isDigit {c : Char} (h : c.isDigit = true) : word? c = none := by
  unfold word?
  split_ifs <;> simp_all

/-- An integer starts with a character of its own, from which on it is read back. -/
theorem scalar_integer (n : Integer) :
    ∃ c cs, (numeralText (.integer n)).toList = c :: cs ∧ (c = '-' ∨ c.isDigit = true) ∧
      ∀ rest, EndsInteger rest → scalar c (cs ++ rest) = .ok (.number (.integer n), rest) := by
  have least := n.least_le
  have greatest := n.lt_bound
  rw [numeralText, toList_toString]
  split
  next positive =>
    cases digits : Nat.toDigits 10 n.value.toNat with
    | nil => exact absurd digits Nat.toDigits_ne_nil
    | cons c cs =>
      have digit : c.isDigit = true := by
        apply isDigit_of_mem_toDigits (n := n.value.toNat)
        rw [digits]
        exact .head cs
      refine ⟨c, cs, rfl, .inr digit, fun rest ends => ?_⟩
      have read := Lexeme.number_digits false (n := n.value.toNat) (by omega) ends
      have notSign : c ≠ '-' := by
        rintro rfl
        contradiction
      rw [digits, Lexeme.integer_toNat positive] at read
      rw [scalar, word?_of_isDigit digit]
      simp only [if_neg notSign, if_pos digit]
      rw [← List.cons_append, read]
      rfl
  next negative =>
    refine ⟨'-', _, rfl, .inl rfl, fun rest ends => ?_⟩
    have read := Lexeme.number_digits true (n := (-n.value).toNat) (by omega) ends
    rw [Lexeme.integer_neg_toNat (by omega)] at read
    have step : scalar '-' (Nat.toDigits 10 (-n.value).toNat ++ rest) =
        (Lexeme.number true (Nat.toDigits 10 (-n.value).toNat ++ rest)).map
          fun found => (.number found.1, found.2) := rfl
    rw [step, read]
    rfl

end SiteManifest.Json
