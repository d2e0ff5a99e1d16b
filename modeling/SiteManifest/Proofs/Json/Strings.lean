import Mathlib.Tactic.SplitIfs
import SiteManifest.Json.Lexeme
import SiteManifest.Json.Printer
import SiteManifest.Proofs.Text.Digits

/-!
# Strings of JSON

A string is read back from its text, whatever characters it has and whatever follows it.

## Main definitions

* `Reads`: a reader finds a value at the start of a text and leaves the rest.

## Main statements

* `Lexeme.reads_stringRest`: strings are read as they were written.
-/
namespace SiteManifest.Json

open Text

/-- A reader finds a value and leaves the rest of the text. -/
def Reads (reader : (cs : List Char) → Except Failure (Found α cs)) (cs : List Char) (a : α)
    (rest : List Char) : Prop :=
  ∃ shorter, reader cs = .ok ⟨a, rest, shorter⟩

namespace Lexeme

variable {c : Char} {cs rest after : List Char}

/-! ## Escapes -/

theorem reads_hexFour (n : Nat) (small : n < 0x100) (cs : List Char) :
    Reads hexFour ('0' :: '0' :: lowerHex (n / 16) :: lowerHex n :: cs) n cs := by
  have long : ¬byteCount ('0' :: '0' :: lowerHex (n / 16) :: lowerHex n :: cs) < 4 := by
    have high := Char.utf8Size_pos (lowerHex (n / 16))
    have low := Char.utf8Size_pos (lowerHex n)
    have zero : '0'.utf8Size = 1 := by decide
    simp only [byteCount, zero]
    omega
  have value : ((0 * 16 + 0) * 16 + n / 16 % 16) * 16 + n % 16 = n := by omega
  have zero : hexDigit? '0' = some 0 := by decide
  refine ⟨by simp only [List.length_cons]; omega, ?_⟩
  unfold hexFour
  simp only [if_neg long, zero, hexDigit?_lowerHex, value]

theorem reads_unicodeEscape (n : Nat) (small : n < 0x100) (cs : List Char) :
    Reads unicodeEscape ('0' :: '0' :: lowerHex (n / 16) :: lowerHex n :: cs) (Char.ofNat n)
      cs := by
  obtain ⟨shorter, first⟩ := reads_hexFour n small cs
  have notTrailing : ¬(decide (0xDC00 ≤ n) && decide (n ≤ 0xDFFF)) = true := by simp; omega
  have notLeading : (decide (n < 0xD800) || decide (0xDBFF < n)) = true := by simp; omega
  refine ⟨shorter, ?_⟩
  unfold unicodeEscape
  simp only [first, bind, Except.bind, if_neg notTrailing, if_pos notLeading]

theorem reads_escape_u (h : Reads unicodeEscape cs c rest) :
    Reads escape ('u' :: cs) c rest := by
  obtain ⟨shorter, found⟩ := h
  have step : escape ('u' :: cs) = (unicodeEscape cs).bind fun found =>
      .ok (found.behindChar 'u') := rfl
  unfold Reads
  rw [step, found]
  exact ⟨_, rfl⟩

/-- A character is written as it is, or as an escape that is read as the character. -/
theorem escapedChar_cases (c : Char) :
    isPlain c = true ∧ escapedChar c = [c] ∨
      ∃ mark, escapedChar c = '\\' :: mark ∧ ∀ cs, Reads escape (mark ++ cs) c cs := by
  have ofNat {n : Nat} (h : c.toNat = n) : c = Char.ofNat n := by rw [← h, Char.ofNat_toNat]
  have letter {d e : Char} (read : ∀ cs, Reads escape (d :: cs) e cs) :
      ∃ mark, ['\\', d] = '\\' :: mark ∧ ∀ cs, Reads escape (mark ++ cs) e cs :=
    ⟨[d], rfl, read⟩
  unfold escapedChar
  split_ifs with quote backslash lineFeed carriageReturn tab backspace formFeed control
  · subst quote
    exact .inr (letter fun cs => ⟨length_lt_cons _ cs, rfl⟩)
  · subst backslash
    exact .inr (letter fun cs => ⟨length_lt_cons _ cs, rfl⟩)
  · subst lineFeed
    exact .inr (letter fun cs => ⟨length_lt_cons _ cs, rfl⟩)
  · subst carriageReturn
    exact .inr (letter fun cs => ⟨length_lt_cons _ cs, rfl⟩)
  · subst tab
    exact .inr (letter fun cs => ⟨length_lt_cons _ cs, rfl⟩)
  · rw [ofNat backspace]
    exact .inr (letter fun cs => ⟨length_lt_cons _ cs, rfl⟩)
  · rw [ofNat formFeed]
    exact .inr (letter fun cs => ⟨length_lt_cons _ cs, rfl⟩)
  · have small : c.toNat < 0x100 := Nat.lt_trans control (by decide)
    refine .inr ⟨_, rfl, fun cs => ?_⟩
    have found := reads_unicodeEscape c.toNat small cs
    rw [Char.ofNat_toNat] at found
    exact reads_escape_u found
  · refine .inl ⟨?_, rfl⟩
    simp [isPlain, quote, backslash]
    omega

/-! ## Strings -/

theorem reads_stringRest_of_quote (h : cs.dropWhile isPlain = '"' :: rest) :
    Reads stringRest cs (cs.takeWhile isPlain) rest := by
  refine ⟨length_lt_of_dropWhile h, ?_⟩
  unfold stringRest
  split
  next none =>
    rw [none] at h
    contradiction
  next c after found =>
    obtain ⟨rfl, rfl⟩ := List.cons.inj (found.symm.trans h)
    rfl

theorem reads_stringRest_of_escape {s tail : List Char} (h : cs.dropWhile isPlain = '\\' :: rest)
    (first : Reads escape rest c after) (more : Reads stringRest after s tail) :
    Reads stringRest cs (cs.takeWhile isPlain ++ c :: s) tail := by
  obtain ⟨within, first⟩ := first
  obtain ⟨shorter, more⟩ := more
  refine ⟨Nat.lt_trans shorter (Nat.lt_trans within (length_lt_of_dropWhile h)), ?_⟩
  unfold stringRest
  split
  next none =>
    rw [none] at h
    contradiction
  next d others found =>
    obtain ⟨rfl, rfl⟩ := List.cons.inj (found.symm.trans h)
    have notQuote : '\\' ≠ '"' := by decide
    simp only [if_neg notQuote, if_pos, first, more]
    rfl

theorem span_plain {plain : List Char} (h : ∀ c ∈ plain, isPlain c = true)
    (hc : isPlain c = false) (cs : List Char) :
    (plain ++ c :: cs).dropWhile isPlain = c :: cs ∧
      (plain ++ c :: cs).takeWhile isPlain = plain := by
  rw [List.dropWhile_append_of_pos h, List.takeWhile_append_of_pos h]
  simp [hc]

/-- Characters that were escaped are read back, those at the start of a string that were not as
they are. -/
theorem reads_stringRest_of_plain (s : List Char) {plain : List Char}
    (h : ∀ c ∈ plain, isPlain c = true) :
    Reads stringRest (plain ++ (s.flatMap escapedChar ++ '"' :: rest)) (plain ++ s) rest := by
  induction s generalizing plain with
  | nil =>
    obtain ⟨dropped, taken⟩ := span_plain h (c := '"') rfl rest
    have found := reads_stringRest_of_quote dropped
    rw [taken] at found
    simpa using found
  | cons c s ih =>
    rcases escapedChar_cases c with ⟨hc, same⟩ | ⟨mark, escaped, read⟩
    · have longer : ∀ d ∈ plain ++ [c], isPlain d = true := by
        simpa [or_imp, forall_and, hc] using h
      simpa [same] using ih longer
    · obtain ⟨dropped, taken⟩ := span_plain h (c := '\\') rfl
        (mark ++ (s.flatMap escapedChar ++ '"' :: rest))
      have found := reads_stringRest_of_escape dropped (read _)
        (ih (List.forall_mem_nil _))
      rw [taken] at found
      simpa [escaped] using found

/-- A string is read as it was written. -/
theorem reads_stringRest (s rest : List Char) :
    Reads stringRest (s.flatMap escapedChar ++ '"' :: rest) s rest :=
  reads_stringRest_of_plain s (List.forall_mem_nil _)

end Lexeme

end SiteManifest.Json
