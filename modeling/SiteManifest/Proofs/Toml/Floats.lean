import Mathlib.Data.List.TakeWhile
import SiteManifest.Proofs.Number.Shortest
import SiteManifest.Proofs.Toml.Words

/-!
# Floats of TOML

A float is written as a whole part and a fraction, without an exponent. Both parts together stand
for the decimal that the number is written with, so the number is read back.

## Main definitions

* `Spells`: digits before and after the point stand for a decimal.

## Main statements

* `exists_write`: a float is written as digits that spell its shortest decimal.
* `word?_write`: a float is read as it was written.
-/
namespace SiteManifest.Toml

open Number Text

variable {c : Char} {cs whole fraction : List Char} {places : ℤ} {d : Decimal} {x : Binary64}

/-! ## Digits and zeros -/

theorem decimalValue_append_zeros (cs : List Char) (k : ℕ) :
    decimalValue (cs ++ List.replicate k '0') = decimalValue cs * 10 ^ k := by
  induction k with
  | zero => simp
  | succ k ih =>
    have last (cs : List Char) : decimalValue (cs ++ ['0']) = decimalValue cs * 10 := by
      rw [decimalValue, List.foldl_append]
      rfl
    rw [List.replicate_succ', ← List.append_assoc, last, ih, pow_succ, mul_assoc]

theorem decimalValue_zeros_append (k : ℕ) (cs : List Char) :
    decimalValue (List.replicate k '0' ++ cs) = decimalValue cs := by
  induction k with
  | zero => rfl
  | succ k ih => exact ih

/-- Digits without the zeros at their end. -/
def trimmedZeros (cs : List Char) : List Char := (cs.reverse.dropWhile (· == '0')).reverse

theorem eq_trimmedZeros_append (cs : List Char) :
    ∃ k, cs = trimmedZeros cs ++ List.replicate k '0' := by
  refine ⟨(cs.reverse.takeWhile (· == '0')).length, ?_⟩
  have zeros : cs.reverse.takeWhile (· == '0') =
      List.replicate (cs.reverse.takeWhile (· == '0')).length '0' :=
    List.eq_replicate_of_mem fun c mem => by simpa using List.mem_takeWhile_imp mem
  have split : cs.reverse.takeWhile (· == '0') ++ cs.reverse.dropWhile (· == '0') = cs.reverse :=
    List.takeWhile_append_dropWhile
  rw [zeros] at split
  have := congrArg List.reverse split
  rw [List.reverse_append, List.reverse_replicate, List.reverse_reverse] at this
  exact this.symm

/-! ## A point among digits -/

/-- The digits before and after a point stand for the value of a decimal. The whole part has no zeros
in front. -/
structure Spells (whole fraction : List Char) (d : Decimal) : Prop where
  whole_ne_nil : whole ≠ []
  fraction_ne_nil : fraction ≠ []
  digits : ∀ c ∈ whole ++ fraction, c.isDigit = true
  noZeros : ∀ c tail, whole ≠ '0' :: c :: tail
  value : (Decimal.mk (decimalValue (whole ++ fraction)) (-fraction.length)).value = d.value

theorem isDigit_of_mem_append_zeros {k : ℕ} (digits : ∀ c ∈ cs, c.isDigit = true)
    (h : c ∈ cs ++ List.replicate k '0') : c.isDigit = true := by
  rcases List.mem_append.1 h with h | h
  · exact digits c h
  · rw [List.eq_of_mem_replicate h]
    rfl

theorem ne_zero_cons (start : cs.head? ≠ some '0') (tail : List Char) : cs ≠ '0' :: tail := by
  rintro rfl
  exact start rfl

/-- Wherever the point is put, the digits keep their value. -/
theorem exists_positional (nonempty : cs ≠ []) (digits : ∀ c ∈ cs, c.isDigit = true)
    (start : cs.head? ≠ some '0') (places : ℤ) :
    ∃ whole fraction, positional cs places = whole ++ '.' :: fraction ∧
      Spells whole fraction ⟨decimalValue cs, places - cs.length⟩ := by
  have ten : (10 : ℚ) ≠ 0 := by norm_num
  unfold positional
  split
  next positive =>
    obtain ⟨p, rfl⟩ := Int.eq_ofNat_of_zero_le positive.le
    dsimp only
    rw [Int.toNat_natCast]
    by_cases long : p < cs.length
    · -- The point stands among the digits.
      have none : p - cs.length = 0 := by omega
      have rest : cs.drop p ≠ [] := by simpa using long
      refine ⟨cs.take p, cs.drop p, by simp [none, rest], ?_, rest, ?_, ?_, ?_⟩
      · have : p ≠ 0 := by omega
        simp [this, nonempty]
      · simpa using digits
      · intro c tail same
        apply ne_zero_cons start (c :: tail ++ cs.drop p)
        rw [← List.cons_append, ← same, List.take_append_drop]
      · rw [List.take_append_drop, List.length_drop]
        congr 2
        omega
    · -- Zeros fill the whole part, and one is the fraction.
      have taken : cs.take p = cs := List.take_of_length_le (by omega)
      have rest : cs.drop p = [] := List.drop_of_length_le (by omega)
      refine ⟨cs ++ List.replicate (p - cs.length) '0', ['0'], by simp [taken, rest], ?_, by simp, ?_,
        ?_, ?_⟩
      · simp [nonempty]
      · intro c mem
        rcases List.mem_append.1 mem with mem | mem
        · exact isDigit_of_mem_append_zeros digits mem
        · rw [List.mem_singleton.1 mem]
          rfl
      · intro c tail same
        cases cs with
        | nil => exact nonempty rfl
        | cons first others =>
          rw [List.cons_append, List.cons.injEq] at same
          exact start (by rw [same.1]; rfl)
      · have zeros : cs ++ List.replicate (p - cs.length) '0' ++ ['0'] =
            cs ++ List.replicate (p - cs.length + 1) '0' := by
          rw [List.replicate_succ', List.append_assoc]
        have exponent : -((['0'] : List Char).length : ℤ) =
            (p - cs.length : ℤ) - (p - cs.length + 1 : ℕ) := by
          simp only [List.length_singleton]
          omega
        rw [zeros, decimalValue_append_zeros, exponent, Decimal.value_mul_pow]
  next negative =>
    -- The whole part is a zero, and zeros stand before the digits.
    refine ⟨['0'], List.replicate (-places).toNat '0' ++ cs, rfl, by simp, by simp [nonempty], ?_,
      by simp, ?_⟩
    · intro c mem
      simp only [List.mem_append, List.mem_singleton, List.mem_replicate] at mem
      rcases mem with rfl | ⟨-, rfl⟩ | mem
      · rfl
      · rfl
      · exact digits c mem
    · have zeros : ['0'] ++ (List.replicate (-places).toNat '0' ++ cs) =
          List.replicate ((-places).toNat + 1) '0' ++ cs := by
        rw [List.replicate_succ]
        rfl
      rw [zeros, decimalValue_zeros_append, List.length_append, List.length_replicate]
      congr 2
      omega

/-! ## Writing -/

/-- Only zero is written with the digit zero. -/
theorem digits_shortest_pos (nonzero : x.isZero = false) (tie : Tie) :
    0 < (x.shortest tie).digits := by
  have covers := Binary64.covers_shortest nonzero tie
  by_contra none
  have value : (x.shortest tie).value = 0 := by
    rw [Decimal.value, Nat.eq_zero_of_not_pos none]
    simp
  have := (Binary64.range_of_covers nonzero covers).1
  rw [value] at this
  exact absurd this (not_le.2 (by positivity))

/-- The sign of a number, and its digits with a point among them. -/
def floatChars (negative : Bool) (whole fraction : List Char) : List Char :=
  (if negative then ['-'] else []) ++ (whole ++ '.' :: fraction)

theorem toList_write (x : Binary64) :
    (floatLayout.write x).toList =
      let digits := Nat.toDigits 10 (x.shortest .away).digits
      let kept := if (trimmedZeros digits).isEmpty then ['0'] else trimmedZeros digits
      (if x.negative then ['-'] else []) ++
        positional kept ((x.shortest .away).exponent + digits.length) := by
  have always (e : ℤ) : floatLayout.isPositional e = true := rfl
  unfold Layout.write
  dsimp only
  rw [always, if_pos rfl, String.toList_ofList, Int.sub_add_cancel]
  cases x.negative <;> rfl

/-- What a float is written with spells its shortest decimal. -/
theorem exists_write (x : Binary64) :
    ∃ whole fraction, (floatLayout.write x).toList = floatChars x.negative whole fraction ∧
      Spells whole fraction (x.shortest .away) := by
  rw [toList_write]
  dsimp only
  cases zero : x.isZero with
  | true =>
    have none : x.shortest .away = ⟨0, 0⟩ := by rw [Binary64.shortest, if_pos zero]
    rw [none]
    exact ⟨['0'], ['0'], rfl, by simp, by simp, by simp, by simp,
      by simp [Decimal.value, decimalValue, digitValue]⟩
  | false =>
    have positive := digits_shortest_pos zero .away
    generalize x.shortest .away = d at positive ⊢
    have start := head?_toDigits positive
    have isDigit : ∀ c ∈ Nat.toDigits 10 d.digits, c.isDigit = true := fun c =>
      isDigit_of_mem_toDigits
    have value := decimalValue_toDigits d.digits
    obtain ⟨k, split⟩ := eq_trimmedZeros_append (Nat.toDigits 10 d.digits)
    generalize hk : trimmedZeros (Nat.toDigits 10 d.digits) = kept at split ⊢
    rw [split] at start isDigit value ⊢
    have nonempty : kept ≠ [] := by
      rintro rfl
      cases k with
      | zero => exact Nat.toDigits_ne_nil split
      | succ k => exact start rfl
    have start : kept.head? ≠ some '0' := by
      cases kept with
      | nil => simp
      | cons c kept => exact start
    obtain ⟨whole, fraction, text, spells⟩ := exists_positional nonempty
      (fun c mem => isDigit c (List.mem_append_left _ mem)) start
      (d.exponent + (kept ++ List.replicate k '0').length)
    refine ⟨whole, fraction, ?_, ?_⟩
    · have shown : kept.isEmpty = false := by simpa using nonempty
      rw [shown, if_neg Bool.false_ne_true, text, floatChars]
    · refine { spells with value := spells.value.trans ?_ }
      rw [decimalValue_append_zeros] at value
      have same := Decimal.value_mul_pow (decimalValue kept) k (d.exponent + k)
      rw [value] at same
      have exponent : d.exponent + ((kept ++ List.replicate k '0').length : ℤ) - kept.length =
          d.exponent + k := by
        rw [List.length_append, List.length_replicate]
        omega
      rw [exponent, ← same, Int.add_sub_cancel]

/-! ## Reading -/

/-- The digits and the point of a float. -/
theorem isDigit_or_point (spells : Spells whole fraction d) (h : c ∈ whole ++ '.' :: fraction) :
    c.isDigit = true ∨ c = '.' := by
  simp only [List.mem_append, List.mem_cons] at h
  rcases h with h | rfl | h
  · exact .inl (spells.digits c (List.mem_append_left _ h))
  · exact .inr rfl
  · exact .inl (spells.digits c (List.mem_append_right _ h))

theorem splitSign_floatChars (negative : Bool) (spells : Spells whole fraction d) :
    splitSign (floatChars negative whole fraction) = (negative, whole ++ '.' :: fraction) := by
  cases negative with
  | true => rfl
  | false =>
    have unsigned {sign : Char} {cs : List Char} (noDigit : sign.isDigit = false)
        (noPoint : sign ≠ '.') : whole ++ '.' :: fraction ≠ sign :: cs := by
      intro same
      rcases isDigit_or_point spells (same ▸ List.mem_cons_self) with digit | point
      · rw [noDigit] at digit
        contradiction
      · exact noPoint point
    change splitSign (whole ++ '.' :: fraction) = _
    unfold splitSign
    split
    next same => exact absurd same (unsigned rfl (by decide))
    next same => exact absurd same (unsigned rfl (by decide))
    next => rfl

theorem wholeDigits?_of_digits (nonempty : cs ≠ []) (digits : ∀ c ∈ cs, c.isDigit = true)
    (noZeros : ∀ c tail, cs ≠ '0' :: c :: tail) : wholeDigits? cs = some cs := by
  unfold wholeDigits?
  rw [ungrouped?_of_digits nonempty digits]
  split
  next zeros => exact absurd (Option.some.inj zeros) (noZeros _ _)
  next => rfl

/-- A float is read as the number that its digits and its sign round to. -/
theorem float?_floatChars (spells : Spells whole fraction d)
    (read : Binary64.ofDecimal x.negative (decimalValue (whole ++ fraction)) (-fraction.length) =
      some x) :
    float? (floatChars x.negative whole fraction) = some (.number (.real x)) := by
  have wholeDigits : ∀ c ∈ whole, c.isDigit = true := fun c mem =>
    spells.digits c (List.mem_append_left _ mem)
  have fractionDigits : ∀ c ∈ fraction, c.isDigit = true := fun c mem =>
    spells.digits c (List.mem_append_right _ mem)
  have noMark : ∀ c ∈ whole ++ '.' :: fraction, (!isExponentMark c) = true := by
    intro c mem
    rcases isDigit_or_point spells mem with digit | rfl
    · have noLower : c ≠ 'e' := ne_of_isDigit digit rfl
      have noUpper : c ≠ 'E' := ne_of_isDigit digit rfl
      simp [isExponentMark, noLower, noUpper]
    · rfl
  have mantissa := List.takeWhile_eq_self_iff.2 noMark
  have noExponent := List.dropWhile_eq_nil_iff.2 noMark
  have noPoint : ∀ c ∈ whole, decide (c ≠ '.') = true := fun c mem =>
    decide_eq_true (ne_of_isDigit (wholeDigits c mem) rfl)
  have before : (whole ++ '.' :: fraction).takeWhile (· ≠ '.') = whole := by
    rw [List.takeWhile_append_of_pos noPoint]
    simp
  have behind : (whole ++ '.' :: fraction).dropWhile (· ≠ '.') = '.' :: fraction := by
    rw [List.dropWhile_append_of_pos noPoint]
    simp
  have fractionRead : fractionDigits? ('.' :: fraction) = some fraction :=
    ungrouped?_of_digits spells.fraction_ne_nil fractionDigits
  have wholeRead := wholeDigits?_of_digits spells.whole_ne_nil wholeDigits spells.noZeros
  unfold float?
  rw [splitSign_floatChars _ spells]
  dsimp only
  rw [mantissa, noExponent, before, behind, wholeRead, fractionRead]
  simp [exponent?, guard, read]

theorem ungrouped?_eq_none (h : '.' ∈ cs) : ungrouped? Char.isDigit cs = none := by
  have other {c : Char} (digit : ¬(!c.isDigit) = true) : '.' ≠ c :=
    (ne_of_isDigit (by simpa using digit) rfl).symm
  fun_induction ungrouped? Char.isDigit cs with
  | case1 => rfl
  | case2 c digit => exact absurd (List.mem_singleton.1 h) (other (by simpa using digit))
  | case3 => rfl
  | case4 => rfl
  | case5 c cs digit ih =>
    have mem := (List.mem_cons.1 h).resolve_left (other digit)
    rw [ih ((List.mem_cons.1 mem).resolve_left (by decide)), Option.map_none]
  | case6 c d cs digit group ih =>
    rw [ih ((List.mem_cons.1 h).resolve_left (other digit)), Option.map_none]

/-- Behind its sign a float has no other characters than digits and a point. -/
theorem isDigit_or_point_of_mem_tail {negative : Bool} (spells : Spells whole fraction d)
    (h : c ∈ (floatChars negative whole fraction).tail) : c.isDigit = true ∨ c = '.' := by
  cases negative with
  | true => exact isDigit_or_point spells h
  | false => exact isDigit_or_point spells (List.mem_of_mem_tail h)

theorem mem_floatChars {negative : Bool} (spells : Spells whole fraction d)
    (h : c ∈ floatChars negative whole fraction) : c.isDigit = true ∨ c = '.' ∨ c = '-' := by
  rcases List.mem_append.1 h with sign | h
  · cases negative <;> simp_all
  · exact (isDigit_or_point spells h).imp_right .inl

/-- No float is an integer. -/
theorem integer?_floatChars (negative : Bool) (spells : Spells whole fraction d) :
    integer? (floatChars negative whole fraction) = none := by
  have noMark {mark : Char} {digits : List Char} (noDigit : mark.isDigit = false)
      (noPoint : mark ≠ '.') (noSign : mark ≠ '-') :
      floatChars negative whole fraction ≠ '0' :: mark :: digits := by
    intro same
    have mem : mark ∈ floatChars negative whole fraction := by
      rw [same]
      simp
    rcases mem_floatChars spells mem with digit | point | sign
    · rw [noDigit] at digit
      contradiction
    · exact noPoint point
    · exact noSign sign
  unfold integer?
  split
  next same => exact absurd same (noMark rfl (by decide) (by decide))
  next same => exact absurd same (noMark rfl (by decide) (by decide))
  next same => exact absurd same (noMark rfl (by decide) (by decide))
  next =>
    have point : '.' ∈ whole ++ '.' :: fraction := by simp
    rw [splitSign_floatChars negative spells]
    simp [wholeDigits?, ungrouped?_eq_none point]

/-- A float is read as it was written. -/
theorem word?_write (x : Binary64) :
    word? (floatLayout.write x).toList = some (.number (.real x)) := by
  obtain ⟨whole, fraction, text, spells⟩ := exists_write x
  have read := float?_floatChars spells (Binary64.ofDecimal_of_value spells.value)
  have noInteger := integer?_floatChars x.negative spells
  rw [text]
  have other {word : String} (noPoint : '.' ∉ word.toList) :
      floatChars x.negative whole fraction ≠ word.toList := by
    intro same
    apply noPoint
    rw [← same]
    simp [floatChars]
  have defined : isUndefined (floatChars x.negative whole fraction) = false := by
    have other {word : String} (noPoint : '.' ∉ word.toList) :
        String.ofList (whole ++ '.' :: fraction) ≠ word := by
      rintro rfl
      simp at noPoint
    rw [isUndefined, splitSign_floatChars _ spells, decide_eq_false_iff_not]
    simp only [List.mem_cons, List.not_mem_nil, or_false, not_or]
    exact ⟨other (by decide), other (by decide)⟩
  have notDate : dateTime? (floatChars x.negative whole fraction) = none := by
    refine dateTime?_eq_none (fun mem => ?_) fun mem => ?_
    · rcases isDigit_or_point_of_mem_tail spells mem with digit | point <;> contradiction
    · rcases mem_floatChars spells mem with digit | point | sign <;> contradiction
  unfold word?
  rw [if_neg (other (by decide)), if_neg (other (by decide)), defined, notDate, noInteger, read]
  rfl

end SiteManifest.Toml
