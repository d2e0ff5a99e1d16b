import SiteManifest.Proofs.Toml.Lines

/-!
# Words of TOML

Truth values and integers are written as words of their own. A word of digits could be meant for a
number in another base, a day or a time as well, but none of these looks like an integer as it is
written.

## Main definitions

* `EndsValue`: what stands behind a value that was written.

## Main statements

* `reads_wordFound?`: a word is read up to what stands behind it.
* `word?_integerChars`: an integer is read as it was written.
-/
namespace SiteManifest.Toml

open Number Text

/-! ## Words -/

/-- What stands behind a value: the end of a line, a comma, or the end of what the value is in. -/
inductive EndsValue : List Char → Prop where
  | mark {c : Char} (rest : List Char) (h : c ∈ ['\n', ',', ']']) : EndsValue (c :: rest)
  | brace (rest : List Char) : EndsValue (' ' :: '\x7d' :: rest)

variable {c : Char} {cs rest : List Char} {v : Json}

theorem EndsValue.noQuote (h : EndsValue rest) : NoQuote rest := by
  intro d hd
  cases h with
  | mark rest h =>
    obtain rfl := Option.some.inj hd
    simp only [List.mem_cons, List.not_mem_nil, or_false] at h
    rcases h with rfl | rfl | rfl <;> decide
  | brace rest =>
    obtain rfl := Option.some.inj hd
    decide

theorem EndsValue.isWordChar_head (h : EndsValue rest) :
    ∀ c ∈ rest.head?, isWordChar c = false := by
  intro d hd
  cases h with
  | mark rest h =>
    obtain rfl := Option.some.inj hd
    simp only [List.mem_cons, List.not_mem_nil, or_false] at h
    rcases h with rfl | rfl | rfl <;> rfl
  | brace rest =>
    obtain rfl := Option.some.inj hd
    rfl

/-- A word is read up to what stands behind it. -/
theorem reads_wordFound? (word : List Char) (nonempty : word ≠ [])
    (chars : ∀ c ∈ word, isWordChar c = true) (value : word? word = some v) (h : EndsValue rest) :
    Reads wordFound? (word ++ rest) v rest := by
  have ends := h.isWordChar_head
  have taken := takeWhile_append_of_head chars ends
  have dropped := dropWhile_append_of_head chars ends
  have long := List.length_pos_iff.2 nonempty
  refine ⟨by rw [List.length_append]; omega, ?_⟩
  unfold wordFound?
  cases h with
  | mark rest h =>
    simp only [List.mem_cons, List.not_mem_nil, or_false] at h
    rcases h with rfl | rfl | rfl <;> simp [taken, dropped, value, long]
  | brace rest =>
    -- No time of day follows, so the blank ends the word.
    have notDigit : ('\x7d').isDigit = false := rfl
    simp [taken, dropped, value, notDigit, long]

/-! ## Days and times -/

theorem date?_eq_none (h : '-' ∉ cs.tail) : date? cs = none := by
  unfold date?
  split
  next => simp at h
  next => rfl

theorem time?_eq_none (h : ':' ∉ cs) : time? cs = none := by
  unfold time?
  split
  next => simp at h
  next => rfl

/-- A word without the marks of a day and of a time is neither. -/
theorem dateTime?_eq_none (noDay : '-' ∉ cs.tail) (noTime : ':' ∉ cs) : dateTime? cs = none := by
  have noDate : date? (cs.take 10) = none := by
    cases cs with
    | nil => rfl
    | cons c cs => exact date?_eq_none fun mem => noDay (List.mem_of_mem_take mem)
  unfold dateTime?
  rw [noDate, date?_eq_none noDay, time?_eq_none noTime]
  split <;> rfl

/-! ## Integers -/

theorem ungrouped?_of_digits (nonempty : cs ≠ []) (digits : ∀ c ∈ cs, c.isDigit = true) :
    ungrouped? Char.isDigit cs = some cs := by
  induction cs with
  | nil => contradiction
  | cons c cs ih =>
    obtain ⟨hc, others⟩ := List.forall_mem_cons.1 digits
    cases cs with
    | nil => simp [ungrouped?, hc]
    | cons d cs =>
      have notGroup : d ≠ '_' := by
        rintro rfl
        exact absurd (others '_' (.head _)) (by decide)
      simp [ungrouped?, hc, notGroup, ih (List.cons_ne_nil d cs) others]

theorem foldl_digitValue (cs : List Char) (start : Nat) :
    cs.foldl (fun n c => n * 10 + digitValue c) start = Nat.ofDigitChars 10 cs start := by
  induction cs generalizing start with
  | nil => simp
  | cons c cs ih => rw [List.foldl_cons, ih, Nat.ofDigitChars_cons, digitValue, Nat.mul_comm]

theorem decimalValue_toDigits (n : Nat) : decimalValue (Nat.toDigits 10 n) = n := by
  rw [decimalValue, foldl_digitValue]
  exact Nat.ofDigitChars_ten_toDigits

theorem wholeDigits?_toDigits (n : Nat) :
    wholeDigits? (Nat.toDigits 10 n) = some (Nat.toDigits 10 n) := by
  unfold wholeDigits?
  rw [ungrouped?_of_digits Nat.toDigits_ne_nil fun c => isDigit_of_mem_toDigits]
  split
  next zeros => exact absurd (Option.some.inj zeros) toDigits_ne_zero_cons_cons
  next => rfl

theorem ne_of_isDigit {d : Char} (hc : c.isDigit = true) (hd : d.isDigit = false) : c ≠ d := by
  rintro rfl
  rw [hc] at hd
  contradiction

theorem splitSign_of_digits (digits : ∀ c ∈ cs, c.isDigit = true) :
    splitSign cs = (false, cs) := by
  unfold splitSign
  split
  next => exact absurd (digits '-' (.head _)) (by decide)
  next => exact absurd (digits '+' (.head _)) (by decide)
  next => rfl

/-- Digits are no number that is none. -/
theorem isUndefined_of_digits (digits : ∀ c ∈ (splitSign cs).2, c.isDigit = true) :
    isUndefined cs = false := by
  have other (word : String) {c : Char} (mem : c ∈ word.toList) (hc : c.isDigit = false) :
      String.ofList (splitSign cs).2 ≠ word := by
    rintro rfl
    rw [String.toList_ofList] at mem
    exact ne_of_isDigit (digits c mem) hc rfl
  have notInfinite := other "inf" (c := 'i') (by decide) rfl
  have notNone := other "nan" (c := 'n') (by decide) rfl
  simp [isUndefined, notInfinite, notNone]

/-- The characters of an integer: its digits, behind its sign. -/
def integerChars (n : Int) : List Char := (toString n).toList

theorem signed?_value {n : Integer} (small : n.value < 0x8000000000000000) :
    signed? n.value = some (.number (.integer n)) := by
  rw [signed?, if_pos small, Integer.ofInt?_value, Option.map_some]

theorem integer?_unsigned (decimal : ∀ c tail, cs ≠ '0' :: c :: tail)
    (unsigned : splitSign cs = (false, cs)) :
    integer? cs = (wholeDigits? cs).bind fun digits => signed? (decimalValue digits) := by
  unfold integer?
  split
  next => exact absurd rfl (decimal _ _)
  next => exact absurd rfl (decimal _ _)
  next => exact absurd rfl (decimal _ _)
  next =>
    rw [unsigned]
    rfl

/-- An integer that fits 64 bits with a sign is read from its digits and its sign. -/
theorem integer?_integerChars {n : Integer} (small : n.value < 0x8000000000000000) :
    integer? (integerChars n.value) = some (.number (.integer n)) := by
  have signed := signed?_value small
  rw [integerChars, toList_toString]
  split
  next positive =>
    have value : (n.value.toNat : Int) = n.value := Int.toNat_of_nonneg positive
    have decimal (c : Char) (tail : List Char) : Nat.toDigits 10 n.value.toNat ≠ '0' :: c :: tail :=
      toDigits_ne_zero_cons_cons
    have unsigned := splitSign_of_digits fun c (hc : c ∈ Nat.toDigits 10 n.value.toNat) =>
      isDigit_of_mem_toDigits hc
    rw [integer?_unsigned decimal unsigned, wholeDigits?_toDigits, Option.bind_some,
      decimalValue_toDigits, value, signed]
  next negative =>
    have value : -((-n.value).toNat : Int) = n.value := by omega
    have step (cs : List Char) : integer? ('-' :: cs) =
        (wholeDigits? cs).bind fun digits => signed? (-(decimalValue digits : Int)) := rfl
    rw [step, wholeDigits?_toDigits, Option.bind_some,
      decimalValue_toDigits, value, signed]

theorem exists_integerChars_eq (n : Int) :
    ∃ c cs, integerChars n = c :: cs ∧ (c = '-' ∨ c.isDigit = true) ∧
      ∀ d ∈ cs, d.isDigit = true := by
  rw [integerChars, toList_toString]
  split
  next =>
    cases digits : Nat.toDigits 10 n.toNat with
    | nil => exact absurd digits Nat.toDigits_ne_nil
    | cons c cs =>
      have all : ∀ d ∈ c :: cs, d.isDigit = true := fun d hd =>
        isDigit_of_mem_toDigits (digits ▸ hd)
      obtain ⟨first, others⟩ := List.forall_mem_cons.1 all
      exact ⟨c, cs, rfl, .inr first, others⟩
  next => exact ⟨'-', _, rfl, .inl rfl, fun d => isDigit_of_mem_toDigits⟩

/-- No other word is written like an integer. -/
theorem word?_integerChars {n : Integer} (small : n.value < 0x8000000000000000) :
    word? (integerChars n.value) = some (.number (.integer n)) := by
  have read := integer?_integerChars small
  obtain ⟨c, cs, text, first, digits⟩ := exists_integerChars_eq n.value
  rw [text] at read ⊢
  have start {d : Char} (notSign : d ≠ '-') (notDigit : d.isDigit = false) : c ≠ d := by
    rcases first with rfl | digit
    · exact notSign.symm
    · exact ne_of_isDigit digit notDigit
  have notDate : dateTime? (c :: cs) = none := by
    refine dateTime?_eq_none (fun mem => ?_) fun mem => ?_
    · exact ne_of_isDigit (digits _ mem) rfl rfl
    · rcases List.mem_cons.1 mem with same | mem
      · exact start (by decide) rfl same.symm
      · exact ne_of_isDigit (digits _ mem) rfl rfl
  have defined : isUndefined (c :: cs) = false := by
    refine isUndefined_of_digits fun d hd => ?_
    rcases first with rfl | digit
    · exact digits d hd
    · have all : ∀ e ∈ c :: cs, e.isDigit = true := List.forall_mem_cons.2 ⟨digit, digits⟩
      rw [splitSign_of_digits all] at hd
      exact all d hd
  unfold word?
  rw [defined, notDate, read]
  simp [start]

end SiteManifest.Toml
